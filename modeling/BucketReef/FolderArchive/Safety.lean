import BucketReef.FolderArchive.Plan

/-!
# What the plan of a folder archive promises

The invariant of the scan says where each key went and that no entry lies on or above another. From it
follow the promises of a plan and the two ways in which they fail: a folder object with contents under
the prefix itself, and a folder whose name is two dots.
-/

namespace BucketReef.FolderArchive

variable {canonical : Text → Text} {makeDetailId : ℕ → String} {folderPrefix : Text}

theorem safePath_of_not_unsafePath {path : Text} (h : unsafePath path = false) : SafePath path := by
  unfold unsafePath at h
  simp only [Bool.or_eq_false_iff, List.any_eq_false] at h
  obtain ⟨⟨-, hcharacters⟩, hparts⟩ := h
  constructor
  · intro c hc
    have hsafe := hcharacters c hc
    unfold unsafeCharacter at hsafe
    simp only [Bool.or_eq_true, decide_eq_true_eq, not_or] at hsafe
    obtain ⟨⟨hbackslash, hcolon⟩, hcontrol⟩ := hsafe
    exact ⟨hbackslash, hcolon, by omega⟩
  · intro part hpart
    have hsafe := hparts part hpart
    unfold unsafeSegment at hsafe
    simp only [Bool.or_eq_true, decide_eq_true_eq, not_or, List.isEmpty_iff] at hsafe
    obtain ⟨⟨⟨hempty, hdot⟩, hdots⟩, hlast⟩ := hsafe
    refine ⟨hempty, hdot, hdots, fun h => hlast ?_, fun h => hlast ?_⟩
    · rw [h]
      rfl
    · rw [h]
      rfl

/-! ## One object -/

/-- An object without a reason against it is safe and collides with nothing before it. -/
theorem reason_empty {scan : Scan} {object : BrowserObject}
    (h : scan.reason canonical folderPrefix object = "") :
    unsafePath (relativeTo folderPrefix object.key) = false ∧
      canonical (relativeTo folderPrefix object.key) ∉ scan.archiveNames ∧
      canonical (relativeTo folderPrefix object.key) ∉ scan.archiveDirectories ∧
      ∀ parent ∈ ancestors (canonical (relativeTo folderPrefix object.key)),
        parent ∉ scan.archiveNames := by
  unfold Scan.reason at h
  simp only at h
  by_cases hunsafe : unsafePath (relativeTo folderPrefix object.key) = true
  · rw [if_pos hunsafe] at h
    exact absurd h (by decide)
  · rw [if_neg hunsafe] at h
    by_cases hcollision : (scan.archiveNames.contains
        (canonical (relativeTo folderPrefix object.key)) ||
      scan.archiveDirectories.contains (canonical (relativeTo folderPrefix object.key)) ||
      (ancestors (canonical (relativeTo folderPrefix object.key))).any
        scan.archiveNames.contains) = true
    · rw [if_pos hcollision] at h
      exact absurd h (by decide)
    · simp only [Bool.or_eq_true, List.contains_iff_mem, List.any_eq_true, not_or, not_exists,
        not_and] at hcollision
      obtain ⟨⟨hname, hdirectory⟩, hparents⟩ := hcollision
      exact ⟨by simpa using hunsafe, hname, hdirectory, hparents⟩

/-- What a visit does: nothing for a key seen before, and otherwise a marker, an exclusion or a
target. -/
theorem visit_cases (canonical : Text → Text) (makeDetailId : ℕ → String) (folderPrefix : Text)
    (scan : Scan) (object : BrowserObject) :
    (object.key ∈ scan.seen ∧ scan.visit canonical makeDetailId folderPrefix object = scan) ∨
    (object.key ∉ scan.seen ∧ skipped folderPrefix object = true ∧
      scan.visit canonical makeDetailId folderPrefix object =
        { scan with seen := object.key :: scan.seen }) ∨
    (object.key ∉ scan.seen ∧ skipped folderPrefix object = false ∧ ∃ reason,
      scan.visit canonical makeDetailId folderPrefix object =
        { scan with
          seen := object.key :: scan.seen
          excluded := scan.excluded ++ [⟨object.key, reason⟩] }) ∨
    (object.key ∉ scan.seen ∧ skipped folderPrefix object = false ∧
      unsafePath (relativeTo folderPrefix object.key) = false ∧
      canonical (relativeTo folderPrefix object.key) ∉ scan.archiveNames ∧
      canonical (relativeTo folderPrefix object.key) ∉ scan.archiveDirectories ∧
      (∀ parent ∈ ancestors (canonical (relativeTo folderPrefix object.key)),
        parent ∉ scan.archiveNames) ∧
      ∃ detailId size, scan.visit canonical makeDetailId folderPrefix object =
        { scan with
          seen := object.key :: scan.seen
          archiveNames := canonical (relativeTo folderPrefix object.key) :: scan.archiveNames
          archiveDirectories := ancestors (canonical (relativeTo folderPrefix object.key)) ++
            scan.archiveDirectories
          targets := scan.targets ++
            [⟨detailId, object.key, relativeTo folderPrefix object.key, size⟩] }) := by
  unfold Scan.visit
  by_cases hseen : scan.seen.contains object.key = true
  · exact .inl ⟨by simpa using hseen, if_pos hseen⟩
  · right
    rw [if_neg hseen]
    have hnotseen : object.key ∉ scan.seen := by simpa using hseen
    by_cases hskipped : skipped folderPrefix object = true
    · exact .inl ⟨hnotseen, hskipped, by simp only [if_pos hskipped]⟩
    · right
      have hkept : skipped folderPrefix object = false := by simpa using hskipped
      simp only [if_neg hskipped]
      by_cases hreason : Scan.reason canonical folderPrefix
          { scan with seen := object.key :: scan.seen } object = ""
      · right
        rw [if_neg (not_not.mpr hreason)]
        refine ⟨hnotseen, hkept, ?_⟩
        obtain ⟨hsafe, hname, hdirectory, hparents⟩ := reason_empty hreason
        exact ⟨hsafe, hname, hdirectory, hparents, _, _, rfl⟩
      · left
        rw [if_pos hreason]
        exact ⟨hnotseen, hkept, _, rfl⟩

theorem firstOf_concat {objects : List BrowserObject} {object last : BrowserObject} :
    FirstOf (objects ++ [last]) object ↔
      FirstOf objects object ∨ (last.key ∉ objects.map BrowserObject.key ∧ object = last) := by
  unfold FirstOf
  rw [List.find?_append]
  rcases hfind : objects.find? (fun other => other.key = object.key) with - | first
  · rw [hfind, Option.none_or]
    have hnone : object.key ∉ objects.map BrowserObject.key := by
      intro hin
      obtain ⟨other, hother, hkey⟩ := List.mem_map.mp hin
      exact List.find?_eq_none.mp hfind other hother (by simpa using hkey)
    constructor
    · intro h
      have hlast : last = object := by
        by_cases hkey : last.key = object.key
        · rw [List.find?_cons_of_pos (by simpa using hkey)] at h
          exact Option.some.inj h
        · rw [List.find?_cons_of_neg (by simpa using hkey)] at h
          simp at h
      exact .inr ⟨hlast ▸ hnone, hlast.symm⟩
    · rintro (h | ⟨-, rfl⟩)
      · simp at h
      · simp
  · rw [hfind, Option.some_or]
    refine ⟨.inl, ?_⟩
    rintro (h | ⟨hnot, rfl⟩)
    · exact h
    · refine absurd (List.mem_map.mpr ⟨first, List.mem_of_find?_eq_some hfind, ?_⟩) hnot
      simpa using List.find?_some hfind

/-! ## The invariant of the scan -/

/-- Where the key of an object went. -/
def Went (folderPrefix : Text) (scan : Scan) (object : BrowserObject) : Prop :=
  (object.key ∈ scan.targets.map BrowserFolderDownloadTarget.key ∧
      object.key ∉ scan.excluded.map Excluded.key ∧ skipped folderPrefix object = false) ∨
    (object.key ∉ scan.targets.map BrowserFolderDownloadTarget.key ∧
      object.key ∈ scan.excluded.map Excluded.key ∧ skipped folderPrefix object = false) ∨
    (object.key ∉ scan.targets.map BrowserFolderDownloadTarget.key ∧
      object.key ∉ scan.excluded.map Excluded.key ∧ skipped folderPrefix object = true)

structure Inv (canonical : Text → Text) (folderPrefix : Text) (objects : List BrowserObject)
    (scan : Scan) : Prop where
  seen : ∀ key, key ∈ scan.seen ↔ key ∈ objects.map BrowserObject.key
  target_keys : ∀ target ∈ scan.targets, target.key ∈ objects.map BrowserObject.key
  distinct : (scan.targets.map BrowserFolderDownloadTarget.key).Nodup
  excluded_keys : ∀ excluded ∈ scan.excluded, excluded.key ∈ objects.map BrowserObject.key
  went : ∀ object, FirstOf objects object → Went folderPrefix scan object
  paths : ∀ target ∈ scan.targets, SafePath target.relativeKey
  names : ∀ target ∈ scan.targets, canonical target.relativeKey ∈ scan.archiveNames
  directories : ∀ target ∈ scan.targets, ∀ parent ∈ ancestors (canonical target.relativeKey),
    parent ∈ scan.archiveDirectories
  collisions : scan.targets.Pairwise fun first second =>
    Apart (canonical first.relativeKey) (canonical second.relativeKey)

theorem inv_start : Inv canonical folderPrefix [] .start where
  seen := by simp [Scan.start]
  target_keys := by simp [Scan.start]
  distinct := List.nodup_nil
  excluded_keys := by simp [Scan.start]
  went := by simp [FirstOf]
  paths := by simp [Scan.start]
  names := by simp [Scan.start]
  directories := by simp [Scan.start]
  collisions := List.Pairwise.nil

theorem mem_keys_concat {objects : List BrowserObject} {key : Text} (object : BrowserObject)
    (h : key ∈ objects.map BrowserObject.key) :
    key ∈ (objects ++ [object]).map BrowserObject.key := by
  rw [List.map_append]
  exact List.mem_append_left _ h

theorem seen_concat {objects : List BrowserObject} {scan : Scan}
    (h : Inv canonical folderPrefix objects scan) (object : BrowserObject) (key : Text) :
    key ∈ object.key :: scan.seen ↔ key ∈ (objects ++ [object]).map BrowserObject.key := by
  rw [List.mem_cons, h.seen, List.map_append, List.mem_append, List.map_singleton,
    List.mem_singleton, or_comm]

/-- The keys of targets and exclusions are keys seen. -/
theorem new_key {objects : List BrowserObject} {scan : Scan}
    (h : Inv canonical folderPrefix objects scan) {object : BrowserObject}
    (hnew : object.key ∉ scan.seen) :
    object.key ∉ scan.targets.map BrowserFolderDownloadTarget.key ∧
      object.key ∉ scan.excluded.map Excluded.key := by
  rw [h.seen] at hnew
  constructor
  · intro hin
    obtain ⟨target, htarget, hkey⟩ := List.mem_map.mp hin
    exact hnew (hkey ▸ h.target_keys target htarget)
  · intro hin
    obtain ⟨excluded, hexcluded, hkey⟩ := List.mem_map.mp hin
    exact hnew (hkey ▸ h.excluded_keys excluded hexcluded)

theorem key_ne_of_firstOf {objects : List BrowserObject} {first object : BrowserObject}
    (hfirst : FirstOf objects first) (hnew : object.key ∉ objects.map BrowserObject.key) :
    first.key ≠ object.key :=
  fun heq => hnew (heq ▸ List.mem_map_of_mem (List.mem_of_find?_eq_some hfirst))

theorem visit_inv {objects : List BrowserObject} {scan : Scan}
    (h : Inv canonical folderPrefix objects scan) (object : BrowserObject) :
    Inv canonical folderPrefix (objects ++ [object])
      (scan.visit canonical makeDetailId folderPrefix object) := by
  rcases visit_cases canonical makeDetailId folderPrefix scan object with
    ⟨hseen, hvisit⟩ | ⟨hnew, hskipped, hvisit⟩ | ⟨hnew, hkept, reason, hvisit⟩ |
      ⟨hnew, hkept, hsafe, hname, hdirectory, hparents, detailId, size, hvisit⟩
  · rw [hvisit]
    have hin := (h.seen _).mp hseen
    exact
      { seen := fun key => by
          rw [h.seen, List.map_append, List.mem_append, List.map_singleton, List.mem_singleton]
          exact ⟨.inl, fun hkey => hkey.elim id fun heq => heq ▸ hin⟩
        target_keys := fun target htarget => mem_keys_concat object (h.target_keys target htarget)
        distinct := h.distinct
        excluded_keys := fun excluded hexcluded =>
          mem_keys_concat object (h.excluded_keys excluded hexcluded)
        went := fun first hfirst => (firstOf_concat.mp hfirst).elim (h.went first)
          fun hnot => absurd hin hnot.1
        paths := h.paths
        names := h.names
        directories := h.directories
        collisions := h.collisions }
  · rw [hvisit]
    obtain ⟨htargets, hexcluded⟩ := new_key h hnew
    exact
      { seen := seen_concat h object
        target_keys := fun target htarget => mem_keys_concat object (h.target_keys target htarget)
        distinct := h.distinct
        excluded_keys := fun excluded hexcluded =>
          mem_keys_concat object (h.excluded_keys excluded hexcluded)
        went := fun first hfirst => by
          rcases firstOf_concat.mp hfirst with hold | ⟨-, rfl⟩
          · exact h.went first hold
          · exact .inr (.inr ⟨htargets, hexcluded, hskipped⟩)
        paths := h.paths
        names := h.names
        directories := h.directories
        collisions := h.collisions }
  · rw [hvisit]
    obtain ⟨htargets, hexcluded⟩ := new_key h hnew
    exact
      { seen := seen_concat h object
        target_keys := fun target htarget => mem_keys_concat object (h.target_keys target htarget)
        distinct := h.distinct
        excluded_keys := fun excluded hin => by
          rcases List.mem_append.mp hin with hold | hlast
          · exact mem_keys_concat object (h.excluded_keys excluded hold)
          · rw [List.mem_singleton.mp hlast]
            simp
        went := fun first hfirst => by
          unfold Went
          rw [List.map_append, List.mem_append, List.map_singleton, List.mem_singleton]
          rcases firstOf_concat.mp hfirst with hold | ⟨-, rfl⟩
          · have hne := key_ne_of_firstOf hold (fun hin => hnew ((h.seen _).mpr hin))
            simp only [hne, or_false]
            exact h.went first hold
          · exact .inr (.inl ⟨htargets, .inr rfl, hkept⟩)
        paths := h.paths
        names := h.names
        directories := h.directories
        collisions := h.collisions }
  · rw [hvisit]
    obtain ⟨htargets, hexcluded⟩ := new_key h hnew
    have hlast : ∀ {p : BrowserFolderDownloadTarget → Prop},
        (∀ target ∈ scan.targets, p target) →
        p ⟨detailId, object.key, relativeTo folderPrefix object.key, size⟩ →
        ∀ target ∈ scan.targets ++
          [⟨detailId, object.key, relativeTo folderPrefix object.key, size⟩], p target := by
      intro p hold hnew target htarget
      rcases List.mem_append.mp htarget with hin | hin
      · exact hold target hin
      · rw [List.mem_singleton.mp hin]
        exact hnew
    exact
      { seen := seen_concat h object
        target_keys := hlast
          (fun target htarget => mem_keys_concat object (h.target_keys target htarget)) (by simp)
        distinct := by
          rw [List.map_append, List.map_singleton]
          exact List.nodup_append_comm.mp (List.nodup_cons.mpr ⟨htargets, h.distinct⟩)
        excluded_keys := fun excluded hexcluded =>
          mem_keys_concat object (h.excluded_keys excluded hexcluded)
        went := fun first hfirst => by
          unfold Went
          rw [List.map_append, List.mem_append, List.map_singleton, List.mem_singleton]
          rcases firstOf_concat.mp hfirst with hold | ⟨-, rfl⟩
          · have hne := key_ne_of_firstOf hold (fun hin => hnew ((h.seen _).mpr hin))
            simp only [hne, or_false]
            exact h.went first hold
          · exact .inl ⟨.inr rfl, hexcluded, hkept⟩
        paths := hlast h.paths (safePath_of_not_unsafePath hsafe)
        names := hlast (fun target htarget => List.mem_cons_of_mem _ (h.names target htarget))
          List.mem_cons_self
        directories := hlast (fun target htarget parent hparent =>
            List.mem_append_right _ (h.directories target htarget parent hparent))
          fun parent hparent => List.mem_append_left _ hparent
        collisions := by
          refine List.pairwise_append.mpr ⟨h.collisions, List.pairwise_singleton _ _, ?_⟩
          intro target htarget other hother
          rw [List.mem_singleton.mp hother]
          have hold := h.names target htarget
          exact ⟨fun heq => hname (heq ▸ hold), fun hin => hparents _ hin hold,
            fun hin => hdirectory (h.directories target htarget _ hin)⟩ }

theorem scanned_inv (canonical : Text → Text) (makeDetailId : ℕ → String) (folderPrefix : Text)
    (objects : List BrowserObject) :
    Inv canonical folderPrefix objects (scanned canonical makeDetailId folderPrefix objects) := by
  induction objects using List.reverseRecOn with
  | nil => exact inv_start
  | append_singleton objects object ih =>
    unfold scanned
    rw [List.foldl_concat]
    exact visit_inv ih object

/-! ## Labels and extraction -/

/-- The name that the label of a folder is made from. -/
def folderName (name : Option Text) (pre : Text) : Text :=
  if name.getD [] ≠ [] then name.getD []
  else if pre.getLast? = some '/' then pre.dropLast else pre

theorem label_spec (name : Option Text) (pre : Text) :
    '/' ∉ resolveBrowserFolderArchiveLabel name pre ∧
      resolveBrowserFolderArchiveLabel name pre ≠ [] ∧
      (resolveBrowserFolderArchiveLabel name pre = ['.', '.'] ↔
        folderName name pre = ['.', '.']) := by
  have hlabel : resolveBrowserFolderArchiveLabel name pre =
      (if folderName name pre ≠ [] then folderName name pre else "folder".toList).map
        fun c => if c = '\\' ∨ c = '/' then '-' else c := by
    have hraw : (if name.getD [] ≠ [] then name.getD []
        else if (if pre.getLast? = some '/' then pre.dropLast else pre) ≠ [] then
          (if pre.getLast? = some '/' then pre.dropLast else pre)
        else "folder".toList) =
        if folderName name pre ≠ [] then folderName name pre else "folder".toList := by
      unfold folderName
      by_cases hname : name.getD [] = []
      · rw [if_neg (not_not.mpr hname), if_neg (not_not.mpr hname)]
      · rw [if_pos hname, if_pos hname, if_pos hname]
    unfold resolveBrowserFolderArchiveLabel
    simp only [hraw]
    rw [if_neg]
    intro hnil
    rw [List.map_eq_nil_iff] at hnil
    by_cases hname : folderName name pre = []
    · rw [if_neg (not_not.mpr hname)] at hnil
      exact absurd hnil (by decide)
    · rw [if_pos hname] at hnil
      exact hname hnil
  rw [hlabel]
  refine ⟨?_, ?_, ?_⟩
  · intro hin
    obtain ⟨c, -, hc⟩ := List.mem_map.mp hin
    split_ifs at hc with hslash
    · exact absurd hc (by decide)
    · exact hslash (.inr hc)
  · intro hnil
    rw [List.map_eq_nil_iff] at hnil
    split_ifs at hnil with hname
    · exact hname hnil
    · exact absurd hnil (by decide)
  · by_cases hname : folderName name pre = []
    · rw [hname]
      exact ⟨fun h => absurd h (by decide), fun h => absurd h (by decide)⟩
    · rw [if_pos hname]
      constructor
      · intro h
        obtain ⟨first, rest, hrest, hfirst, htail⟩ := List.map_eq_cons_iff.mp h
        obtain ⟨second, rest', hrest', hsecond, hnil⟩ := List.map_eq_cons_iff.mp htail
        have hdot : ∀ c : Char, (if c = '\\' ∨ c = '/' then '-' else c) = '.' → c = '.' := by
          intro c hc
          split_ifs at hc with hslash
          · exact absurd hc (by decide)
          · exact hc
        rw [hrest, hrest', hdot first hfirst, hdot second hsecond, List.map_eq_nil_iff.mp hnil]
      · intro h
        rw [h]
        decide

theorem segments_append {label : Text} (hslash : '/' ∉ label) (path : Text) :
    segments (label ++ '/' :: path) = label :: segments path := by
  unfold segments
  rw [List.splitOn_eq_splitOnP, List.splitOn_eq_splitOnP,
    List.splitOnP_append_cons_of_forall_mem _ _ (by simp)]
  intro c hc
  have hne : c ≠ '/' := fun heq => hslash (heq ▸ hc)
  simpa using hne

theorem segments_ne_nil (path : Text) : segments path ≠ [] := by
  unfold segments
  rw [List.splitOn_eq_splitOnP]
  exact List.splitOnP_ne_nil _ _

theorem SafePath.head?_ne {path : Text} (h : SafePath path) : path.head? ≠ some '/' := by
  intro hhead
  obtain ⟨rest, rfl⟩ := List.head?_eq_some_iff.mp hhead
  have hslash : '/' ∉ ([] : Text) := List.not_mem_nil
  have hsegments : segments ('/' :: rest) = [] :: segments rest := segments_append hslash rest
  exact (h.parts [] (by rw [hsegments]; exact List.mem_cons_self)).1 rfl

/-- Each segment of a safe path leads one level down. -/
theorem walk_safe {parts : List Text} (h : ∀ part ∈ parts, part ≠ [] ∧ part ≠ ['.'] ∧
    part ≠ ['.', '.']) (depth : ℕ) : walk depth parts = some (depth + parts.length) := by
  induction parts generalizing depth with
  | nil => rfl
  | cons part parts ih =>
    obtain ⟨hempty, hdot, hdots⟩ := h part List.mem_cons_self
    unfold walk
    rw [if_neg (by simp [hempty, hdot]), if_neg hdots,
      ih (fun other hother => h other (List.mem_cons_of_mem _ hother)), List.length_cons]
    congr 1
    omega

theorem SafePath.walk {path : Text} (h : SafePath path) (depth : ℕ) :
    ∃ levels, FolderArchive.walk depth (segments path) = some (depth + levels + 1) := by
  have hpos := List.length_pos_iff.mpr (segments_ne_nil path)
  refine ⟨(segments path).length - 1, ?_⟩
  rw [walk_safe fun part hpart => ⟨(h.parts part hpart).1, (h.parts part hpart).2.1,
    (h.parts part hpart).2.2.1⟩]
  congr 1
  omega

/-- A safe entry stays inside, with and without its root folder, unless that is two dots. -/
theorem writesInside_iff {label : Text} (hslash : '/' ∉ label) (hlabel : label ≠ [])
    {target : BrowserFolderDownloadTarget} (h : SafePath target.relativeKey) :
    (∀ includeRootFolder, WritesInside (entryName includeRootFolder label target)) ↔
      label ≠ ['.', '.'] := by
  have hentry : entryName true label target = label ++ '/' :: target.relativeKey := rfl
  constructor
  · intro hinside hdots
    obtain ⟨-, depth, hwalk⟩ := hinside true
    rw [hentry, segments_append hslash, hdots] at hwalk
    simp [walk] at hwalk
  · intro hdots includeRootFolder
    cases includeRootFolder with
    | false =>
      obtain ⟨levels, hwalk⟩ := h.walk 0
      exact ⟨h.head?_ne, levels, by rw [Nat.zero_add] at hwalk; exact hwalk⟩
    | true =>
      rw [hentry]
      refine ⟨?_, ?_⟩
      · obtain ⟨first, rest, rfl⟩ := List.exists_cons_of_ne_nil hlabel
        intro hhead
        exact hslash (by simp at hhead; simp [hhead])
      · rw [segments_append hslash]
        by_cases hdot : label = ['.']
        · obtain ⟨levels, hwalk⟩ := h.walk 0
          refine ⟨levels, ?_⟩
          rw [hdot]
          show walk 0 (['.'] :: segments target.relativeKey) = _
          unfold walk
          rw [if_pos (.inr rfl), hwalk, Nat.zero_add]
        · obtain ⟨levels, hwalk⟩ := h.walk 1
          refine ⟨1 + levels, ?_⟩
          unfold walk
          rw [if_neg (by simp [hlabel, hdot]), if_neg hdots]
          exact hwalk

/-! ## The promises -/

theorem safePlan (canonical : Text → Text) (makeDetailId : ℕ → String) (folderPrefix : Text)
    (objects : List BrowserObject) :
    SafePlan canonical objects
      (buildBrowserFolderDownloadPlan canonical makeDetailId folderPrefix objects) := by
  have hinv := scanned_inv canonical makeDetailId folderPrefix objects
  refine ⟨⟨hinv.target_keys, hinv.distinct⟩, hinv.paths, hinv.collisions, ?_⟩
  show (scanned canonical makeDetailId folderPrefix objects).targets.foldl _ 0 = _
  rw [List.sum_eq_foldl, List.foldl_map]
  rfl

/-- A skipped object without contents is a marker; only the folder itself can have contents. -/
theorem lossless_iff (canonical : Text → Text) (makeDetailId : ℕ → String) (folderPrefix : Text)
    (objects : List BrowserObject) :
    Lossless folderPrefix objects
        (buildBrowserFolderDownloadPlan canonical makeDetailId folderPrefix objects) ↔
      ∀ object, FirstOf objects object → object.key = folderPrefix → object.size = .finite 0 := by
  have hwent := (scanned_inv canonical makeDetailId folderPrefix objects).went
  have hmarker : ∀ object, (zeroByteMarker folderPrefix object = skipped folderPrefix object) ↔
      (object.key = folderPrefix → object.size = .finite 0) := by
    intro object
    unfold zeroByteMarker skipped
    by_cases hkey : object.key = folderPrefix
    · by_cases hsize : object.size = .finite 0
      · simp [hkey, hsize]
      · simp [hkey, hsize]
    · by_cases hsize : object.size = .finite 0
      · simp [hkey, hsize]
      · simp [hkey, hsize]
  constructor
  · intro h object hfirst hkey
    refine (hmarker object).mp ?_ hkey
    rcases h object hfirst with ⟨hin, hout, hnot⟩ | ⟨hout, hin, hnot⟩ | ⟨hout, hout', hyes⟩
    · rcases hwent object hfirst with ⟨-, -, hskip⟩ | ⟨hnone, -, -⟩ | ⟨hnone, -, -⟩
      · rw [hnot, hskip]
      · exact absurd hin hnone
      · exact absurd hin hnone
    · rcases hwent object hfirst with ⟨-, hnone, -⟩ | ⟨-, -, hskip⟩ | ⟨-, hnone, -⟩
      · exact absurd hin hnone
      · rw [hnot, hskip]
      · exact absurd hin hnone
    · rcases hwent object hfirst with ⟨hin, -, -⟩ | ⟨-, hin, -⟩ | ⟨-, -, hskip⟩
      · exact absurd hin hout
      · exact absurd hin hout'
      · rw [hyes, hskip]
  · intro h object hfirst
    rw [(hmarker object).mpr (h object hfirst)]
    exact hwent object hfirst

/-- Every plan is safe. It is lossless exactly when no object with contents stands under the prefix
itself, and its entries stay inside exactly when the folder is not called two dots. -/
theorem folder_archive_iff (canonical : Text → Text) (makeDetailId : ℕ → String)
    (folderPrefix : Text) (objects : List BrowserObject) (name : Option Text) :
    SafePlan canonical objects
        (buildBrowserFolderDownloadPlan canonical makeDetailId folderPrefix objects) ∧
      (Lossless folderPrefix objects
          (buildBrowserFolderDownloadPlan canonical makeDetailId folderPrefix objects) ↔
        ∀ object, FirstOf objects object → object.key = folderPrefix → object.size = .finite 0) ∧
      ∀ target ∈ (buildBrowserFolderDownloadPlan canonical makeDetailId folderPrefix objects).targets,
        (∀ includeRootFolder, WritesInside (entryName includeRootFolder
            (resolveBrowserFolderArchiveLabel name folderPrefix) target)) ↔
          folderName name folderPrefix ≠ ['.', '.'] := by
  have hplan := safePlan canonical makeDetailId folderPrefix objects
  obtain ⟨hslash, hlabel, hdots⟩ := label_spec name folderPrefix
  refine ⟨hplan, lossless_iff canonical makeDetailId folderPrefix objects, fun target htarget => ?_⟩
  rw [writesInside_iff hslash hlabel (hplan.paths target htarget), ne_eq, hdots]

/-- A file in a folder called two dots. -/
def dotted_object : BrowserObject := ⟨"../a".toList, .finite 1⟩

/-- The folder `../` is archived with the root folder `..`, and its file is written outside. -/
theorem not_folder_archive :
    ¬∀ (canonical : Text → Text) (folderPrefix : Text) (objects : List BrowserObject)
      (name : Option Text),
      Lossless folderPrefix objects
          (buildBrowserFolderDownloadPlan canonical toString folderPrefix objects) ∧
        ExtractsInside (resolveBrowserFolderArchiveLabel name folderPrefix)
          (buildBrowserFolderDownloadPlan canonical toString folderPrefix objects) := by
  intro h
  obtain ⟨-, hinside⟩ := h id "../".toList [dotted_object] none
  obtain ⟨-, depth, hwalk⟩ := hinside ⟨"0", "../a".toList, "a".toList, 1⟩ (by decide) true
  revert hwalk
  have hescapes : walk 0 (segments (entryName true
      (resolveBrowserFolderArchiveLabel none "../".toList)
      ⟨"0", "../a".toList, "a".toList, 1⟩)) = none := by decide
  rw [hescapes]
  exact fun hwalk => absurd hwalk (by simp)

end BucketReef.FolderArchive

import BucketReef.BulkRestore.Plan

/-!
# What the plan of a bulk restore lists

The plan looks for the newest dated entry of each key, with object versions before delete markers of the
same date. Whatever files and folders overlap and however the listings are split into pages, it lists of
each key what the key's own history says.
-/

namespace BucketReef.BulkRestore

theorem filled_eq_some_iff {text : Option String} {value : String} :
    filled text = some value ↔ text = some value ∧ value ≠ "" := by
  unfold filled
  rw [Option.filter_eq_some_iff, decide_eq_true_eq]

/-! ## Listings -/

theorem listAllVersions_answers (key : Option String) (pages : List Page) :
    listAllVersions (answers key pages) =
      let entries := (pages.flatMap Page.entries).filter fun entry =>
        key.all fun key => entry.key = key
      ⟨entries.filter fun entry => !entry.isDeleteMarker,
        entries.filter BrowserObjectVersion.isDeleteMarker⟩ := by
  induction pages with
  | nil => rfl
  | cons page rest ih =>
    cases rest with
    | nil => simp [answers, listAllVersions, Page.answer]
    | cons next rest =>
      have hmarker : (filled (some page.nextKeyMarker)).isSome = true := by
        rw [filled_eq_some_iff.mpr ⟨rfl, page.markerFilled⟩]
        rfl
      show listAllVersions (page.answer key true :: answers key (next :: rest)) = _
      unfold listAllVersions
      rw [ih]
      simp [Page.answer, hmarker]

/-- The entries of a key as the plan receives them. -/
def entriesOf (history : List BrowserObjectVersion) : List BrowserObjectVersion :=
  (history.filter fun entry => !entry.isDeleteMarker) ++
    history.filter BrowserObjectVersion.isDeleteMarker

variable {bucket : VersionedBucket}

theorem versionsForKey_entries (listings : Listings bucket) (key : String) :
    (listings.versionsForKey key).versions ++ (listings.versionsForKey key).deleteMarkers =
      entriesOf (bucket.history key) := by
  have hlisting := bucket.listingKey key key
  rw [if_pos List.prefix_rfl] at hlisting
  unfold Listings.versionsForKey entriesOf
  rw [listAllVersions_answers, listings.keyPages_flatten, ← hlisting]
  rfl

theorem versionsForPrefix_entries (listings : Listings bucket) (start key : String) :
    (((listings.versionsForPrefix start).versions ++
      (listings.versionsForPrefix start).deleteMarkers).filter fun entry => entry.key = key) =
        if start.toList <+: key.toList then entriesOf (bucket.history key) else [] := by
  have hlisting := bucket.listingKey start key
  unfold Listings.versionsForPrefix
  rw [listAllVersions_answers, listings.prefixPages_flatten]
  have hcomm : ∀ p : BrowserObjectVersion → Bool,
      (((bucket.listing start).filter p).filter fun entry => entry.key = key) =
        ((bucket.listing start).filter fun entry => entry.key = key).filter p :=
    fun p => List.filter_comm _ _ _
  simp only [Option.all_none, List.filter_true, List.filter_append]
  rw [hcomm, hcomm, hlisting]
  split_ifs
  · rfl
  · rfl

/-! ## Sets and maps -/

@[simp] theorem mem_add {key other : String} {keys : List String} :
    other ∈ add key keys ↔ other ∈ keys ∨ other = key := by
  unfold add
  split_ifs with h
  · constructor
    · exact .inl
    · rintro (hother | rfl)
      · exact hother
      · exact h
  · simp

@[simp] theorem mem_set {key value other id : String} {entries : List (String × String)} :
    (other, id) ∈ set key value entries ↔
      (other = key ∧ id = value) ∨ (other ≠ key ∧ (other, id) ∈ entries) := by
  unfold set
  split_ifs with h
  · rw [List.mem_map]
    constructor
    · rintro ⟨entry, hentry, heq⟩
      split_ifs at heq with hkey
      · cases heq
        exact .inl ⟨rfl, rfl⟩
      · subst heq
        exact .inr ⟨hkey, hentry⟩
    · rintro (⟨rfl, rfl⟩ | ⟨hne, hmem⟩)
      · obtain ⟨entry, hentry, rfl⟩ := List.mem_map.mp h
        exact ⟨entry, hentry, if_pos rfl⟩
      · exact ⟨_, hmem, if_neg hne⟩
  · rw [List.mem_append, List.mem_singleton, Prod.mk.injEq]
    constructor
    · rintro (hmem | heq)
      · refine .inr ⟨fun heq => h ?_, hmem⟩
        exact heq ▸ List.mem_map_of_mem (f := Prod.fst) hmem
      · exact .inl heq
    · rintro (heq | ⟨-, hmem⟩)
      · exact .inr heq
      · exact .inl hmem

theorem mem_keysOf {entries : List BrowserObjectVersion} {key : String} :
    key ∈ keysOf entries ↔ ∃ entry ∈ entries, entry.key = key := by
  have hfold : ∀ keys : List String,
      key ∈ entries.foldl (fun keys entry => add entry.key keys) keys ↔
        key ∈ keys ∨ ∃ entry ∈ entries, entry.key = key := by
    induction entries with
    | nil => simp
    | cons entry entries ih =>
      intro keys
      rw [List.foldl_cons, ih, mem_add, List.exists_mem_cons_iff, or_assoc, eq_comm (a := key)]
  unfold keysOf
  rw [hfold]
  simp

/-! ## The newest dated entry -/

/-- The newest object version of its date, which is the last date up to the target time. -/
def IsNewest (targetTime : ℤ) (history : List BrowserObjectVersion)
    (version : BrowserObjectVersion) : Prop :=
  (history.find? fun entry =>
    !entry.isDeleteMarker && decide (entry.lastModified = version.lastModified)) = some version ∧
  ∃ date ∈ version.lastModified, date ≤ targetTime ∧
    ∀ entry ∈ history, ∀ date' ∈ entry.lastModified, date' ≤ targetTime → date' ≤ date

theorem mem_entriesOf {history : List BrowserObjectVersion} {entry : BrowserObjectVersion} :
    entry ∈ entriesOf history ↔ entry ∈ history := by
  unfold entriesOf
  rw [List.mem_append, List.mem_filter, List.mem_filter]
  rcases entry.isDeleteMarker with - | -
  · simp
  · simp

/-- The version id that a key is restored to or already has. -/
def restorable (targetTime : ℤ) (history : List BrowserObjectVersion) : Option String :=
  (versionAtOrBefore (entriesOf history) targetTime).bind fun entry =>
    if entry.isDeleteMarker then none else filled entry.versionId

/-- The current version, which is no delete marker, has this id. -/
def isUnchanged (history : List BrowserObjectVersion) (id : String) : Bool :=
  ((entriesOf history).find? BrowserObjectVersion.isLatest).any fun latest =>
    !latest.isDeleteMarker && decide (latest.versionId = some id)

theorem classifyVersions_eq {options : Options} (hmode : options.restoreLatestDeleted = false)
    (key : String) (history : List BrowserObjectVersion) (plan : Plan) :
    classifyVersions options key (entriesOf history) plan =
      match restorable options.targetTime history with
      | none => plan
      | some id =>
        { plan with
          unchangedKeys := if isUnchanged history id then add key plan.unchangedKeys
            else plan.unchangedKeys
          restoreCandidates := if isUnchanged history id then plan.restoreCandidates
            else set key id plan.restoreCandidates
          presentAtDate := add key plan.presentAtDate } := by
  unfold classifyVersions restorable isUnchanged
  rw [hmode]
  simp only [Bool.false_eq_true, if_false]
  rcases versionAtOrBefore (entriesOf history) options.targetTime with - | entry
  · rfl
  · simp only [Option.bind_some]
    split_ifs with hmarker
    · rfl
    · rcases filled entry.versionId with - | id
      · rfl
      · rfl

/-- What the plan lists of the keys that were classified and of those that may be deleted. -/
structure Tracks (bucket : VersionedBucket) (options : Options) (done deletable : String → Prop)
    (plan : Plan) : Prop where
  present : ∀ key, key ∈ plan.presentAtDate ↔
    done key ∧ restorable options.targetTime (bucket.history key) ≠ none
  restore : ∀ key id, (key, id) ∈ plan.restoreCandidates ↔
    done key ∧ restorable options.targetTime (bucket.history key) = some id ∧
      isUnchanged (bucket.history key) id = false
  delete : ∀ key, key ∈ plan.deleteCandidates ↔
    options.deleteMissing = true ∧ deletable key ∧
      restorable options.targetTime (bucket.history key) = none

variable {options : Options} {done deletable done' deletable' : String → Prop} {plan : Plan}

theorem Tracks.congr (h : Tracks bucket options done deletable plan)
    (hdone : ∀ key, done key ↔ done' key) (hdeletable : ∀ key, deletable key ↔ deletable' key) :
    Tracks bucket options done' deletable' plan := by
  constructor
  · exact fun key => by rw [h.present, hdone]
  · exact fun key id => by rw [h.restore, hdone]
  · exact fun key => by rw [h.delete, hdeletable]

theorem Tracks.of_not_deleteMissing (h : Tracks bucket options done deletable plan)
    (hkeep : options.deleteMissing = false) : Tracks bucket options done deletable' plan := by
  refine ⟨h.present, h.restore, fun key => ?_⟩
  rw [h.delete, hkeep]
  simp

theorem Tracks.classifyVersions (hmode : options.restoreLatestDeleted = false)
    (h : Tracks bucket options done deletable plan) (key : String) :
    Tracks bucket options (fun other => done other ∨ other = key) deletable
      (classifyVersions options key (entriesOf (bucket.history key)) plan) := by
  rw [classifyVersions_eq hmode]
  rcases hid : restorable options.targetTime (bucket.history key) with - | id
  · refine ⟨fun other => ?_, fun other id => ?_, h.delete⟩
    · simp only [h.present]
      constructor
      · exact fun ⟨hdone, hne⟩ => ⟨.inl hdone, hne⟩
      · rintro ⟨hdone | rfl, hne⟩
        · exact ⟨hdone, hne⟩
        · exact absurd hid hne
    · simp only [h.restore]
      constructor
      · exact fun ⟨hdone, hrest⟩ => ⟨.inl hdone, hrest⟩
      · rintro ⟨hdone | rfl, hrest⟩
        · exact ⟨hdone, hrest⟩
        · rw [hid] at hrest
          cases hrest.1
  · refine ⟨fun other => ?_, fun other id' => ?_, h.delete⟩
    · simp only [mem_add, h.present]
      constructor
      · rintro (⟨hdone, hne⟩ | rfl)
        · exact ⟨.inl hdone, hne⟩
        · exact ⟨.inr rfl, by simp [hid]⟩
      · rintro ⟨hdone | rfl, hne⟩
        · exact .inl ⟨hdone, hne⟩
        · exact .inr rfl
    · rcases hunchanged : isUnchanged (bucket.history key) id with - | -
      · simp only [hunchanged, Bool.false_eq_true, if_false, mem_set, h.restore]
        constructor
        · rintro (⟨rfl, rfl⟩ | ⟨-, hdone, hrest⟩)
          · exact ⟨.inr rfl, hid, hunchanged⟩
          · exact ⟨.inl hdone, hrest⟩
        · rintro ⟨hdone, hrest, hchanged⟩
          by_cases heq : other = key
          · subst heq
            rw [hid] at hrest
            cases hrest
            exact .inl ⟨rfl, rfl⟩
          · exact .inr ⟨heq, hdone.resolve_right heq, hrest, hchanged⟩
      · simp only [hunchanged, if_true, h.restore]
        constructor
        · exact fun ⟨hdone, hrest⟩ => ⟨.inl hdone, hrest⟩
        · rintro ⟨hdone | rfl, hrest, hchanged⟩
          · exact ⟨hdone, hrest, hchanged⟩
          · rw [hid] at hrest
            cases hrest
            rw [hunchanged] at hchanged
            cases hchanged

theorem Tracks.addMissing (h : Tracks bucket options done deletable plan)
    (hdelete : options.deleteMissing = true) {key : String} (hdone : done key) :
    Tracks bucket options done (fun other => deletable other ∨ other = key) (addMissing plan key) := by
  unfold BulkRestore.addMissing
  split_ifs with hpresent
  · rw [h.present] at hpresent
    refine ⟨h.present, h.restore, fun other => ?_⟩
    rw [h.delete]
    constructor
    · exact fun ⟨hflag, hdeletable, hnone⟩ => ⟨hflag, .inl hdeletable, hnone⟩
    · rintro ⟨hflag, hdeletable | rfl, hnone⟩
      · exact ⟨hflag, hdeletable, hnone⟩
      · exact absurd hnone hpresent.2
  · refine ⟨h.present, h.restore, fun other => ?_⟩
    simp only [mem_add, h.delete]
    have hnone : restorable options.targetTime (bucket.history key) = none := by
      by_contra hne
      exact hpresent ((h.present key).mpr ⟨hdone, hne⟩)
    constructor
    · rintro (⟨hflag, hdeletable, hother⟩ | rfl)
      · exact ⟨hflag, .inl hdeletable, hother⟩
      · exact ⟨hdelete, .inr rfl, hnone⟩
    · rintro ⟨hflag, hdeletable | rfl, hother⟩
      · exact .inl ⟨hflag, hdeletable, hother⟩
      · exact .inr rfl

/-- A step that adds to what is tracked, and the run of it over a list. -/
theorem Tracks.foldl {α : Type} {step : Plan → α → Plan} (adds may : α → String → Prop)
    (hstep : ∀ {done deletable plan}, Tracks bucket options done deletable plan → ∀ a,
      Tracks bucket options (fun key => done key ∨ adds a key)
        (fun key => deletable key ∨ may a key) (step plan a)) (l : List α) :
    ∀ {done deletable plan}, Tracks bucket options done deletable plan →
      Tracks bucket options (fun key => done key ∨ ∃ a ∈ l, adds a key)
        (fun key => deletable key ∨ ∃ a ∈ l, may a key) (l.foldl step plan) := by
  induction l with
  | nil => exact fun h => h.congr (by simp) (by simp)
  | cons a l ih =>
    intro done deletable plan h
    rw [List.foldl_cons]
    refine (ih (hstep h a)).congr (fun key => ?_) fun key => ?_
    · rw [List.exists_mem_cons_iff, or_assoc]
    · rw [List.exists_mem_cons_iff, or_assoc]

theorem Tracks.addMissing_foldl (hdelete : options.deleteMissing = true) (keys : List String) :
    ∀ {deletable plan}, Tracks bucket options done deletable plan → (∀ key ∈ keys, done key) →
      Tracks bucket options done (fun key => deletable key ∨ key ∈ keys)
        (keys.foldl BulkRestore.addMissing plan) := by
  induction keys with
  | nil => exact fun h _ => h.congr (by simp) (by simp)
  | cons key keys ih =>
    intro deletable plan h hdone
    rw [List.foldl_cons]
    refine (ih (h.addMissing hdelete (hdone key List.mem_cons_self))
      fun other hother => hdone other (List.mem_cons_of_mem _ hother)).congr (fun _ => Iff.rfl)
        fun other => ?_
    rw [List.mem_cons, or_assoc]

theorem Tracks.planFile (hmode : options.restoreLatestDeleted = false) (listings : Listings bucket)
    (h : Tracks bucket options done deletable plan) (key : String) :
    Tracks bucket options (fun other => done other ∨ other = key)
      (fun other => deletable other ∨ other = key)
      (planFile options listings.versionsForKey plan key) := by
  unfold BulkRestore.planFile
  simp only [versionsForKey_entries, hmode, Bool.not_false, Bool.true_and]
  have hclassified := h.classifyVersions hmode key
  split_ifs with hdelete
  · exact hclassified.addMissing hdelete (.inr rfl)
  · exact hclassified.of_not_deleteMissing (by simpa using hdelete)

/-- The key is in the folder and has a history. -/
def InFolder (bucket : VersionedBucket) (folder key : String) : Prop :=
  (normalizePrefix folder).toList <+: key.toList ∧ bucket.history key ≠ []

/-- The key is in the folder and shows an object now. -/
def ShownInFolder (bucket : VersionedBucket) (folder key : String) : Prop :=
  (normalizePrefix folder).toList <+: key.toList ∧ (bucket.current key).isSome

theorem ShownInFolder.inFolder {folder key : String} (h : ShownInFolder bucket folder key) :
    InFolder bucket folder key := by
  refine ⟨h.1, fun hempty => ?_⟩
  have hshown := h.2
  unfold VersionedBucket.current at hshown
  rw [hempty] at hshown
  cases hshown

theorem Tracks.planFolder (hmode : options.restoreLatestDeleted = false)
    (listings : Listings bucket) (h : Tracks bucket options done deletable plan) (folder : String) :
    Tracks bucket options (fun key => done key ∨ InFolder bucket folder key)
      (fun key => deletable key ∨ ShownInFolder bucket folder key)
      (planFolder options listings.versionsForPrefix listings.objects plan folder) := by
  unfold BulkRestore.planFolder
  simp only [hmode, Bool.not_false, Bool.true_and]
  set entries := (listings.versionsForPrefix (normalizePrefix folder)).versions ++
    (listings.versionsForPrefix (normalizePrefix folder)).deleteMarkers with hentries
  have hkey : ∀ key, (entries.filter fun entry => entry.key = key) =
      if (normalizePrefix folder).toList <+: key.toList then entriesOf (bucket.history key)
      else [] := fun key => versionsForPrefix_entries listings _ key
  have hkeys : ∀ key, key ∈ keysOf entries ↔ InFolder bucket folder key := by
    intro key
    have hfilter : key ∈ keysOf entries ↔ (entries.filter fun entry => entry.key = key) ≠ [] := by
      rw [mem_keysOf, Ne, List.filter_eq_nil_iff]
      simp
    rw [hfilter, hkey]
    unfold InFolder
    split_ifs with hstart
    · simp only [hstart, true_and, Ne, not_iff_not]
      rw [List.eq_nil_iff_forall_not_mem, List.eq_nil_iff_forall_not_mem]
      simp only [mem_entriesOf]
    · simp [hstart]
  have hfold : ∀ (keys : List String), (∀ key ∈ keys, InFolder bucket folder key) →
      ∀ {done plan}, Tracks bucket options done deletable plan →
        Tracks bucket options (fun key => done key ∨ key ∈ keys) deletable
          (keys.foldl (fun plan key => BulkRestore.classifyVersions options key
            (entries.filter fun entry => entry.key = key) plan) plan) := by
    intro keys
    induction keys with
    | nil => exact fun _ _ _ h => h.congr (by simp) (by simp)
    | cons key keys ih =>
      intro hin done plan h
      rw [List.foldl_cons, hkey, if_pos (hin key List.mem_cons_self).1]
      refine (ih (fun other hother => hin other (List.mem_cons_of_mem _ hother))
        (h.classifyVersions hmode key)).congr (fun other => ?_) fun _ => Iff.rfl
      rw [List.mem_cons, or_assoc]
  have hclassified : Tracks bucket options (fun key => done key ∨ InFolder bucket folder key)
      deletable _ :=
    (hfold (keysOf entries) (fun key => (hkeys key).mp) h).congr
      (fun key => by rw [hkeys]) fun _ => Iff.rfl
  split_ifs with hdelete
  · refine (hclassified.addMissing_foldl hdelete _ fun key hobject => ?_).congr (fun _ => Iff.rfl)
      fun key => ?_
    · exact .inr (ShownInFolder.inFolder ((listings.mem_objects _ key).mp hobject))
    · rw [listings.mem_objects]
      rfl
  · exact hclassified.of_not_deleteMissing (by simpa using hdelete)

/-- The keys that the plan may delete. -/
def Deletable (bucket : VersionedBucket) (items : List BrowserItem) (key : String) : Prop :=
  key ∈ keysOfType .file items ∨
    ∃ folder ∈ keysOfType .folder items, ShownInFolder bucket folder key

end BucketReef.BulkRestore

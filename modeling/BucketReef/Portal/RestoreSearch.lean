import BucketReef.Portal.DeletedObjects

/-!
# What is found to be restored

What the index of a folder selects, and what the search for one object finds, for a listing in S3 order
and any cut into pages.
-/

namespace BucketReef
namespace DeletedObjects

open Cleanup Lists Transitions Versions

/-! ## The tables -/

theorem find_insertVersion (table : List (String × String)) (row : String × String) (key : String) :
    (insertVersion table row).find? (fun old => old.1 = key) =
      (table.find? fun old => old.1 = key).or (if row.1 = key then some row else none) := by
  unfold insertVersion
  split
  · next hold =>
    split
    · next hkey =>
      obtain ⟨old, hin, hsame⟩ := List.any_eq_true.mp hold
      have hfound : (table.find? fun old => decide (old.1 = key)).isSome = true := by
        rw [List.find?_isSome]
        exact ⟨old, hin, by simpa [hkey] using hsame⟩
      rw [Option.or_of_isSome hfound]
    · rw [Option.or_none]
  · rw [List.find?_append]
    congr 1
    by_cases hkey : row.1 = key
    · simp [hkey]
    · simp [hkey]

theorem find_foldl_insertVersion (table rows : List (String × String)) (key : String) :
    (rows.foldl insertVersion table).find? (fun old => old.1 = key) =
      (table.find? fun old => old.1 = key).or (rows.find? fun old => old.1 = key) := by
  induction rows generalizing table with
  | nil => simp
  | cons row rows ih =>
    rw [List.foldl_cons, ih, find_insertVersion, Option.or_assoc]
    congr 1
    by_cases hkey : row.1 = key
    · simp [hkey]
    · simp [hkey]

theorem mem_foldl_insertDeleted {table rows : List String} {key : String} :
    key ∈ rows.foldl insertDeleted table ↔ key ∈ table ∨ key ∈ rows := by
  induction rows generalizing table with
  | nil => simp
  | cons row rows ih =>
    rw [List.foldl_cons, ih]
    have hmem : key ∈ insertDeleted table row ↔ key ∈ table ∨ key = row := by
      unfold insertDeleted
      split
      · next hold =>
        refine ⟨Or.inl, ?_⟩
        rintro (hkey | rfl)
        · exact hkey
        · exact hold
      · simp
    rw [hmem, List.mem_cons, or_assoc]

theorem nodup_foldl_insertDeleted {table rows : List String} (h : table.Nodup) :
    (rows.foldl insertDeleted table).Nodup := by
  induction rows generalizing table with
  | nil => exact h
  | cons row rows ih =>
    apply ih
    unfold insertDeleted
    split
    · exact h
    · next hnew => exact List.nodup_append.mpr ⟨h, by simp, by rintro x hx y hy rfl; simp_all⟩

/-! ## The index of a listing -/

/-- The object versions of the key, and its current delete marker. -/
def isVersionOf (key : String) (entry : Listed) : Bool := isOf key entry && !entry.isDeleteMarker

def isCurrentMarkerOf (key : String) (entry : Listed) : Bool :=
  isOf key entry && entry.isDeleteMarker && entry.raw.isLatest

/-- The row of an object version of the key. -/
def versionRowOf (key : String) (entry : Listed) : Option Identity :=
  if entry.isDeleteMarker then none
  else (entryIdentity entry).bind fun row => if row.1 = key then some row else none

/-- What the index gains from the entries. -/
structure Indexes (entries : List Listed) (store store' : ObjectRestoreStore) : Prop where
  latest : ∀ key, store'.latestVersions.find? (fun row => row.1 = key) =
    (store.latestVersions.find? fun row => row.1 = key).or (entries.findSome? (versionRowOf key))
  deleted : ∀ key, key ≠ "" → (key ∈ store'.deletedKeys ↔
    key ∈ store.deletedKeys ∨ entries.any (isCurrentMarkerOf key) = true)
  nodup : store.deletedKeys.Nodup → store'.deletedKeys.Nodup

theorem Indexes.trans {entries entries' : List Listed} {store store' store'' : ObjectRestoreStore}
    (h : Indexes entries store store') (h' : Indexes entries' store' store'') :
    Indexes (entries ++ entries') store store'' where
  latest key := by
    rw [h'.latest, h.latest, Option.or_assoc, List.findSome?_append]
  deleted key hkey := by
    rw [h'.deleted key hkey, h.deleted key hkey, List.any_append, Bool.or_eq_true, or_assoc]
  nodup hnodup := h'.nodup (h.nodup hnodup)

theorem find_versionRows (entries : List Listed) (key : String) :
    (((objects entries).map Listed.raw).filterMap rawIdentity).find? (fun row => row.1 = key) =
      entries.findSome? (versionRowOf key) := by
  induction entries with
  | nil => rfl
  | cons entry entries ih =>
    rw [List.findSome?_cons, ← ih]
    by_cases hmarker : entry.isDeleteMarker = true
    · simp [objects, versionRowOf, hmarker]
    · have hobjects : objects (entry :: entries) = entry :: objects entries :=
        List.filter_cons_of_pos (by simpa using hmarker)
      rw [hobjects, List.map_cons, List.filterMap_cons, versionRowOf, if_neg hmarker]
      cases hidentity : rawIdentity entry.raw with
      | none => simp only [entryIdentity, hidentity, Option.bind_none]
      | some identity =>
        simp only [entryIdentity, hidentity, Option.bind_some, List.find?_cons]
        by_cases hkey : identity.1 = key
        · simp only [hkey, decide_true, if_true]
        · simp only [hkey, decide_false, if_false]

theorem truthyKey_eq_some {raw : RawVersion} {key : String} :
    truthyKey raw = some key ↔ raw.key = some key ∧ key ≠ "" := by
  unfold truthyKey
  rw [Option.filter_eq_some_iff]
  simp

/-- The rows of the deleted keys of a page. -/
theorem mem_deletedRows {entries : List Listed} {key : String} :
    key ∈ ((((deleteMarkers entries).map Listed.raw).filter fun marker =>
        (truthyKey marker).isSome).filter fun marker => marker.isLatest).filterMap truthyKey ↔
      key ≠ "" ∧ entries.any (isCurrentMarkerOf key) = true := by
  rw [List.any_eq_true, List.mem_filterMap]
  constructor
  · rintro ⟨raw, hraw, hkey⟩
    obtain ⟨hin, hlatest⟩ := List.mem_filter.mp hraw
    obtain ⟨entry, hentry, rfl⟩ := List.mem_map.mp (List.mem_filter.mp hin).1
    obtain ⟨hlisted, hmarker⟩ := List.mem_filter.mp hentry
    obtain ⟨hname, hne⟩ := truthyKey_eq_some.mp hkey
    exact ⟨hne, entry, hlisted, by simp [isCurrentMarkerOf, isOf, entryKey, hname, hmarker, hlatest]⟩
  · rintro ⟨hne, entry, hlisted, hcurrent⟩
    simp only [isCurrentMarkerOf, Bool.and_eq_true] at hcurrent
    obtain ⟨⟨hname, hmarker⟩, hlatest⟩ := hcurrent
    have hkey := truthyKey_eq_some.mpr ⟨of_decide_eq_true hname, hne⟩
    refine ⟨entry.raw, List.mem_filter.mpr ⟨List.mem_filter.mpr ⟨?_, by rw [hkey]; rfl⟩, hlatest⟩, hkey⟩
    exact List.mem_map_of_mem (List.mem_filter.mpr ⟨hlisted, hmarker⟩)

theorem indexes_insertPage {page : VersionsPage} {chunk : List Listed} (h : page.toPage.Holds chunk)
    (store : ObjectRestoreStore) : Indexes chunk store (insertPage store page).1 where
  latest key := by
    show ((page.versions.filterMap rawIdentity).foldl insertVersion store.latestVersions).find? _ = _
    rw [find_foldl_insertVersion, h.1]
    congr 1
    exact find_versionRows chunk key
  deleted key hkey := by
    show key ∈ ((((page.deleteMarkers.filter _).filter _).filterMap truthyKey).foldl insertDeleted
      store.deletedKeys) ↔ _
    rw [mem_foldl_insertDeleted, h.2]
    exact or_congr Iff.rfl (mem_deletedRows.trans (and_iff_right hkey))
  nodup hnodup := nodup_foldl_insertDeleted hnodup

theorem scan_of_paged {entries : List Listed} {pages : List VersionsPage} (h : Paged entries pages)
    (store : ObjectRestoreStore) (counts : ScanCounts) :
    ∃ store' counts', scan store counts pages = some (store', counts') ∧
      Indexes entries store store' := by
  induction h generalizing store counts with
  | @last chunk page hholds hlast =>
    refine ⟨(insertPage store page).1,
      { versions := counts.versions + (insertPage store page).2.versions
        deleteMarkers := counts.deleteMarkers + (insertPage store page).2.deleteMarkers },
      ?_, indexes_insertPage hholds store⟩
    unfold scan
    dsimp only
    rw [if_pos (by simp [hlast])]
  | @more chunk rest page pages hholds hmore hmarker hpaged ih =>
    have hpage := indexes_insertPage hholds store
    obtain ⟨store', counts', hscan, hrest⟩ := ih (insertPage store page).1
      { versions := counts.versions + (insertPage store page).2.versions
        deleteMarkers := counts.deleteMarkers + (insertPage store page).2.deleteMarkers }
    refine ⟨store', counts', ?_, hpage.trans hrest⟩
    unfold scan
    dsimp only
    rw [if_neg (by simp [hmore, hmarker])]
    exact hscan

/-! ## The candidates -/

theorem mem_candidates {store : ObjectRestoreStore} {key versionId : String} :
    (key, versionId) ∈ candidates store ↔ key ∈ store.deletedKeys ∧
      ∃ row, (store.latestVersions.find? fun row => row.1 = key) = some row ∧ row.2 = versionId := by
  unfold candidates
  simp only [List.mem_filterMap, mem_sortedBy, Option.map_eq_some_iff, Prod.mk.injEq]
  constructor
  · rintro ⟨key', hkey', row, hrow, rfl, rfl⟩
    exact ⟨hkey', row, hrow, rfl⟩
  · rintro ⟨hkey, row, hrow, rfl⟩
    exact ⟨key, hkey, row, hrow, rfl, rfl⟩

theorem candidates_nodup {store : ObjectRestoreStore} (h : store.deletedKeys.Nodup) :
    ((candidates store).map Prod.fst).Nodup := by
  have hsub : ∀ keys : List String, ((keys.filterMap fun key =>
      (store.latestVersions.find? fun row => row.1 = key).map fun row => (key, row.2)).map
        Prod.fst).Sublist keys := by
    intro keys
    induction keys with
    | nil => exact List.Sublist.refl _
    | cons key keys ih =>
      rw [List.filterMap_cons]
      split
      · exact ih.cons key
      · next row hrow =>
        obtain ⟨_, -, rfl⟩ := Option.map_eq_some_iff.mp hrow
        exact ih.cons_cons key
  exact (((sortedBy_perm id store.deletedKeys).nodup_iff).mpr h).sublist (hsub _)

/-! ## S3 order -/

/-- Every entry has a key and a version id. -/
def Identified (entries : List Listed) : Prop := ∀ entry ∈ entries, (entryIdentity entry).isSome = true

/-- No entry stands behind another one of its key and is the latest. -/
def LatestFirst (entries : List Listed) : Prop :=
  entries.Pairwise fun a b => entryKey a = entryKey b → b.raw.isLatest = false

theorem pairwise_of_split {α : Type} {R : α → α → Prop} {l : List α}
    (h : ∀ front a back, l = front ++ a :: back → ∀ b ∈ front, R b a) : l.Pairwise R := by
  induction l with
  | nil => exact List.Pairwise.nil
  | cons x l ih =>
    refine List.pairwise_cons.mpr ⟨?_, ih ?_⟩
    · intro a ha
      obtain ⟨front, back, rfl⟩ := List.append_of_mem ha
      exact h (x :: front) a back rfl x List.mem_cons_self
    · intro front a back hl b hb
      exact h (x :: front) a back (by rw [hl]; rfl) b (List.mem_cons_of_mem x hb)

theorem latestFirst {bucket : List Listed} (h : S3Order bucket) : LatestFirst bucket := by
  apply pairwise_of_split
  intro front entry back hsplit other hother hkey
  by_contra hlatest
  exact (h.latest front entry back hsplit).mp (by simpa using hlatest) other hother hkey

theorem rawIdentity_some {raw : RawVersion} {identity : Identity} (h : rawIdentity raw = some identity) :
    raw.key = some identity.1 ∧ raw.versionId = some identity.2 ∧ identity.1 ≠ "" ∧
      identity.2 ≠ "" := by
  unfold rawIdentity at h
  split at h
  · next key versionId hkey hversion =>
    split at h
    · simp at h
    · next hne =>
      rw [not_or] at hne
      cases h
      exact ⟨hkey, hversion, hne.1, hne.2⟩
  · simp at h

/-- Where every entry is identified, the row of a key is that of its first object version. -/
theorem findSome_versionRowOf {entries : List Listed} (h : Identified entries) (key : String) :
    (entries.findSome? (versionRowOf key)).map Prod.snd = newestVersion entries key := by
  unfold newestVersion
  induction entries with
  | nil => rfl
  | cons entry entries ih =>
    have ih' := ih fun other hother => h other (List.mem_cons_of_mem entry hother)
    obtain ⟨identity, hidentity⟩ :=
      Option.isSome_iff_exists.mp (h entry List.mem_cons_self)
    obtain ⟨hname, hversion, -, -⟩ := rawIdentity_some hidentity
    rw [List.findSome?_cons, List.find?_cons]
    by_cases hmarker : entry.isDeleteMarker = true
    · simp only [versionRowOf, hmarker, if_true, Bool.not_true, Bool.and_false]
      exact ih'
    · rw [versionRowOf, if_neg hmarker, hidentity, Option.bind_some]
      by_cases hkey : identity.1 = key
      · have hfirst : (isOf key entry && !entry.isDeleteMarker) = true := by
          simp [isOf, entryKey, hname, hkey, hmarker]
        rw [if_pos hkey, hfirst]
        exact hversion.symm
      · have hskip : (isOf key entry && !entry.isDeleteMarker) = false := by
          simp [isOf, entryKey, hname, hkey]
        rw [if_neg hkey, hskip]
        exact ih'

/-- The key is among those a request for the prefix lists. -/
def hasPrefix (pre key : String) : Bool := pre.toList.isPrefixOf key.toList

theorem isOf_listed {pre key : String} {entry : Listed} (hpre : hasPrefix pre key = true)
    (h : isOf key entry = true) :
    ((entryKey entry).any fun key => (some pre).all fun pre => pre.toList.isPrefixOf key.toList) =
      true := by
  rw [isOf, decide_eq_true_eq] at h
  rw [h]
  exact hpre

theorem find_version_listing (bucket : List Listed) {pre key : String}
    (hpre : hasPrefix pre key = true) :
    (listing (some pre) bucket).find? (isVersionOf key) = bucket.find? (isVersionOf key) := by
  unfold listing
  rw [List.find?_filter]
  congr 1
  funext entry
  by_cases h : isOf key entry = true
  · rw [isOf_listed hpre h]
    simp
  · simp [isVersionOf, h]

theorem newestVersion_listing (bucket : List Listed) {pre key : String}
    (hpre : hasPrefix pre key = true) :
    newestVersion (listing (some pre) bucket) key = newestVersion bucket key :=
  congrArg (fun found : Option Listed => found.bind fun entry => entry.raw.versionId)
    (find_version_listing bucket hpre)

theorem any_currentMarker_listing (bucket : List Listed) (pre key : String) :
    (listing (some pre) bucket).any (isCurrentMarkerOf key) = true ↔
      hasPrefix pre key = true ∧ IsDeleted bucket key := by
  rw [List.any_eq_true]
  constructor
  · rintro ⟨entry, hentry, hcurrent⟩
    obtain ⟨hin, hlisted⟩ := List.mem_filter.mp hentry
    simp only [isCurrentMarkerOf, isOf, Bool.and_eq_true, decide_eq_true_eq] at hcurrent
    obtain ⟨⟨hkey, hmarker⟩, hlatest⟩ := hcurrent
    rw [hkey] at hlisted
    exact ⟨hlisted, entry, hin, hkey, hlatest, hmarker⟩
  · rintro ⟨hpre, entry, hin, hkey, hlatest, hmarker⟩
    refine ⟨entry, List.mem_filter.mpr ⟨hin, ?_⟩, ?_⟩
    · rw [hkey]
      exact hpre
    · simp [isCurrentMarkerOf, isOf, hkey, hlatest, hmarker]

theorem identified_listing {bucket : List Listed} (h : S3Order bucket) (pre : Option String) :
    Identified (listing pre bucket) := fun entry hentry =>
  h.identified entry (List.mem_filter.mp hentry).1

/-- The candidates are the deleted keys below the prefix that have an object version, each with its
newest one. -/
theorem mem_candidates_iff {bucket : List Listed} (hbucket : S3Order bucket) {pre : String}
    {store : ObjectRestoreStore} (h : Indexes (listing (some pre) bucket) {} store)
    {key versionId : String} :
    (key, versionId) ∈ candidates store ↔ hasPrefix pre key = true ∧ IsDeleted bucket key ∧
      newestVersion bucket key = some versionId := by
  have hlatest := h.latest key
  rw [List.find?_nil, Option.none_or] at hlatest
  have hnewest := findSome_versionRowOf (identified_listing hbucket (some pre)) key
  have hrow : (∃ row, (store.latestVersions.find? fun row => row.1 = key) = some row ∧
      row.2 = versionId) ↔ newestVersion (listing (some pre) bucket) key = some versionId := by
    rw [← hnewest, ← hlatest, Option.map_eq_some_iff]
  have hempty : key = "" → newestVersion (listing (some pre) bucket) key = none := by
    rintro rfl
    rw [← hnewest, Option.map_eq_none_iff, List.findSome?_eq_none_iff]
    intro entry hentry
    unfold versionRowOf
    split
    · rfl
    · rw [Option.bind_eq_none_iff]
      intro identity hidentity
      exact if_neg (rawIdentity_some hidentity).2.2.1
  rw [mem_candidates, hrow]
  by_cases hkey : key = ""
  · have hpreNewest := hempty hkey
    constructor
    · rintro ⟨-, hsome⟩
      rw [hpreNewest] at hsome
      simp at hsome
    · rintro ⟨hpre, -, hsome⟩
      rw [← newestVersion_listing bucket hpre, hpreNewest] at hsome
      simp at hsome
  · rw [h.deleted key hkey, any_currentMarker_listing]
    constructor
    · rintro ⟨hin | ⟨hpre, hdeleted⟩, hsome⟩
      · simp at hin
      · exact ⟨hpre, hdeleted, by rwa [newestVersion_listing bucket hpre] at hsome⟩
    · rintro ⟨hpre, hdeleted, hsome⟩
      exact ⟨Or.inr ⟨hpre, hdeleted⟩, by rwa [newestVersion_listing bucket hpre]⟩

/-! ## The search for one object -/

/-- No object version of the key is dated after the one listed first. -/
def DatedNewest (bucket : List Listed) (key : String) : Prop :=
  ∀ first, bucket.find? (isVersionOf key) = some first → ∀ entry ∈ bucket,
    isVersionOf key entry = true → earlier first.raw.lastModified entry.raw.lastModified = false

theorem DatedNewest.front {front back : List Listed} {key : String}
    (h : DatedNewest (front ++ back) key) : DatedNewest front key := by
  intro first hfirst entry hentry hversion
  refine h first ?_ entry (List.mem_append_left back hentry) hversion
  rw [List.find?_append, hfirst]
  rfl

theorem DatedNewest.back {front back : List Listed} {key : String}
    (h : DatedNewest (front ++ back) key) (hnone : front.find? (isVersionOf key) = none) :
    DatedNewest back key := by
  intro first hfirst entry hentry hversion
  refine h first ?_ entry (List.mem_append_right front hentry) hversion
  rw [List.find?_append, hnone, Option.none_or, hfirst]

theorem mem_listing_of_version {bucket : List Listed} {key : String} {entry : Listed}
    (hin : entry ∈ bucket) (hversion : isVersionOf key entry = true) :
    entry ∈ listing (some key) bucket := by
  rw [isVersionOf, Bool.and_eq_true] at hversion
  have hown : hasPrefix key key = true := by simp [hasPrefix]
  exact List.mem_filter.mpr ⟨hin, isOf_listed hown hversion.1⟩

/-- The dates of a key are those of its own listing. -/
theorem datedNewest_listing (bucket : List Listed) (key : String) :
    DatedNewest (listing (some key) bucket) key ↔ DatedNewest bucket key := by
  unfold DatedNewest
  rw [find_version_listing bucket (by simp [hasPrefix])]
  refine forall_congr' fun first => imp_congr_right fun _ => ?_
  constructor
  · exact fun h entry hin hversion => h entry (mem_listing_of_version hin hversion) hversion
  · exact fun h entry hin => h entry (List.mem_filter.mp hin).1

theorem latestModified_first {first : RawVersion} {others : List RawVersion}
    (h : ∀ other ∈ others, earlier first.lastModified other.lastModified = false) :
    latestModified first others = first := by
  unfold latestModified
  induction others with
  | nil => rfl
  | cons other others ih =>
    rw [List.foldl_cons, if_neg (by simp [h other List.mem_cons_self])]
    exact ih fun x hx => h x (List.mem_cons_of_mem other hx)

theorem latestModified_cons (first other : RawVersion) (others : List RawVersion) :
    latestModified first (other :: others) =
      latestModified (if earlier first.lastModified other.lastModified then other else first) others :=
  rfl

theorem latestModified_mem (first : RawVersion) (others : List RawVersion) :
    latestModified first others ∈ first :: others := by
  induction others generalizing first with
  | nil => exact List.mem_cons_self
  | cons other others ih =>
    rw [latestModified_cons]
    split
    · exact List.mem_cons_of_mem first (ih other)
    · rcases List.mem_cons.mp (ih first) with heq | hin
      · rw [heq]
        exact List.mem_cons_self
      · exact List.mem_cons_of_mem first (List.mem_cons_of_mem other hin)

theorem not_earlier_trans {a b c : Option ℤ} (h : earlier b a = false) (h' : earlier c b = false) :
    earlier c a = false := by
  cases a <;> cases b <;> cases c <;> simp_all [earlier]
  omega

theorem not_earlier_of_earlier {a b : Option ℤ} (h : earlier a b = true) : earlier b a = false := by
  cases a <;> cases b <;> simp_all [earlier]
  omega

theorem not_earlier_self (a : Option ℤ) : earlier a a = false := by
  cases a <;> simp [earlier]

theorem not_earlier_latestModified (first : RawVersion) (others : List RawVersion) :
    ∀ other ∈ first :: others,
      earlier (latestModified first others).lastModified other.lastModified = false := by
  induction others generalizing first with
  | nil =>
    intro other hother
    rw [List.mem_singleton.mp hother]
    exact not_earlier_self _
  | cons next others ih =>
    intro other hother
    rw [latestModified_cons]
    split
    · next hearlier =>
      rcases List.mem_cons.mp hother with rfl | hin
      · exact not_earlier_trans (not_earlier_of_earlier hearlier) (ih next next List.mem_cons_self)
      · exact ih next other hin
    · next hlate =>
      rcases List.mem_cons.mp hother with rfl | hin
      · exact ih other other List.mem_cons_self
      rcases List.mem_cons.mp hin with rfl | hin
      · exact not_earlier_trans (by simpa using hlate) (ih first first List.mem_cons_self)
      · exact ih first other (List.mem_cons_of_mem first hin)

theorem exactVersions_of_holds {page : VersionsPage} {chunk : List Listed}
    (h : page.toPage.Holds chunk) (hchunk : Identified chunk) (key : String) :
    exactVersions key page = (chunk.filter (isVersionOf key)).map Listed.raw := by
  unfold exactVersions
  rw [h.1, List.filter_map, List.filter_filter]
  congr 1
  apply List.filter_congr
  intro entry hentry
  obtain ⟨identity, hidentity⟩ := Option.isSome_iff_exists.mp (hchunk entry hentry)
  obtain ⟨-, hversion, -, hne⟩ := rawIdentity_some hidentity
  by_cases hkey : entry.raw.key = some key
  · simp [isVersionOf, isOf, entryKey, hversion, hne, hkey]
  · simp [isVersionOf, isOf, entryKey, hkey]

theorem exactMarkers_of_holds {page : VersionsPage} {chunk : List Listed}
    (h : page.toPage.Holds chunk) (key : String) :
    (exactMarkers key page).any (fun marker => marker.isLatest) =
      chunk.any (isCurrentMarkerOf key) := by
  unfold exactMarkers
  rw [h.2, List.any_filter, List.any_map, List.any_filter]
  congr 1
  funext entry
  by_cases hkey : entry.raw.key = some key
  · simp [isCurrentMarkerOf, isOf, entryKey, hkey]
  · simp [isCurrentMarkerOf, isOf, entryKey, hkey]

/-- The object versions of a page as entries of the listing. -/
theorem versions_of_chunk {chunk : List Listed} {key : String} {first : RawVersion}
    {others : List RawVersion}
    (h : (chunk.filter (isVersionOf key)).map Listed.raw = first :: others) :
    ∃ entry, chunk.find? (isVersionOf key) = some entry ∧ entry.raw = first ∧
      ∀ raw, raw ∈ first :: others ↔ ∃ other ∈ chunk, isVersionOf key other = true ∧ other.raw = raw := by
  obtain ⟨entry, rest, hfilter, rfl, rfl⟩ := List.map_eq_cons_iff.mp h
  refine ⟨entry, ?_, rfl, fun raw => ?_⟩
  · rw [← List.head?_filter, hfilter]
    rfl
  · rw [← h, List.mem_map]
    simp only [List.mem_filter, and_assoc]

/-- The first object version of a page is its latest one. -/
theorem latest_of_chunk {chunk : List Listed} {key : String} (hdate : DatedNewest chunk key)
    {first : RawVersion} {others : List RawVersion}
    (h : (chunk.filter (isVersionOf key)).map Listed.raw = first :: others) :
    ∃ entry, chunk.find? (isVersionOf key) = some entry ∧ entry.raw = first ∧
      latestModified first others = first := by
  obtain ⟨entry, hfirst, rfl, hversions⟩ := versions_of_chunk h
  refine ⟨entry, hfirst, rfl, latestModified_first fun raw hraw => ?_⟩
  obtain ⟨other, hother, hversion, rfl⟩ :=
    (hversions raw).mp (List.mem_cons_of_mem entry.raw hraw)
  exact hdate entry hfirst other hother hversion

/-- What the search answers for the entries. -/
def searched (key : String) (currentIsDeleted : Bool) (entries : List Listed) :
    Except String (Option String) :=
  if currentIsDeleted || entries.any (isCurrentMarkerOf key) then
    match entries.find? (isVersionOf key) with
    | some entry => .ok entry.raw.versionId
    | none => .error (noRestorable key)
  else .error (notInTrash key)

theorem isOf_of_isVersionOf {key : String} {entry : Listed} (h : isVersionOf key entry = true) :
    entryKey entry = some key := by
  simp only [isVersionOf, isOf, Bool.and_eq_true, decide_eq_true_eq] at h
  exact h.1

theorem isOf_of_isCurrentMarkerOf {key : String} {entry : Listed}
    (h : isCurrentMarkerOf key entry = true) :
    entryKey entry = some key ∧ entry.raw.isLatest = true := by
  simp only [isCurrentMarkerOf, isOf, Bool.and_eq_true, decide_eq_true_eq] at h
  exact ⟨h.1.1, h.2⟩

/-- Behind an entry of the key there is no current marker of it. -/
theorem no_marker_behind {front back : List Listed} (h : LatestFirst (front ++ back)) {key : String}
    {entry : Listed} (hentry : entry ∈ front) (hkey : entryKey entry = some key) :
    back.any (isCurrentMarkerOf key) = false := by
  rw [List.any_eq_false]
  intro marker hmarker hcurrent
  obtain ⟨hname, hlatest⟩ := isOf_of_isCurrentMarkerOf hcurrent
  have hfirst := (List.pairwise_append.mp h).2.2 entry hentry marker hmarker (hkey.trans hname.symm)
  rw [hlatest] at hfirst
  simp at hfirst

theorem no_version_of_stop {chunk : List Listed} {key : String}
    (h : ∀ first others, (chunk.filter (isVersionOf key)).map Listed.raw = first :: others → False) :
    chunk.find? (isVersionOf key) = none := by
  rw [← List.head?_filter, List.head?_eq_none_iff]
  cases hversions : chunk.filter (isVersionOf key) with
  | nil => rfl
  | cons entry rest => exact (h entry.raw (rest.map Listed.raw) (by rw [hversions]; rfl)).elim

theorem identity_congr {entry entry' : Listed} (hkey : entryKey entry = entryKey entry')
    (hversion : entry.raw.versionId = entry'.raw.versionId) :
    entryIdentity entry = entryIdentity entry' := by
  unfold entryIdentity rawIdentity
  unfold entryKey at hkey
  rw [hkey, hversion]

/-- Without a current marker the key is not in the trash, whatever its versions. -/
theorem searchPages_of_no_marker {entries : List Listed} {pages : List VersionsPage}
    (h : Paged entries pages) {key : String}
    (hnone : entries.any (isCurrentMarkerOf key) = false) :
    searchPages key false pages = some (.error (notInTrash key)) := by
  induction h with
  | @last chunk page hholds hlast =>
    unfold searchPages
    dsimp only
    rw [exactMarkers_of_holds hholds, hnone]
    simp [hlast]
  | @more chunk rest page pages hholds hmore hmarker hpaged ih =>
    rw [List.any_append, Bool.or_eq_false_iff] at hnone
    unfold searchPages
    dsimp only
    rw [exactMarkers_of_holds hholds, hnone.1]
    simpa [hmore, hmarker] using ih hnone.2

theorem searchPages_of_paged {entries : List Listed} {pages : List VersionsPage}
    (h : Paged entries pages) (key : String) (hentries : Identified entries)
    (hdate : DatedNewest entries key) (hlatest : LatestFirst entries) (currentIsDeleted : Bool) :
    searchPages key currentIsDeleted pages = some (searched key currentIsDeleted entries) := by
  induction h generalizing currentIsDeleted with
  | @last chunk page hholds hlast =>
    unfold searchPages searched
    dsimp only
    rw [exactMarkers_of_holds hholds, exactVersions_of_holds hholds hentries]
    split
    · next first others hdeleted hversions =>
      obtain ⟨entry, hfind, hraw, hfirst⟩ := latest_of_chunk hdate hversions
      rw [if_pos hdeleted, hfind, hfirst, ← hraw]
    · next hstop =>
      rw [if_pos (by simp [hlast])]
      cases hdeleted : currentIsDeleted || chunk.any (isCurrentMarkerOf key) with
      | false => rfl
      | true =>
        have hnone := @no_version_of_stop chunk key fun first others hversions =>
          hstop first others hdeleted hversions
        simp [hnone]
  | @more chunk rest page pages hholds hmore hmarker hpaged ih =>
    have hchunk : Identified chunk := fun entry hin => hentries entry (List.mem_append_left _ hin)
    have hrest : DatedNewest rest key → ∀ deleted,
        searchPages key deleted pages = some (searched key deleted rest) := fun hdate =>
      ih (fun entry hin => hentries entry (List.mem_append_right _ hin)) hdate
        (List.pairwise_append.mp hlatest).2.1
    unfold searchPages
    dsimp only
    rw [exactMarkers_of_holds hholds, exactVersions_of_holds hholds hchunk]
    split
    · next first others hdeleted hversions =>
      obtain ⟨entry, hfind, hraw, hfirst⟩ := latest_of_chunk hdate.front hversions
      unfold searched
      rw [List.any_append, ← Bool.or_assoc, hdeleted, List.find?_append, hfind, hfirst, ← hraw]
      rfl
    · next hstop =>
      rw [if_neg (by simp [hmore, hmarker])]
      cases hdeleted : currentIsDeleted || chunk.any (isCurrentMarkerOf key) with
      | true =>
        have hnone := @no_version_of_stop chunk key fun first others hversions =>
          hstop first others hdeleted hversions
        rw [hrest (hdate.back hnone)]
        unfold searched
        rw [List.any_append, ← Bool.or_assoc, hdeleted, List.find?_append, hnone, Option.none_or]
      | false =>
        rw [Bool.or_eq_false_iff] at hdeleted
        unfold searched
        rw [List.any_append, hdeleted.1, hdeleted.2, Bool.false_or, Bool.false_or,
          List.find?_append]
        cases hfind : chunk.find? (isVersionOf key) with
        | none => rw [hrest (hdate.back hfind), Option.none_or, searched, Bool.false_or]
        | some entry =>
          -- a version stands in front, so that no current marker follows
          have hclear := no_marker_behind hlatest (List.mem_of_find?_eq_some hfind)
            (isOf_of_isVersionOf (List.find?_some hfind))
          rw [searchPages_of_no_marker hpaged hclear, hclear]
          rfl

/-! ## A page with the whole listing -/

def wholePage (entries : List Listed) : VersionsPage where
  versions := (objects entries).map Listed.raw
  deleteMarkers := (deleteMarkers entries).map Listed.raw
  nextKeyMarker := none
  nextVersionIdMarker := none
  isTruncated := false

theorem paged_wholePage (entries : List Listed) : Paged entries [wholePage entries] :=
  .last ⟨rfl, rfl⟩ rfl

/-- The search in the whole listing of a deleted key finds the newest version only if no other one is
dated after it. -/
theorem datedNewest_of_search {entries : List Listed} {key : String} {first : Listed}
    (hentries : Identified entries) (hdistinct : (entries.map entryIdentity).Nodup)
    (hdeleted : entries.any (isCurrentMarkerOf key) = true)
    (hfirst : entries.find? (isVersionOf key) = some first)
    (h : latestRestorableVersion key [wholePage entries] = some (.ok first.raw.versionId)) :
    DatedNewest entries key := by
  have hholds : (wholePage entries).toPage.Holds entries := ⟨rfl, rfl⟩
  unfold latestRestorableVersion searchPages at h
  dsimp only at h
  rw [exactMarkers_of_holds hholds, exactVersions_of_holds hholds hentries, hdeleted,
    Bool.or_true] at h
  cases hversions : (entries.filter (isVersionOf key)).map Listed.raw with
  | nil =>
    rw [List.map_eq_nil_iff, List.filter_eq_nil_iff] at hversions
    exact absurd (List.find?_some hfirst) (hversions first (List.mem_of_find?_eq_some hfirst))
  | cons raw others =>
    obtain ⟨entry, hfind, rfl, hmem⟩ := versions_of_chunk hversions
    rw [hfind, Option.some.injEq] at hfirst
    subst hfirst
    rw [hversions] at h
    simp only [Option.some.injEq, Except.ok.injEq] at h
    obtain ⟨latest, hlatest, hversion, hraw⟩ :=
      (hmem _).mp (latestModified_mem entry.raw others)
    have heq : latest = entry := by
      have hin := List.mem_of_find?_eq_some hfind
      refine List.inj_on_of_nodup_map hdistinct hlatest hin ?_
      exact identity_congr ((isOf_of_isVersionOf hversion).trans
        (isOf_of_isVersionOf (List.find?_some hfind)).symm) (hraw ▸ h)
    intro other hother listed hlisted hlistedVersion
    rw [hfind, Option.some.injEq] at hother
    subst hother
    rw [← heq, hraw]
    exact not_earlier_latestModified entry.raw others _ ((hmem _).mpr ⟨listed, hlisted,
      hlistedVersion, rfl⟩)

end DeletedObjects
end BucketReef

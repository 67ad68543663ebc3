import BucketReef.Versions.Grouping

/-!
# Timelines do not depend on the pages

A listing may hold entries the iterator drops, and is cut into pages anywhere. The arrival index of an
entry depends on the cut, because a page lists its object versions before its delete markers; the order
of two entries of one kind does not, and the index only decides between such entries.
-/

namespace BucketReef
namespace Versions

open Lists

/-- An entry of a listing, with the array its page puts it in. -/
structure Listed where
  isDeleteMarker : Bool
  raw : RawVersion
  deriving DecidableEq, Repr

/-- The entry without its arrival index. -/
def erase (entry : BucketVersionEntry) : BucketVersionEntry := { entry with orderIndex := 0 }

def Listed.version (listed : Listed) : Option BucketVersionEntry :=
  versionEntryFromRaw listed.raw listed.isDeleteMarker 0

/-- The entries the iterator keeps, in the order of the listing. -/
def validEntries (listing : List Listed) : List BucketVersionEntry := listing.filterMap Listed.version

def Page.Holds (page : Page) (chunk : List Listed) : Prop :=
  page.versions = (chunk.filter fun listed => !listed.isDeleteMarker).map Listed.raw ∧
    page.deleteMarkers = (chunk.filter fun listed => listed.isDeleteMarker).map Listed.raw

/-- The listing cut into pages; every page but the last carries a marker for the next request. -/
inductive Split : List Listed → List Page → Prop
  | last {chunk : List Listed} {page : Page} : page.Holds chunk → page.isLast = true → Split chunk [page]
  | more {chunk rest : List Listed} {page : Page} {pages : List Page} :
      page.Holds chunk → page.isLast = false → Split rest pages → Split (chunk ++ rest) (page :: pages)

/-! ## Arrival -/

/-- Consecutive arrival indices from `orderIndex`. -/
def indexed (orderIndex : ℕ) : List BucketVersionEntry → List BucketVersionEntry
  | [] => []
  | entry :: rest => { entry with orderIndex := orderIndex } :: indexed (orderIndex + 1) rest

theorem indexed_append (orderIndex : ℕ) (xs ys : List BucketVersionEntry) :
    indexed orderIndex (xs ++ ys) = indexed orderIndex xs ++ indexed (orderIndex + xs.length) ys := by
  induction xs generalizing orderIndex with
  | nil => rfl
  | cons entry rest ih =>
    simp only [List.cons_append, indexed, ih, List.length_cons]
    rw [Nat.add_right_comm, Nat.add_assoc]

theorem map_erase_indexed (orderIndex : ℕ) (l : List BucketVersionEntry) :
    (indexed orderIndex l).map erase = l.map erase := by
  induction l generalizing orderIndex with
  | nil => rfl
  | cons entry rest ih => rw [indexed, List.map_cons, List.map_cons, ih, erase, erase]

theorem mem_indexed {orderIndex : ℕ} {l : List BucketVersionEntry} {entry : BucketVersionEntry}
    (h : entry ∈ indexed orderIndex l) : orderIndex ≤ entry.orderIndex ∧ ∃ old ∈ l, old.key = entry.key := by
  induction l generalizing orderIndex with
  | nil => cases h
  | cons head rest ih =>
    rcases List.mem_cons.mp h with rfl | h
    · exact ⟨le_rfl, head, by simp, rfl⟩
    · obtain ⟨hle, old, hold, hkey⟩ := ih h
      exact ⟨by omega, old, by simp [hold], hkey⟩

theorem indexed_increasing (orderIndex : ℕ) (l : List BucketVersionEntry) :
    (indexed orderIndex l).Pairwise fun a b => a.orderIndex < b.orderIndex := by
  induction l generalizing orderIndex with
  | nil => exact List.Pairwise.nil
  | cons entry rest ih =>
    refine List.pairwise_cons.mpr ⟨?_, ih _⟩
    intro b hb
    exact Nat.lt_of_succ_le (mem_indexed hb).1

theorem versionEntryFromRaw_index (raw : RawVersion) (isDeleteMarker : Bool) (orderIndex : ℕ) :
    versionEntryFromRaw raw isDeleteMarker orderIndex =
      (versionEntryFromRaw raw isDeleteMarker 0).map fun entry =>
        { entry with orderIndex := orderIndex } := by
  unfold versionEntryFromRaw
  split
  · split <;> rfl
  · rfl

theorem version_kind {listed : Listed} {entry : BucketVersionEntry} (h : listed.version = some entry) :
    entry.isDeleteMarker = listed.isDeleteMarker := by
  unfold Listed.version versionEntryFromRaw at h
  split at h
  · split at h
    · cases h
    · cases h
      rfl
  · cases h

theorem collectionEntries_eq {isDeleteMarker : Bool} {l : List Listed}
    (h : ∀ listed ∈ l, listed.isDeleteMarker = isDeleteMarker) (orderIndex : ℕ) :
    collectionEntries isDeleteMarker (l.map Listed.raw) orderIndex =
      (indexed orderIndex (validEntries l), orderIndex + (validEntries l).length) := by
  induction l generalizing orderIndex with
  | nil => rfl
  | cons listed rest ih =>
    have hkind : listed.isDeleteMarker = isDeleteMarker := h listed (by simp)
    have hrest := ih fun other hother => h other (by simp [hother])
    subst hkind
    rw [List.map_cons, collectionEntries, versionEntryFromRaw_index]
    cases hversion : listed.version with
    | none =>
      rw [show versionEntryFromRaw listed.raw listed.isDeleteMarker 0 = none from hversion]
      simp only [Option.map_none, hrest, validEntries, List.filterMap_cons, hversion]
    | some entry =>
      rw [show versionEntryFromRaw listed.raw listed.isDeleteMarker 0 = some entry from hversion]
      simp only [Option.map_some, hrest, validEntries, List.filterMap_cons, hversion, indexed,
        List.length_cons]
      rw [Nat.add_right_comm, Nat.add_assoc]

/-- The entries of a page in the order it lists them: objects, then markers. -/
def arrayEntries (chunk : List Listed) : List BucketVersionEntry :=
  validEntries (chunk.filter fun listed => !listed.isDeleteMarker) ++
    validEntries (chunk.filter fun listed => listed.isDeleteMarker)

theorem pageVersionEntries_of_holds {page : Page} {chunk : List Listed} (h : page.Holds chunk)
    (orderIndex : ℕ) : pageVersionEntries page orderIndex =
      (indexed orderIndex (arrayEntries chunk), orderIndex + (arrayEntries chunk).length) := by
  have hobjects := @collectionEntries_eq false (chunk.filter fun listed => !listed.isDeleteMarker)
    (by simp) orderIndex
  have hmarkers := @collectionEntries_eq true (chunk.filter fun listed => listed.isDeleteMarker)
    (by simp) (orderIndex +
      (validEntries (chunk.filter fun listed => !listed.isDeleteMarker)).length)
  simp only [pageVersionEntries, h.1, h.2, hobjects, hmarkers, arrayEntries, indexed_append,
    List.length_append, Prod.mk.injEq, true_and]
  omega

/-- The entries of one kind. -/
def ofKind (kind : Bool) (entries : List BucketVersionEntry) : List BucketVersionEntry :=
  entries.filter fun entry => entry.isDeleteMarker = kind

theorem ofKind_validEntries (kind : Bool) (listing : List Listed) :
    ofKind kind (validEntries listing) =
      validEntries (listing.filter fun listed => listed.isDeleteMarker = kind) := by
  induction listing with
  | nil => rfl
  | cons listed rest ih =>
    by_cases hkind : listed.isDeleteMarker = kind
    · rw [List.filter_cons_of_pos (by simpa using hkind)]
      cases hversion : listed.version with
      | none => simpa [validEntries, hversion] using ih
      | some entry =>
        have hentry : entry.isDeleteMarker = kind := (version_kind hversion).trans hkind
        simpa [validEntries, hversion, ofKind, hentry] using ih
    · rw [List.filter_cons_of_neg (by simpa using hkind)]
      cases hversion : listed.version with
      | none => simpa [validEntries, hversion] using ih
      | some entry =>
        have hentry : entry.isDeleteMarker ≠ kind := fun h => hkind ((version_kind hversion).symm.trans h)
        simpa [validEntries, hversion, ofKind, hentry] using ih

/-- Splitting a page into its arrays keeps the order within each kind. -/
theorem ofKind_arrayEntries (kind : Bool) (chunk : List Listed) :
    ofKind kind (arrayEntries chunk) = ofKind kind (validEntries chunk) := by
  have hsplit : ofKind kind (arrayEntries chunk) =
      ofKind kind (validEntries (chunk.filter fun listed => !listed.isDeleteMarker)) ++
        ofKind kind (validEntries (chunk.filter fun listed => listed.isDeleteMarker)) :=
    List.filter_append ..
  rw [hsplit, ofKind_validEntries, ofKind_validEntries, ofKind_validEntries, List.filter_filter,
    List.filter_filter]
  cases kind <;> simp [validEntries]

theorem mem_of_ofKind_eq {xs ys : List BucketVersionEntry} (h : ∀ kind, ofKind kind xs = ofKind kind ys)
    {entry : BucketVersionEntry} : entry ∈ xs ↔ entry ∈ ys := by
  have hmem := congrArg (entry ∈ ·) (h entry.isDeleteMarker)
  simpa [ofKind] using hmem

/-! ## A whole listing -/

theorem validEntries_append (xs ys : List Listed) :
    validEntries (xs ++ ys) = validEntries xs ++ validEntries ys := List.filterMap_append ..

theorem ofKind_append (kind : Bool) (xs ys : List BucketVersionEntry) :
    ofKind kind (xs ++ ys) = ofKind kind xs ++ ofKind kind ys := List.filter_append ..

/-- The iterator ends, and yields the timelines of the valid entries, indexed in some arrival order that
keeps the order of the listing within each kind. -/
theorem scanPages_of_split {listing : List Listed} {pages : List Page} (hsplit : Split listing pages)
    {seen : List BucketVersionEntry} {scan : TimelineScan}
    (hkeys : (validEntries listing).Pairwise fun a b => a.key ≤ b.key) (hgrouped : Grouped seen scan)
    (horder : ∀ old ∈ seen, ∀ entry ∈ validEntries listing, old.key ≤ entry.key) :
    ∃ arrival grouped timelines,
      (∀ kind, ofKind kind arrival = ofKind kind (validEntries listing)) ∧
      grouped.Perm (indexed scan.orderIndex arrival) ∧
      scanPages pages scan = .ok timelines ∧ YieldsTimelines (seen ++ grouped) timelines := by
  induction hsplit generalizing seen scan with
  | @last chunk page hholds hlast =>
    have hentries := pageVersionEntries_of_holds hholds scan.orderIndex
    have hpage := hgrouped.scanPage (p := page) (by
      intro old hold entry hentry
      rw [hentries] at hentry
      obtain ⟨-, listed, hlisted, hkey⟩ := mem_indexed hentry
      rw [← hkey]
      exact horder old hold listed ((mem_of_ofKind_eq fun kind => ofKind_arrayEntries kind chunk).mp
        hlisted))
    refine ⟨arrayEntries chunk, _, _, fun kind => ofKind_arrayEntries kind chunk, ?_, ?_, hpage.flush⟩
    · rw [hentries]
      exact sortedBy_perm _ _
    · simp [scanPages, hlast]
  | @more chunk rest page pages hholds hmore hsplit ih =>
    rw [validEntries_append] at hkeys horder
    obtain ⟨hchunk, hrest, hcross⟩ := List.pairwise_append.mp hkeys
    have harray {entry : BucketVersionEntry} : entry ∈ arrayEntries chunk ↔ entry ∈ validEntries chunk :=
      mem_of_ofKind_eq fun kind => ofKind_arrayEntries kind chunk
    have hentries := pageVersionEntries_of_holds hholds scan.orderIndex
    have hpage := hgrouped.scanPage (p := page) (by
      intro old hold entry hentry
      rw [hentries] at hentry
      obtain ⟨-, listed, hlisted, hkey⟩ := mem_indexed hentry
      rw [← hkey]
      exact horder old hold listed (List.mem_append_left _ (harray.mp hlisted)))
    have hindex : (scanPage scan page).orderIndex = scan.orderIndex + (arrayEntries chunk).length := by
      rw [scanPage_orderIndex, hentries]
    obtain ⟨arrival, grouped, timelines, harrival, hperm, hscan, hyields⟩ := ih hrest hpage (by
      intro old hold entry hentry
      rcases List.mem_append.mp hold with hin | hin
      · exact horder old hin entry (List.mem_append_right _ hentry)
      · rw [hentries] at hin
        obtain ⟨-, listed, hlisted, hkey⟩ := mem_indexed (mem_sortedBy.mp hin)
        rw [← hkey]
        exact hcross listed (harray.mp hlisted) entry hentry)
    refine ⟨arrayEntries chunk ++ arrival,
      sortedBy versionGroupSortKey (pageVersionEntries page scan.orderIndex).1 ++ grouped, timelines,
      ?_, ?_, ?_, ?_⟩
    · intro kind
      rw [ofKind_append, validEntries_append, ofKind_append, ofKind_arrayEntries, harrival]
    · rw [indexed_append, ← hindex, hentries]
      exact (sortedBy_perm _ _).append hperm
    · simpa [scanPages, hmore] using hscan
    · simpa using hyields

/-! ## One timeline -/

/-- What an entry sorts by before the arrival index decides. -/
def replayClass (entry : BucketVersionEntry) : ℤ ×ₗ ℕ :=
  toLex (normalizeDatetime entry.lastModified, if entry.isDeleteMarker then 1 else 0)

@[simp] theorem erase_key (entry : BucketVersionEntry) : (erase entry).key = entry.key := rfl

@[simp] theorem replayClass_erase (entry : BucketVersionEntry) :
    replayClass (erase entry) = replayClass entry := rfl

theorem replayClass_le {a b : BucketVersionEntry} (h : versionReplaySortKey a ≤ versionReplaySortKey b) :
    replayClass a ≤ replayClass b ∧ (replayClass a = replayClass b → b.orderIndex ≤ a.orderIndex) := by
  unfold versionReplaySortKey at h
  unfold replayClass
  rw [Prod.Lex.toLex_le_toLex] at h ⊢
  rw [Prod.Lex.toLex_le_toLex] at h
  refine ⟨h.imp_right fun h => ⟨h.1, h.2.elim le_of_lt fun h => h.1.le⟩, ?_⟩
  intro hclass
  obtain ⟨htime, hflag⟩ := Prod.mk.inj (toLex.injective hclass)
  rcases h with hlt | ⟨-, hlt | ⟨-, hindex⟩⟩
  · exact absurd htime hlt.ne
  · exact absurd hflag hlt.ne
  · omega

theorem indexed_inj {orderIndex : ℕ} {l : List BucketVersionEntry} {a b : BucketVersionEntry}
    (ha : a ∈ indexed orderIndex l) (hb : b ∈ indexed orderIndex l) (h : a.orderIndex = b.orderIndex) :
    a = b := by
  have hnodup : ((indexed orderIndex l).map BucketVersionEntry.orderIndex).Nodup :=
    List.pairwise_map.mpr ((indexed_increasing orderIndex l).imp ne_of_lt)
  exact List.inj_on_of_nodup_map hnodup ha hb h

/-- The entries of one class stand in a timeline in the reverse of their arrival. -/
theorem timelineOf_filter {entries arrival : List BucketVersionEntry} {orderIndex : ℕ} (key : String)
    (hperm : entries.Perm (indexed orderIndex arrival)) (c : ℤ ×ₗ ℕ) :
    ((timelineOf key entries).filter fun entry => replayClass entry = c) =
      ((indexed orderIndex arrival).filter fun entry =>
        entry.key = key && replayClass entry = c).reverse := by
  have hp : ((timelineOf key entries).filter fun entry => replayClass entry = c).Perm
      ((indexed orderIndex arrival).filter fun entry =>
        entry.key = key && replayClass entry = c).reverse := by
    refine List.Perm.trans ?_ (List.reverse_perm _).symm
    refine (((sortedBy_perm _ _).trans (hperm.filter _)).filter _).trans ?_
    rw [List.filter_filter]
    refine List.Perm.of_eq (List.filter_congr fun entry _ => ?_)
    rw [Bool.and_comm]
  have hanti : ∀ a b, a ∈ (timelineOf key entries).filter (fun entry => replayClass entry = c) →
      b ∈ ((indexed orderIndex arrival).filter fun entry =>
        entry.key = key && replayClass entry = c).reverse →
      b.orderIndex ≤ a.orderIndex → a.orderIndex ≤ b.orderIndex → a = b := by
    intro a b ha hb hab hba
    have hb' := List.mem_filter.mp (List.mem_reverse.mp hb)
    have ha' := List.mem_filter.mp (List.mem_reverse.mp (hp.subset ha))
    exact indexed_inj ha'.1 hb'.1 (le_antisymm hba hab)
  refine List.Perm.eq_of_pairwise hanti ?_ ?_ hp
  · have hsorted := (sortedBy_pairwise versionReplaySortKey (ofKey key entries)).filter
      fun entry => replayClass entry = c
    refine hsorted.imp_of_mem ?_
    intro a b ha hb hle
    have hclass : replayClass a = replayClass b :=
      (of_decide_eq_true (List.mem_filter.mp ha).2).trans (of_decide_eq_true (List.mem_filter.mp hb).2).symm
    exact (replayClass_le hle).2 hclass
  · rw [List.pairwise_reverse]
    exact ((indexed_increasing orderIndex arrival).filter _).imp le_of_lt

/-- A predicate that fixes the kind only sees the entries of that kind. -/
theorem filter_ofKind {kind : Bool} {q : BucketVersionEntry → Bool} (l : List BucketVersionEntry)
    (hq : ∀ entry, q entry = true → entry.isDeleteMarker = kind) :
    (ofKind kind l).filter q = l.filter q := by
  rw [ofKind, List.filter_filter]
  refine List.filter_congr fun entry _ => ?_
  by_cases h : q entry = true
  · simp [h, hq entry h]
  · simp [h]

/-- The entries of one class in a timeline, as the listing has them. -/
theorem timelineOf_erased_filter {entries arrival listing : List BucketVersionEntry} {orderIndex : ℕ}
    (key : String) (hperm : entries.Perm (indexed orderIndex arrival))
    (harrival : ∀ kind, ofKind kind arrival = ofKind kind listing) (c : ℤ ×ₗ ℕ) :
    (((timelineOf key entries).map erase).filter fun entry => replayClass entry = c) =
      ((listing.filter fun entry => entry.key = key && replayClass entry = c).map erase).reverse := by
  have hkind : ∀ entry : BucketVersionEntry, (entry.key = key && replayClass entry = c) = true →
      entry.isDeleteMarker = decide ((ofLex c).2 = 1) := by
    intro entry hentry
    simp only [Bool.and_eq_true, decide_eq_true_eq] at hentry
    rw [← hentry.2]
    cases h : entry.isDeleteMarker <;> simp [replayClass, h]
  have hlisting : (arrival.filter fun entry => entry.key = key && replayClass entry = c) =
      listing.filter fun entry => entry.key = key && replayClass entry = c := by
    rw [← filter_ofKind arrival hkind, ← filter_ofKind listing hkind, harrival]
  rw [List.filter_map, List.map_congr_left fun entry _ => rfl]
  have hcomp : ((fun entry => decide (replayClass entry = c)) ∘ erase) =
      fun entry => decide (replayClass entry = c) := rfl
  rw [hcomp, timelineOf_filter key hperm c, List.map_reverse, ← hlisting]
  have hindexed := map_erase_indexed orderIndex arrival
  have hmap : ∀ l : List BucketVersionEntry,
      ((l.filter fun entry => entry.key = key && replayClass entry = c).map erase) =
        (l.map erase).filter fun entry => entry.key = key && replayClass entry = c := by
    intro l
    rw [List.filter_map]
    rfl
  rw [hmap, hmap, hindexed]

/-- A timeline without its indices only depends on the listing. -/
theorem timelineOf_erased_eq {entries entries' arrival arrival' listing : List BucketVersionEntry}
    {orderIndex orderIndex' : ℕ} (key : String) (hperm : entries.Perm (indexed orderIndex arrival))
    (hperm' : entries'.Perm (indexed orderIndex' arrival'))
    (harrival : ∀ kind, ofKind kind arrival = ofKind kind listing)
    (harrival' : ∀ kind, ofKind kind arrival' = ofKind kind listing) :
    (timelineOf key entries).map erase = (timelineOf key entries').map erase := by
  have hsorted (entries : List BucketVersionEntry) : ((timelineOf key entries).map erase).Pairwise
      fun a b => replayClass a ≤ replayClass b :=
    List.pairwise_map.mpr ((sortedBy_pairwise versionReplaySortKey (ofKey key entries)).imp fun h =>
      (replayClass_le h).1)
  refine eq_of_pairwise_of_filter_eq (hsorted entries) (hsorted entries') ?_
  intro c
  rw [timelineOf_erased_filter key hperm harrival, timelineOf_erased_filter key hperm' harrival']

/-! ## All timelines -/

/-- A timeline with its key, without the arrival indices. -/
def eraseTimeline (p : String × Timeline) : String × Timeline := (p.1, p.2.map erase)

theorem yields_map {seen : List BucketVersionEntry} {out : List (String × Timeline)}
    (h : YieldsTimelines seen out) :
    out = (out.map Prod.fst).map fun key => (key, timelineOf key seen) := by
  rw [List.map_map]
  refine (List.map_id out).symm.trans (List.map_congr_left fun p hp => ?_)
  show p = (p.1, timelineOf p.1 seen)
  rw [← (h.timelines p hp).2]

theorem yields_map_erase {seen : List BucketVersionEntry} {out : List (String × Timeline)}
    (h : YieldsTimelines seen out) : out.map eraseTimeline =
      (out.map Prod.fst).map fun key => (key, (timelineOf key seen).map erase) := by
  conv_lhs => rw [yields_map h, List.map_map]
  rfl

theorem yields_keys_iff {seen : List BucketVersionEntry} {out : List (String × Timeline)}
    (h : YieldsTimelines seen out) {key : String} :
    key ∈ out.map Prod.fst ↔ ∃ entry ∈ seen, entry.key = key := by
  constructor
  · intro hkey
    obtain ⟨p, hp, rfl⟩ := List.mem_map.mp hkey
    exact (h.timelines p hp).1
  · rintro ⟨entry, hentry, rfl⟩
    exact List.mem_map_of_mem (h.covered entry hentry)

theorem key_mem_iff {entries arrival listing : List BucketVersionEntry} {orderIndex : ℕ}
    (hperm : entries.Perm (indexed orderIndex arrival))
    (harrival : ∀ kind, ofKind kind arrival = ofKind kind listing) {key : String} :
    (∃ entry ∈ entries, entry.key = key) ↔ ∃ entry ∈ listing, entry.key = key := by
  have hkeys (l : List BucketVersionEntry) : (∃ entry ∈ l, entry.key = key) ↔
      ∃ entry ∈ l.map erase, entry.key = key := by
    simp
  have hindexed : (∃ entry ∈ entries, entry.key = key) ↔
      ∃ entry ∈ indexed orderIndex arrival, entry.key = key :=
    exists_congr fun entry => and_congr_left fun _ => hperm.mem_iff
  rw [hindexed, hkeys, map_erase_indexed, ← hkeys]
  exact exists_congr fun entry => and_congr_left fun _ => mem_of_ofKind_eq harrival

/-- The entries of a timeline are the valid entries of its key. -/
theorem timelineOf_erased_perm {entries arrival listing : List BucketVersionEntry} {orderIndex : ℕ}
    (key : String) (hperm : entries.Perm (indexed orderIndex arrival))
    (harrival : ∀ kind, ofKind kind arrival = ofKind kind listing) :
    ((timelineOf key entries).map erase).Perm ((ofKey key listing).map erase) := by
  have hlisting : arrival.Perm listing := by
    have hsplit (l : List BucketVersionEntry) : l.Perm (ofKind true l ++ ofKind false l) := by
      have hnot : ofKind false l = l.filter fun entry => !decide (entry.isDeleteMarker = true) :=
        List.filter_congr fun entry _ => by cases entry.isDeleteMarker <;> rfl
      rw [hnot]
      exact (List.filter_append_perm _ l).symm
    refine (hsplit arrival).trans ?_
    rw [harrival, harrival]
    exact (hsplit listing).symm
  refine ((sortedBy_perm _ _).map erase).trans ?_
  have hmap (l : List BucketVersionEntry) : (ofKey key l).map erase = ofKey key (l.map erase) := by
    rw [ofKey, ofKey, List.filter_map]
    rfl
  rw [hmap, hmap]
  refine ((hperm.map erase).trans ?_).filter _
  rw [map_erase_indexed]
  exact hlisting.map erase

/-- One cut: the iterator ends, and its timelines are those of the valid entries. -/
theorem timelines_of_split {listing : List Listed} {pages : List Page}
    (hkeys : (validEntries listing).Pairwise fun a b => a.key ≤ b.key) (hsplit : Split listing pages) :
    ∃ timelines, iterBucketVersionTimelines pages = .ok timelines ∧
      (timelines.map Prod.fst).Pairwise (· < ·) ∧
      (∀ key, key ∈ timelines.map Prod.fst ↔ ∃ entry ∈ validEntries listing, entry.key = key) ∧
      ∀ p ∈ timelines, (p.2.map erase).Perm ((ofKey p.1 (validEntries listing)).map erase) := by
  obtain ⟨arrival, entries, timelines, harrival, hperm, hscan, hyields⟩ :=
    scanPages_of_split hsplit hkeys (Grouped.start 0) (by simp)
  rw [List.nil_append] at hyields
  refine ⟨timelines, hscan, List.pairwise_map.mpr hyields.increasing, fun key => ?_, ?_⟩
  · rw [yields_keys_iff hyields, key_mem_iff hperm harrival]
  · intro p hp
    rw [(hyields.timelines p hp).2]
    exact timelineOf_erased_perm p.1 hperm harrival

/-- Two cuts: the timelines only differ in the arrival indices. -/
theorem erased_timelines_eq {listing : List Listed} {pages pages' : List Page}
    {timelines timelines' : List (String × Timeline)}
    (hkeys : (validEntries listing).Pairwise fun a b => a.key ≤ b.key) (hsplit : Split listing pages)
    (hsplit' : Split listing pages') (h : iterBucketVersionTimelines pages = .ok timelines)
    (h' : iterBucketVersionTimelines pages' = .ok timelines') :
    timelines.map eraseTimeline = timelines'.map eraseTimeline := by
  obtain ⟨arrival, entries, yielded, harrival, hperm, hscan, hyields⟩ :=
    scanPages_of_split hsplit hkeys (Grouped.start 0) (by simp)
  obtain ⟨arrival', entries', yielded', harrival', hperm', hscan', hyields'⟩ :=
    scanPages_of_split hsplit' hkeys (Grouped.start 0) (by simp)
  obtain rfl : timelines = yielded := Except.ok.inj (h.symm.trans hscan)
  obtain rfl : timelines' = yielded' := Except.ok.inj (h'.symm.trans hscan')
  rw [List.nil_append] at hyields hyields'
  have hincreasing {seen : List BucketVersionEntry} {out : List (String × Timeline)}
      (h : YieldsTimelines seen out) : (out.map Prod.fst).Pairwise (· < ·) :=
    List.pairwise_map.mpr h.increasing
  have hmem {key : String} : key ∈ timelines.map Prod.fst ↔ key ∈ timelines'.map Prod.fst := by
    rw [yields_keys_iff hyields, key_mem_iff hperm harrival, yields_keys_iff hyields',
      key_mem_iff hperm' harrival']
  have hsame : timelines.map Prod.fst = timelines'.map Prod.fst := by
    have hp : (timelines.map Prod.fst).Perm (timelines'.map Prod.fst) :=
      (List.perm_ext_iff_of_nodup ((hincreasing hyields).imp ne_of_lt)
        ((hincreasing hyields').imp ne_of_lt)).mpr fun key => hmem
    exact hp.eq_of_pairwise (fun a b _ _ hab hba => absurd hab hba.not_gt) (hincreasing hyields)
      (hincreasing hyields')
  rw [yields_map_erase hyields, yields_map_erase hyields', hsame]
  refine List.map_congr_left fun key _ => ?_
  exact congrArg (Prod.mk key) (timelineOf_erased_eq key hperm hperm' harrival harrival')

/-- For every listing in key order and every cut into pages the iterator ends, yields each key with a
valid entry once, in increasing order, with exactly its valid entries, and yields the same timelines,
up to the arrival indices, for any two cuts. -/
theorem timelines_page_independent {listing : List Listed} {pages pages' : List Page}
    (hkeys : (validEntries listing).Pairwise fun a b => a.key ≤ b.key) (hsplit : Split listing pages)
    (hsplit' : Split listing pages') :
    ∃ timelines timelines', iterBucketVersionTimelines pages = .ok timelines ∧
      iterBucketVersionTimelines pages' = .ok timelines' ∧
      timelines.map eraseTimeline = timelines'.map eraseTimeline ∧
      (timelines.map Prod.fst).Pairwise (· < ·) ∧
      (∀ key, key ∈ timelines.map Prod.fst ↔ ∃ entry ∈ validEntries listing, entry.key = key) ∧
      ∀ p ∈ timelines, (p.2.map erase).Perm ((ofKey p.1 (validEntries listing)).map erase) := by
  obtain ⟨timelines, hscan, hincreasing, hmem, hperm⟩ := timelines_of_split hkeys hsplit
  obtain ⟨timelines', hscan', -⟩ := timelines_of_split hkeys hsplit'
  exact ⟨timelines, timelines', hscan, hscan',
    erased_timelines_eq hkeys hsplit hsplit' hscan hscan', hincreasing, hmem, hperm⟩

/-- Two objects and a delete marker between them, all of one second, and an entry without a version. -/
def recreated : List Listed :=
  let raw (versionId : Option String) : RawVersion := ⟨some "a", versionId, false, some 5, 1, none, none⟩
  [⟨false, raw (some "v3")⟩, ⟨true, raw (some "v2")⟩, ⟨false, raw none⟩, ⟨false, raw (some "v1")⟩]

def onePage : Page where
  versions := [⟨some "a", some "v3", false, some 5, 1, none, none⟩,
    ⟨some "a", none, false, some 5, 1, none, none⟩, ⟨some "a", some "v1", false, some 5, 1, none, none⟩]
  deleteMarkers := [⟨some "a", some "v2", false, some 5, 1, none, none⟩]
  nextKeyMarker := none
  nextVersionIdMarker := none

theorem timelines_page_independent_recreated :
    ∃ timelines timelines', iterBucketVersionTimelines [onePage] = .ok timelines ∧
      iterBucketVersionTimelines
        [{ onePage with versions := onePage.versions.take 1, nextKeyMarker := some "a" },
          { onePage with versions := onePage.versions.drop 1, deleteMarkers := [] }] = .ok timelines' ∧
      timelines.map eraseTimeline = timelines'.map eraseTimeline := by
  have hkeys : (validEntries recreated).Pairwise fun a b => a.key ≤ b.key := by decide
  have hsplit : Split recreated [onePage] := .last ⟨rfl, rfl⟩ rfl
  have hsplit' : Split (recreated.take 2 ++ recreated.drop 2)
      [{ onePage with versions := onePage.versions.take 1, nextKeyMarker := some "a" },
        { onePage with versions := onePage.versions.drop 1, deleteMarkers := [] }] :=
    .more ⟨rfl, rfl⟩ rfl (.last ⟨rfl, rfl⟩ rfl)
  obtain ⟨timelines, timelines', hscan, hscan', hsame, -⟩ :=
    timelines_page_independent hkeys hsplit hsplit'
  exact ⟨timelines, timelines', hscan, hscan', hsame⟩

end Versions
end BucketReef

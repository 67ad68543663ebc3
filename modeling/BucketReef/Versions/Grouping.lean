import BucketReef.Versions.Listing

/-!
# What the timeline iterator yields

`Grouped seen scan` relates the iterator's locals to the entries fed to it so far. One entry whose
key is not below the earlier ones preserves it, so a whole key-ordered scan does, and a finished
scan yields each key once, in increasing order, with all of its entries in replay order.
-/

namespace BucketReef
namespace Versions

open Lists

/-- The entries of one key among those seen. -/
def ofKey (key : String) (entries : List BucketVersionEntry) : List BucketVersionEntry :=
  entries.filter fun entry => entry.key = key

@[simp] theorem mem_ofKey {key : String} {entries : List BucketVersionEntry}
    {entry : BucketVersionEntry} : entry ∈ ofKey key entries ↔ entry ∈ entries ∧ entry.key = key := by
  simp [ofKey]

theorem ofKey_append (key : String) (xs ys : List BucketVersionEntry) :
    ofKey key (xs ++ ys) = ofKey key xs ++ ofKey key ys := List.filter_append ..

theorem ofKey_singleton_self (entry : BucketVersionEntry) : ofKey entry.key [entry] = [entry] := by
  simp [ofKey]

theorem ofKey_singleton_ne {key : String} {entry : BucketVersionEntry} (h : entry.key ≠ key) :
    ofKey key [entry] = [] := by
  simp [ofKey, h]

theorem ofKey_eq_nil {key : String} {entries : List BucketVersionEntry}
    (h : ∀ entry ∈ entries, entry.key ≠ key) : ofKey key entries = [] := by
  rw [ofKey, List.filter_eq_nil_iff]
  simpa using h

/-- The timeline of a key over a list of entries. -/
def timelineOf (key : String) (entries : List BucketVersionEntry) : Timeline :=
  sortedBy versionReplaySortKey (ofKey key entries)

theorem mem_timelineOf {key : String} {entries : List BucketVersionEntry}
    {entry : BucketVersionEntry} :
    entry ∈ timelineOf key entries ↔ entry ∈ entries ∧ entry.key = key := by
  simp [timelineOf]

/-- The buffer holds exactly the newest key's entries; every smaller key has been yielded. -/
structure Buffering (seen : List BucketVersionEntry) (scan : TimelineScan) (key : String) : Prop where
  current : scan.bufferedKey = some key
  entries : scan.bufferedEntries = ofKey key seen
  witness : ∃ entry ∈ seen, entry.key = key
  newest : ∀ entry ∈ seen, entry.key ≤ key
  below : ∀ p ∈ scan.yielded, p.1 < key
  covered : ∀ entry ∈ seen, entry.key ≠ key → ∃ p ∈ scan.yielded, p.1 = entry.key

structure Grouped (seen : List BucketVersionEntry) (scan : TimelineScan) : Prop where
  timelines : ∀ p ∈ scan.yielded, (∃ entry ∈ seen, entry.key = p.1) ∧ p.2 = timelineOf p.1 seen
  increasing : scan.yielded.Pairwise fun p q => p.1 < q.1
  buffer : (seen = [] ∧ scan.bufferedKey = none ∧ scan.yielded = [] ∧ scan.bufferedEntries = []) ∨
    ∃ key, Buffering seen scan key

theorem Grouped.start (orderIndex : ℕ) : Grouped [] { orderIndex := orderIndex } where
  timelines := by simp
  increasing := List.Pairwise.nil
  buffer := .inl ⟨rfl, rfl, rfl, rfl⟩

/-- The order index is not read by the grouping. -/
theorem Grouped.setIndex {seen : List BucketVersionEntry} {scan : TimelineScan}
    (h : Grouped seen scan) (orderIndex : ℕ) :
    Grouped seen { scan with orderIndex := orderIndex } where
  timelines := h.timelines
  increasing := h.increasing
  buffer := h.buffer.imp id fun ⟨key, hb⟩ =>
    ⟨key, ⟨hb.current, hb.entries, hb.witness, hb.newest, hb.below, hb.covered⟩⟩

/-- Yielded timelines are closed: later entries have larger keys. -/
theorem timelineOf_snoc {key : String} {seen : List BucketVersionEntry} {entry : BucketVersionEntry}
    (h : entry.key ≠ key) : timelineOf key (seen ++ [entry]) = timelineOf key seen := by
  rw [timelineOf, ofKey_append, ofKey_singleton_ne h, List.append_nil, timelineOf]

theorem bufferEntry_same {scan : TimelineScan} {entry : BucketVersionEntry}
    (h : scan.bufferedKey = some entry.key) :
    bufferEntry scan entry = { scan with bufferedEntries := scan.bufferedEntries ++ [entry] } := by
  simp [bufferEntry, h]

theorem bufferEntry_first {scan : TimelineScan} {entry : BucketVersionEntry}
    (h : scan.bufferedKey = none) :
    bufferEntry scan entry = { scan with
      bufferedKey := some entry.key
      bufferedEntries := scan.bufferedEntries ++ [entry] } := by
  simp [bufferEntry, h]

theorem bufferEntry_next {scan : TimelineScan} {entry : BucketVersionEntry} {key : String}
    (h : scan.bufferedKey = some key) (hne : entry.key ≠ key) :
    bufferEntry scan entry = { scan with
      bufferedKey := some entry.key
      bufferedEntries := [entry]
      yielded := scan.yielded ++
        [(key, sortedBy versionReplaySortKey scan.bufferedEntries)] } := by
  simp [bufferEntry, h, hne]

/-- The step: an entry in key order. -/
theorem Grouped.buffer_entry {seen : List BucketVersionEntry} {scan : TimelineScan}
    {entry : BucketVersionEntry} (h : Grouped seen scan)
    (horder : ∀ old ∈ seen, old.key ≤ entry.key) :
    Grouped (seen ++ [entry]) (bufferEntry scan entry) := by
  rcases h.buffer with ⟨rfl, hkey, hyielded, hentries⟩ | ⟨key, hb⟩
  · -- the first entry of the scan
    rw [bufferEntry_first hkey]
    refine ⟨by simp [hyielded], by simp [hyielded], .inr ⟨entry.key, rfl, ?_, ?_, ?_, ?_, ?_⟩⟩
    · simp [hentries, ofKey_singleton_self]
    · exact ⟨entry, by simp, rfl⟩
    · simp
    · simp [hyielded]
    · simp
  · by_cases hsame : entry.key = key
    · -- the buffered key continues
      subst hsame
      rw [bufferEntry_same hb.current]
      refine ⟨?_, h.increasing, .inr ⟨entry.key, hb.current, ?_, ⟨entry, by simp, rfl⟩, ?_,
        hb.below, ?_⟩⟩
      · intro p hp
        obtain ⟨⟨old, hold, hk⟩, htl⟩ := h.timelines p hp
        refine ⟨⟨old, by simp [hold], hk⟩, ?_⟩
        rw [timelineOf_snoc (hb.below p hp).ne', htl]
      · simp [hb.entries, ofKey_append, ofKey_singleton_self]
      · intro old hold
        rcases List.mem_append.mp hold with hin | hin
        · exact hb.newest old hin
        · rw [List.mem_singleton.mp hin]
      · intro old hold hne
        rcases List.mem_append.mp hold with hin | hin
        · exact hb.covered old hin hne
        · exact absurd (by rw [List.mem_singleton.mp hin]) hne
    · -- a new key: the buffered one is yielded
      obtain ⟨last, hlast, hlastKey⟩ := hb.witness
      have hlt : key < entry.key := lt_of_le_of_ne (hlastKey ▸ horder last hlast) (Ne.symm hsame)
      rw [bufferEntry_next hb.current hsame]
      refine ⟨?_, ?_, .inr ⟨entry.key, rfl, ?_, ⟨entry, by simp, rfl⟩, ?_, ?_, ?_⟩⟩
      · intro p hp
        rcases List.mem_append.mp hp with hin | hin
        · obtain ⟨⟨old, hold, hk⟩, htl⟩ := h.timelines p hin
          refine ⟨⟨old, by simp [hold], hk⟩, ?_⟩
          rw [timelineOf_snoc ((hb.below p hin).trans hlt).ne', htl]
        · rw [List.mem_singleton.mp hin]
          refine ⟨⟨last, by simp [hlast], hlastKey⟩, ?_⟩
          rw [timelineOf_snoc hsame, timelineOf, hb.entries]
      · refine List.pairwise_append.mpr ⟨h.increasing, List.pairwise_singleton _ _, ?_⟩
        intro p hp q hq
        rw [List.mem_singleton.mp hq]
        exact hb.below p hp
      · rw [ofKey_append, ofKey_singleton_self, ofKey_eq_nil, List.nil_append]
        intro old hold
        exact ((hb.newest old hold).trans_lt hlt).ne
      · intro old hold
        rcases List.mem_append.mp hold with hin | hin
        · exact horder old hin
        · rw [List.mem_singleton.mp hin]
      · intro p hp
        rcases List.mem_append.mp hp with hin | hin
        · exact (hb.below p hin).trans hlt
        · rw [List.mem_singleton.mp hin]; exact hlt
      · intro old hold hne
        rcases List.mem_append.mp hold with hin | hin
        · by_cases hk : old.key = key
          · exact ⟨(key, _), List.mem_append_right _ (List.mem_singleton_self _), hk.symm⟩
          · obtain ⟨p, hp, hpk⟩ := hb.covered old hin hk
            exact ⟨p, List.mem_append_left _ hp, hpk⟩
        · exact absurd (by rw [List.mem_singleton.mp hin]) hne

/-- The run over a key-ordered list of entries. -/
theorem Grouped.foldl_bufferEntry {entries seen : List BucketVersionEntry} {scan : TimelineScan}
    (h : Grouped seen scan) (hsorted : entries.Pairwise fun a b => a.key ≤ b.key)
    (horder : ∀ old ∈ seen, ∀ entry ∈ entries, old.key ≤ entry.key) :
    Grouped (seen ++ entries) (entries.foldl bufferEntry scan) := by
  induction entries generalizing seen scan with
  | nil => simpa using h
  | cons entry rest ih =>
    obtain ⟨hhead, htail⟩ := List.pairwise_cons.mp hsorted
    have hstep := h.buffer_entry fun old hold => horder old hold entry (by simp)
    have hrun := ih hstep htail (by
      intro old hold later hlater
      rcases List.mem_append.mp hold with hin | hin
      · exact horder old hin later (by simp [hlater])
      · rw [List.mem_singleton.mp hin]
        exact hhead later hlater)
    simpa using hrun

/-- What flushing the last buffered key yields. -/
structure YieldsTimelines (seen : List BucketVersionEntry) (out : List (String × Timeline)) : Prop where
  increasing : out.Pairwise fun p q => p.1 < q.1
  timelines : ∀ p ∈ out, (∃ entry ∈ seen, entry.key = p.1) ∧ p.2 = timelineOf p.1 seen
  covered : ∀ entry ∈ seen, (entry.key, timelineOf entry.key seen) ∈ out

theorem Grouped.flush {seen : List BucketVersionEntry} {scan : TimelineScan}
    (h : Grouped seen scan) : YieldsTimelines seen (flushScan scan) := by
  rcases h.buffer with ⟨rfl, hkey, hyielded, -⟩ | ⟨key, hb⟩
  · simp only [flushScan, hkey, hyielded]
    exact ⟨List.Pairwise.nil, by simp, by simp⟩
  · simp only [flushScan, hb.current]
    have hout : (key, sortedBy versionReplaySortKey scan.bufferedEntries) =
        (key, timelineOf key seen) := by rw [timelineOf, hb.entries]
    rw [hout]
    refine ⟨?_, ?_, ?_⟩
    · refine List.pairwise_append.mpr ⟨h.increasing, List.pairwise_singleton _ _, ?_⟩
      intro p hp q hq
      rw [List.mem_singleton.mp hq]
      exact hb.below p hp
    · intro p hp
      rcases List.mem_append.mp hp with hin | hin
      · exact h.timelines p hin
      · rw [List.mem_singleton.mp hin]
        exact ⟨hb.witness, rfl⟩
    · intro entry hentry
      by_cases hk : entry.key = key
      · rw [hk]; simp
      · obtain ⟨p, hp, hpk⟩ := hb.covered entry hentry hk
        have htl := (h.timelines p hp).2
        have : (entry.key, timelineOf entry.key seen) = p := by
          rw [← hpk, ← htl]
        rw [this]
        exact List.mem_append_left _ hp

/-! ## Whole listings -/

theorem key_le_of_groupSortKey_le {a b : BucketVersionEntry}
    (h : versionGroupSortKey a ≤ versionGroupSortKey b) : a.key ≤ b.key := by
  rcases (Prod.Lex.toLex_le_toLex).mp h with hlt | ⟨heq, -⟩
  · exact hlt.le
  · exact heq.le

@[simp] theorem bufferEntry_orderIndex (scan : TimelineScan) (entry : BucketVersionEntry) :
    (bufferEntry scan entry).orderIndex = scan.orderIndex := by
  simp only [bufferEntry]
  split <;> rfl

theorem scanPage_orderIndex (scan : TimelineScan) (page : Page) :
    (scanPage scan page).orderIndex = (pageVersionEntries page scan.orderIndex).2 := by
  have hfold : ∀ (l : List BucketVersionEntry) (scan : TimelineScan),
      (l.foldl bufferEntry scan).orderIndex = scan.orderIndex := by
    intro l
    induction l with
    | nil => intro scan; rfl
    | cons entry rest ih => intro scan; rw [List.foldl_cons, ih, bufferEntry_orderIndex]
  exact hfold _ _

/-- One page keeps the grouping, when its keys do not sort before those already seen. -/
theorem Grouped.scanPage {seen : List BucketVersionEntry} {scan : TimelineScan} {p : Page}
    (h : Grouped seen scan)
    (horder : ∀ old ∈ seen, ∀ entry ∈ (pageVersionEntries p scan.orderIndex).1,
      old.key ≤ entry.key) :
    Grouped (seen ++ sortedBy versionGroupSortKey (pageVersionEntries p scan.orderIndex).1)
      (scanPage scan p) := by
  refine (h.setIndex _).foldl_bufferEntry ?_ ?_
  · exact (sortedBy_pairwise versionGroupSortKey _).imp key_le_of_groupSortKey_le
  · intro old hold entry hentry
    exact horder old hold entry (mem_sortedBy.mp hentry)

end Versions
end BucketReef

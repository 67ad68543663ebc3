import BucketReef.Comparison.ContentIndex

/-!
# The comparison agrees with the diff of a migration

The comparison joins two sides of a table, and a migration merges two sorted listings. Without the keys
that the cutoff ignores they count the same and show the same samples.
-/

namespace BucketReef
namespace Comparison

open CurrentObjects Versions Integrity

variable {kind : ContentKind}

/-! ## The table -/

theorem addObjects_eq (side : Side) (entries : List BucketCompareObjectEntry)
    (batch : List CompareRow) (index : CompareIndex) : addObjects side entries batch index =
      insertBatch index (batch ++ entries.map (CompareRow.mk side)) := by
  induction entries generalizing batch index with
  | nil => rw [addObjects, List.map_nil, List.append_nil]
  | cons entry rest ih =>
    rw [addObjects, List.map_cons]
    split_ifs
    · rw [ih, List.nil_append, insertBatch, insertBatch, insertBatch, ← List.foldl_append,
        List.append_assoc, List.singleton_append]
    · rw [ih, List.append_assoc, List.singleton_append]

/-- A new key replaces nothing. -/
theorem insertOrReplace_new {index : CompareIndex} {row : CompareRow}
    (h : ∀ other ∈ index, other.side = row.side → other.entry.key ≠ row.entry.key) :
    insertOrReplace index row = index ++ [row] := by
  unfold insertOrReplace
  rw [List.filter_eq_self.mpr]
  intro other hother
  by_cases hside : other.side = row.side
  · simp [hside, h other hother hside]
  · simp [hside]

theorem insertBatch_new {rows index : CompareIndex}
    (hrows : rows.Pairwise fun row later => row.entry.key ≠ later.entry.key)
    (h : ∀ row ∈ rows, ∀ other ∈ index, other.side = row.side → other.entry.key ≠ row.entry.key) :
    insertBatch index rows = index ++ rows := by
  induction rows generalizing index with
  | nil => exact (List.append_nil index).symm
  | cons row rows ih =>
    obtain ⟨hfirst, hrest⟩ := List.pairwise_cons.mp hrows
    have hnew := insertOrReplace_new (h row (List.mem_cons_self ..))
    rw [insertBatch, List.foldl_cons, hnew]
    have hrows' : insertBatch (index ++ [row]) rows = index ++ [row] ++ rows := by
      refine ih hrest fun later hlater other hother hside => ?_
      rcases List.mem_append.mp hother with hother | hother
      · exact h later (List.mem_cons_of_mem _ hlater) other hother hside
      · rw [List.mem_singleton.mp hother]
        exact hfirst later hlater
    rw [← insertBatch, hrows', List.append_assoc, List.singleton_append]

/-- The entries of a listing, with the keys of `keep`. -/
def CompareListing.entries (listing : CompareListing kind) (keep : String → Bool) :
    List BucketCompareObjectEntry :=
  (listing.objects.filter fun object => keep object.key).map listing.compareEntry

/-- The rows of two listings. -/
def rowsOf (source target : CompareListing kind) (keep : String → Bool) : CompareIndex :=
  (source.entries keep).map (CompareRow.mk .source) ++ (target.entries keep).map (CompareRow.mk .target)

theorem listBucketObjectsForCompare_eq (listing : CompareListing kind) :
    listBucketObjectsForCompare listing = listing.entries fun _ => true := by
  rw [listBucketObjectsForCompare, iterBucketObjects_of_split listing.split, CompareListing.entries,
    List.filter_eq_self.mpr fun _ _ => rfl]

theorem pairwise_entries (listing : CompareListing kind) (keep : String → Bool) :
    (listing.entries keep).Pairwise fun entry later => entry.key < later.key :=
  List.pairwise_map.mpr (listing.increasing.filter fun object => keep object.key)

/-- The table holds the objects of both listings. -/
theorem addObjects_listings (source target : CompareListing kind) :
    addObjects .target (listBucketObjectsForCompare target) []
      (addObjects .source (listBucketObjectsForCompare source) [] []) =
        rowsOf source target fun _ => true := by
  have hpairwise : ∀ (side : Side) (listing : CompareListing kind),
      ((listing.entries fun _ => true).map (CompareRow.mk side)).Pairwise
        fun row later => row.entry.key ≠ later.entry.key := fun side listing =>
    List.pairwise_map.mpr ((pairwise_entries listing _).imp ne_of_lt)
  rw [addObjects_eq, addObjects_eq, listBucketObjectsForCompare_eq, listBucketObjectsForCompare_eq,
    List.nil_append, List.nil_append, insertBatch_new (hpairwise .source source) (by simp),
    insertBatch_new (hpairwise .target target), List.nil_append, rowsOf]
  -- the sides are kept apart
  intro row hrow other hother hside
  obtain ⟨entry, -, rfl⟩ := List.mem_map.mp hrow
  rw [List.nil_append] at hother
  obtain ⟨entry', -, rfl⟩ := List.mem_map.mp hother
  cases hside

/-- The keys that one side modified after the cutoff. -/
def isIgnored (source target : CompareListing kind) (cutoff : Option ℤ) (key : String) : Bool :=
  cutoff.any fun cutoff =>
    (source.objects.any fun object => object.key = key && modifiedAfter cutoff (source.compareEntry object)) ||
      target.objects.any fun object => object.key = key && modifiedAfter cutoff (target.compareEntry object)

def isKept (source target : CompareListing kind) (cutoff : Option ℤ) (key : String) : Bool :=
  !isIgnored source target cutoff key

theorem filter_rowsOf (source target : CompareListing kind) (keep : String → Bool) :
    (rowsOf source target fun _ => true).filter (fun row => keep row.entry.key) =
      rowsOf source target keep := by
  have hside : ∀ (side : Side) (listing : CompareListing kind),
      ((listing.entries fun _ => true).map (CompareRow.mk side)).filter (fun row => keep row.entry.key) =
        (listing.entries keep).map (CompareRow.mk side) := by
    intro side listing
    simp only [CompareListing.entries, List.filter_map, List.filter_true]
    rfl
  rw [rowsOf, List.filter_append, hside, hside, rowsOf]

theorem mem_rowsOf_ignored {source target : CompareListing kind} {cutoff : ℤ} {key : String} :
    key ∈ (((rowsOf source target fun _ => true).filter fun row => modifiedAfter cutoff row.entry).map
      fun row => row.entry.key) ↔ isIgnored source target (some cutoff) key = true := by
  simp only [rowsOf, CompareListing.entries, List.filter_true, List.mem_map, List.mem_filter,
    List.mem_append, isIgnored, Option.any_some, Bool.or_eq_true, List.any_eq_true, Bool.and_eq_true,
    decide_eq_true_eq]
  constructor
  · rintro ⟨row, ⟨⟨_, ⟨object, hobject, rfl⟩, rfl⟩ | ⟨_, ⟨object, hobject, rfl⟩, rfl⟩, hafter⟩, rfl⟩
    · exact .inl ⟨object, hobject, rfl, hafter⟩
    · exact .inr ⟨object, hobject, rfl, hafter⟩
  · rintro (⟨object, hobject, rfl, hafter⟩ | ⟨object, hobject, rfl, hafter⟩)
    · exact ⟨_, ⟨.inl ⟨_, ⟨object, hobject, rfl⟩, rfl⟩, hafter⟩, rfl⟩
    · exact ⟨_, ⟨.inr ⟨_, ⟨object, hobject, rfl⟩, rfl⟩, hafter⟩, rfl⟩

theorem excludeModifiedAfter_rowsOf (source target : CompareListing kind) (cutoff : Option ℤ) :
    (excludeModifiedAfter cutoff (rowsOf source target fun _ => true)).2 =
      rowsOf source target (isKept source target cutoff) := by
  cases cutoff with
  | none => rfl
  | some cutoff =>
    rw [← filter_rowsOf source target (isKept source target (some cutoff)), excludeModifiedAfter]
    set ignored := (((rowsOf source target fun _ => true).filter fun row =>
      modifiedAfter cutoff row.entry).map fun row => row.entry.key) with hignored
    have hkeep : ∀ key, isKept source target (some cutoff) key = decide (key ∉ ignored.dedup) := by
      intro key
      rw [isKept, Bool.eq_iff_iff, Bool.not_eq_true', decide_eq_true_eq, List.mem_dedup, hignored,
        mem_rowsOf_ignored, Bool.not_eq_true]
    simp only [hkeep]
    split_ifs with hempty
    · refine (List.filter_eq_self.mpr fun row _ => ?_).symm
      rw [List.isEmpty_iff.mp hempty]
      simp
    · rfl

/-! ## The queries -/

section Queries

variable (source target : CompareListing kind) (keep : String → Bool)

theorem entriesOf_source : entriesOf .source (rowsOf source target keep) = source.entries keep := by
  simp [entriesOf, rowsOf, List.filter_map, Function.comp_def]

theorem entriesOf_target : entriesOf .target (rowsOf source target keep) = target.entries keep := by
  simp [entriesOf, rowsOf, List.filter_map, Function.comp_def]

end Queries

theorem sortedBy_increasing {entries : List BucketCompareObjectEntry}
    (h : entries.Pairwise fun entry later => entry.key < later.key) :
    Lists.sortedBy BucketCompareObjectEntry.key entries = entries :=
  (h.imp le_of_lt).insertionSort_eq

/-! ## The merge -/

section Merge

variable {sources targets : List (StoredObject kind)}

theorem compare_kind (source target : BucketObjectEntry) :
    (compareCurrentObjectEntries source target).kind = .matched ∨
      (compareCurrentObjectEntries source target).kind = .different := by
  unfold compareCurrentObjectEntries
  split_ifs
  · exact .inl rfl
  · exact .inr rfl

/-- Every source object is in one entry. -/
theorem countP_source (sources targets : List (StoredObject kind)) :
    (bucketDiff sources targets).countP (fun entry => entry.kind ≠ .onlyTarget) = sources.length := by
  fun_induction bucketDiff sources targets with
  | case1 targets => simp [List.countP_map, Function.comp_def, onlyTargetEntry]
  | case2 sources _ => simp [List.countP_map, Function.comp_def, onlySourceEntry]
  | case3 source sources target targets hlt ih =>
    rw [List.countP_cons_of_pos (by simp [onlySourceEntry]), ih, List.length_cons]
  | case4 source sources target targets _ hlt ih =>
    rw [List.countP_cons_of_neg (by simp [onlyTargetEntry]), ih]
  | case5 source sources target targets hle hge ih =>
    rw [List.countP_cons_of_pos (by simp [onlyTarget_compare]), ih, List.length_cons]

theorem countP_target (sources targets : List (StoredObject kind)) :
    (bucketDiff sources targets).countP (fun entry => entry.kind ≠ .onlySource) = targets.length := by
  fun_induction bucketDiff sources targets with
  | case1 targets => simp [List.countP_map, Function.comp_def, onlyTargetEntry]
  | case2 sources _ => simp [List.countP_map, Function.comp_def, onlySourceEntry]
  | case3 source sources target targets hlt ih =>
    rw [List.countP_cons_of_neg (by simp [onlySourceEntry]), ih]
  | case4 source sources target targets _ hlt ih =>
    rw [List.countP_cons_of_pos (by simp [onlyTargetEntry]), ih, List.length_cons]
  | case5 source sources target targets hle hge ih =>
    have hkind : (compareCurrentObjectEntries source.entry target.entry).kind ≠ .onlySource := by
      rcases compare_kind source.entry target.entry with h | h <;> simp [h]
    rw [List.countP_cons_of_pos (by simp [hkind]), ih, List.length_cons]

theorem filter_hasKey_of_lt {target : StoredObject kind} (h : ∀ source ∈ sources, target.key < source.key) :
    (sources.filter fun object => !hasKey (target :: targets) object.key) =
      sources.filter fun object => !hasKey targets object.key :=
  List.filter_congr fun object hobject => by simp [hasKey_cons, ne_of_lt (h object hobject)]

/-- The merge finds the keys that only the source has. -/
theorem onlySource_bucketDiff (hsources : Increasing sources) (htargets : Increasing targets) :
    ((bucketDiff sources targets).filter fun entry => entry.kind = .onlySource).map
      BucketDiffEntry.key =
        (sources.filter fun object => !hasKey targets object.key).map StoredObject.key := by
  fun_induction bucketDiff sources targets with
  | case1 targets => simp [List.filter_map, Function.comp_def, onlyTargetEntry]
  | case2 sources _ => simp [List.filter_map, Function.comp_def, onlySourceEntry, hasKey]
  | case3 source sources target targets hlt ih =>
    have hnone : hasKey (target :: targets) source.key = false :=
      hasKey_of_ne fun other hin => ne_of_gt (lt_of_lt_head htargets hlt other hin)
    rw [List.filter_cons_of_pos (by simp [onlySourceEntry]), List.filter_cons_of_pos (by simp [hnone]),
      List.map_cons, List.map_cons, ih (increasing_cons.mp hsources).2 htargets]
    rfl
  | case4 source sources target targets _ hlt ih =>
    rw [List.filter_cons_of_neg (by simp [onlyTargetEntry]),
      ih hsources (increasing_cons.mp htargets).2, filter_hasKey_of_lt (lt_of_lt_head hsources hlt)]
  | case5 source sources target targets hle hge ih =>
    have hkey : target.key = source.key := le_antisymm (not_lt.mp hle) (not_lt.mp hge)
    have hkind : (compareCurrentObjectEntries source.entry target.entry).kind ≠ .onlySource := by
      rcases compare_kind source.entry target.entry with h | h <;> simp [h]
    have hhas : hasKey (target :: targets) source.key = true := hkey ▸ hasKey_of_mem (List.mem_cons_self ..)
    obtain ⟨hfirst, hsources⟩ := increasing_cons.mp hsources
    rw [List.filter_cons_of_neg (by simp [hkind]), List.filter_cons_of_neg (by simp [hhas]),
      ih hsources (increasing_cons.mp htargets).2, filter_hasKey_of_lt (hkey ▸ hfirst)]

/-- The entries of the keys both sides have. -/
def common (entries : List BucketDiffEntry) : List BucketDiffEntry :=
  entries.filter fun entry => entry.kind = .matched || entry.kind = .different

/-- The pairs of the inner join. -/
def joined (sources targets : List (StoredObject kind)) :
    List (StoredObject kind × StoredObject kind) :=
  sources.flatMap fun object =>
    (targets.filter fun other => other.key = object.key).map fun other => (object, other)

theorem joined_cons_of_lt {target : StoredObject kind} (h : ∀ source ∈ sources, target.key < source.key) :
    joined sources (target :: targets) = joined sources targets := by
  unfold joined
  refine List.flatMap_congr fun object hobject => ?_
  rw [List.filter_cons_of_neg (by simp [ne_of_lt (h object hobject)])]

theorem filter_key_eq_nil {key : String} (h : ∀ target ∈ targets, key < target.key) :
    targets.filter (fun other => other.key = key) = [] :=
  List.filter_eq_nil_iff.mpr fun other hother => by simp [ne_of_gt (h other hother)]

/-- The merge compares the pairs of the join. -/
theorem common_bucketDiff (hsources : Increasing sources) (htargets : Increasing targets) :
    common (bucketDiff sources targets) = (joined sources targets).map fun pair =>
      compareCurrentObjectEntries pair.1.entry pair.2.entry := by
  fun_induction bucketDiff sources targets with
  | case1 targets => simp [common, joined, List.filter_map, Function.comp_def, onlyTargetEntry]
  | case2 sources _ => simp [common, joined, List.filter_map, Function.comp_def, onlySourceEntry]
  | case3 source sources target targets hlt ih =>
    rw [common, List.filter_cons_of_neg (by simp [onlySourceEntry]), ← common,
      ih (increasing_cons.mp hsources).2 htargets, joined, joined, List.flatMap_cons,
      filter_key_eq_nil (lt_of_lt_head htargets hlt), List.map_nil, List.nil_append]
  | case4 source sources target targets _ hlt ih =>
    rw [common, List.filter_cons_of_neg (by simp [onlyTargetEntry]), ← common,
      ih hsources (increasing_cons.mp htargets).2, joined_cons_of_lt (lt_of_lt_head hsources hlt)]
  | case5 source sources target targets hle hge ih =>
    have hkey : target.key = source.key := le_antisymm (not_lt.mp hle) (not_lt.mp hge)
    obtain ⟨hfirst, hsources⟩ := increasing_cons.mp hsources
    obtain ⟨hhead, htargets⟩ := increasing_cons.mp htargets
    have hpair : joined (source :: sources) (target :: targets) =
        (source, target) :: joined sources (target :: targets) := by
      rw [joined, joined, List.flatMap_cons, List.filter_cons_of_pos (by simp [hkey]),
        filter_key_eq_nil (hkey ▸ hhead)]
      rfl
    rw [common, List.filter_cons_of_pos
      (by rcases compare_kind source.entry target.entry with h | h <;> simp [h]), ← common,
      ih hsources htargets, hpair, joined_cons_of_lt (hkey ▸ hfirst), List.map_cons]

end Merge

/-! ## The summary of a diff -/

theorem appendSample_take {α : Type} (l : List α) (a : α) :
    appendSample (l.take 200) a = (l ++ [a]).take 200 := by
  unfold appendSample
  rw [List.length_take]
  split_ifs with h
  · have hlt : l.length < 200 := by omega
    rw [List.take_of_length_le (by omega), List.take_of_length_le (by simp; omega)]
  · rw [List.take_append_of_le_length (by omega)]

/-- What `_record_diff_entry` leaves after all the entries. -/
def summary (entries : List BucketDiffEntry) : SyncDiff where
  sourceCount := entries.countP fun entry => entry.kind ≠ .onlyTarget
  targetCount := entries.countP fun entry => entry.kind ≠ .onlySource
  matchedCount := entries.countP fun entry => entry.kind = .matched
  differentCount := entries.countP fun entry => entry.kind = .different
  onlySourceCount := entries.countP fun entry => entry.kind = .onlySource
  onlyTargetCount := entries.countP fun entry => entry.kind = .onlyTarget
  onlySourceSample := ((entries.filter fun entry => entry.kind = .onlySource).map
    BucketDiffEntry.key).take 200
  onlyTargetSample := ((entries.filter fun entry => entry.kind = .onlyTarget).map
    BucketDiffEntry.key).take 200
  differentSample := (entries.filter fun entry => entry.kind = .different).take 200

theorem summary_concat (entries : List BucketDiffEntry) (entry : BucketDiffEntry) :
    summary (entries ++ [entry]) = recordDiffEntry (summary entries) entry := by
  unfold recordDiffEntry
  cases hkind : entry.kind <;>
    simp [summary, hkind, List.countP_append, List.filter_append, ← appendSample_take]

theorem foldl_recordDiffEntry (entries : List BucketDiffEntry) :
    entries.foldl recordDiffEntry {} = summary entries := by
  induction entries using List.reverseRecOn with
  | nil => rfl
  | append_singleton entries entry ih => rw [List.foldl_append, ih, summary_concat]; rfl

/-! ## The comparison as a whole -/

def isEqual (row : BucketCompareObjectEntry × BucketCompareObjectEntry) : Bool :=
  (compareContents row.1.objectEntry row.2.objectEntry).2

def diffEntryOf (row : BucketCompareObjectEntry × BucketCompareObjectEntry) : BucketObjectDiffEntry :=
  ⟨row.1, row.2, (compareContents row.1.objectEntry row.2.objectEntry).1⟩

theorem compareCommonObject_eq (matched different : ℕ) (sample : List BucketObjectDiffEntry)
    (row : BucketCompareObjectEntry × BucketCompareObjectEntry) :
    compareCommonObject (matched, different, sample) row =
      if isEqual row then (matched + 1, different, sample)
      else (matched, different + 1, appendSample sample (diffEntryOf row)) := rfl

theorem foldl_compareCommonObject
    (rows : List (BucketCompareObjectEntry × BucketCompareObjectEntry)) :
    rows.foldl compareCommonObject (0, 0, []) = (rows.countP isEqual, rows.countP (!isEqual ·),
      ((rows.filter (!isEqual ·)).map diffEntryOf).take 200) := by
  induction rows using List.reverseRecOn with
  | nil => rfl
  | append_singleton rows row ih =>
    rw [List.foldl_append, ih, List.foldl_cons, List.foldl_nil, compareCommonObject_eq]
    cases hequal : isEqual row with
    | true => simp [List.countP_append, List.filter_append, hequal]
    | false => simp [List.countP_append, List.filter_append, hequal, appendSample_take]

/-- The difference as the diff of a migration shows it. -/
def BucketObjectDiffEntry.diffEntry (entry : BucketObjectDiffEntry) : BucketDiffEntry :=
  ⟨.different, entry.source.key, entry.source.size, entry.target.size, entry.source.etag,
    entry.target.etag, entry.compareBy⟩

/-- What the comparison has in common with the diff of a migration. -/
def BucketContentDiff.syncDiff (diff : BucketContentDiff) : SyncDiff where
  sourceCount := diff.sourceCount
  targetCount := diff.targetCount
  matchedCount := diff.matchedCount
  differentCount := diff.differentCount
  onlySourceCount := diff.onlySourceCount
  onlyTargetCount := diff.onlyTargetCount
  onlySourceSample := diff.onlySourceSample
  onlyTargetSample := diff.onlyTargetSample
  differentSample := diff.differentSample.map BucketObjectDiffEntry.diffEntry

section Agreement

variable (source target : CompareListing kind) (keep : String → Bool)

/-- The objects of the keys that are kept. -/
def CompareListing.kept (listing : CompareListing kind) (keep : String → Bool) :
    List (StoredObject kind) := listing.objects.filter fun object => keep object.key

theorem increasing_kept (listing : CompareListing kind) : Increasing (listing.kept keep) :=
  listing.increasing.filter _

theorem entries_eq (listing : CompareListing kind) :
    listing.entries keep = (listing.kept keep).map listing.compareEntry := rfl

theorem onlyRows_eq (listing other : CompareListing kind) :
    (listing.entries keep).filter (fun current =>
      !(other.entries keep).any fun entry => entry.key = current.key) =
        ((listing.kept keep).filter fun object => !hasKey (other.kept keep) object.key).map
          listing.compareEntry := by
  rw [entries_eq keep listing, List.filter_map]
  refine congrArg _ (List.filter_congr fun object _ => ?_)
  rw [Function.comp_apply, entries_eq keep other, List.any_map]
  rfl

theorem iterCommonRows_eq : iterCommonRows (rowsOf source target keep) =
    (joined (source.kept keep) (target.kept keep)).map fun pair =>
      (source.compareEntry pair.1, target.compareEntry pair.2) := by
  rw [iterCommonRows, entriesOf_source, entriesOf_target, sortedBy_increasing (pairwise_entries ..),
    joined, List.map_flatMap, entries_eq keep source, List.flatMap_map]
  refine List.flatMap_congr fun object _ => ?_
  rw [entries_eq keep target, List.filter_map, List.map_map, List.map_map]
  rfl

theorem keys_onlyRows (side otherSide : Side) (listing other : CompareListing kind)
    (hside : entriesOf side (rowsOf source target keep) = listing.entries keep)
    (hother : entriesOf otherSide (rowsOf source target keep) = other.entries keep) :
    onlySideSummary side otherSide (rowsOf source target keep) =
      (((listing.kept keep).filter fun object => !hasKey (other.kept keep) object.key).length,
        (((listing.kept keep).filter fun object => !hasKey (other.kept keep) object.key).map
          StoredObject.key).take 200,
        (((listing.kept keep).filter fun object => !hasKey (other.kept keep) object.key).map
          listing.compareEntry).take 200) := by
  have hrows : onlyRows side otherSide (rowsOf source target keep) =
      ((listing.kept keep).filter fun object => !hasKey (other.kept keep) object.key).map
        listing.compareEntry := by
    rw [onlyRows, hside, hother, onlyRows_eq]
  have hsorted := sortedBy_increasing (List.pairwise_map.mpr
    ((increasing_kept keep listing).filter fun object => !hasKey (other.kept keep) object.key) :
      (((listing.kept keep).filter fun object => !hasKey (other.kept keep) object.key).map
        listing.compareEntry).Pairwise fun entry later => entry.key < later.key)
  rw [onlySideSummary, iterOnlyRows, hrows, hsorted, List.length_map, List.map_take, List.map_map]
  rfl

end Agreement

/-! ### The common keys -/

def mergedEntry (row : BucketCompareObjectEntry × BucketCompareObjectEntry) : BucketDiffEntry :=
  compareCurrentObjectEntries row.1.objectEntry row.2.objectEntry

theorem kind_mergedEntry (row : BucketCompareObjectEntry × BucketCompareObjectEntry) :
    (mergedEntry row).kind = if isEqual row then .matched else .different := rfl

theorem diffEntry_diffEntryOf {row : BucketCompareObjectEntry × BucketCompareObjectEntry}
    (h : isEqual row = false) : (diffEntryOf row).diffEntry = mergedEntry row := by
  unfold mergedEntry compareCurrentObjectEntries
  rw [← isEqual, h]
  rfl

theorem filter_common {k : DiffKind} (hk : k = .matched ∨ k = .different)
    (entries : List BucketDiffEntry) :
    (common entries).filter (fun entry => entry.kind = k) = entries.filter fun entry => entry.kind = k := by
  rw [common, List.filter_filter]
  refine List.filter_congr fun entry _ => ?_
  rcases hk with rfl | rfl <;> cases entry.kind <;> rfl

theorem countP_common {k : DiffKind} (hk : k = .matched ∨ k = .different)
    (entries : List BucketDiffEntry) :
    (common entries).countP (fun entry => entry.kind = k) = entries.countP fun entry => entry.kind = k := by
  rw [List.countP_eq_length_filter, List.countP_eq_length_filter, filter_common hk]

section Common

variable {entries : List BucketDiffEntry}
variable {rows : List (BucketCompareObjectEntry × BucketCompareObjectEntry)}

theorem countP_matched (h : common entries = rows.map mergedEntry) :
    (entries.countP fun entry => entry.kind = .matched) = rows.countP isEqual := by
  rw [← countP_common (by simp), h, List.countP_map]
  refine List.countP_congr fun row _ => ?_
  rw [Function.comp_apply, kind_mergedEntry]
  cases isEqual row <;> simp

theorem countP_different (h : common entries = rows.map mergedEntry) :
    (entries.countP fun entry => entry.kind = .different) = rows.countP (!isEqual ·) := by
  rw [← countP_common (by simp), h, List.countP_map]
  refine List.countP_congr fun row _ => ?_
  rw [Function.comp_apply, kind_mergedEntry]
  cases isEqual row <;> simp

theorem filter_different (h : common entries = rows.map mergedEntry) :
    (entries.filter fun entry => entry.kind = .different) =
      ((rows.filter (!isEqual ·)).map diffEntryOf).map BucketObjectDiffEntry.diffEntry := by
  have hkind : ∀ row, decide ((mergedEntry row).kind = .different) = !isEqual row := by
    intro row
    rw [kind_mergedEntry]
    cases isEqual row <;> simp
  rw [← filter_common (by simp), h, List.filter_map, List.map_map,
    List.filter_congr fun row _ => by rw [Function.comp_apply, hkind row]]
  refine List.map_congr_left fun row hrow => ?_
  have hnot : isEqual row = false := by simpa using (List.mem_filter.mp hrow).2
  rw [Function.comp_apply, diffEntry_diffEntryOf hnot]

end Common

/-- What the comparison reports is the summary of the diff without the ignored keys. -/
theorem syncDiff_eq_summary (source target : CompareListing kind) (cutoff : Option ℤ) :
    (compareBucketContent source target cutoff).syncDiff =
      summary (bucketDiff (source.kept (isKept source target cutoff))
        (target.kept (isKept source target cutoff))) := by
  set keep := isKept source target cutoff with hkeep
  have hsource := increasing_kept keep source
  have htarget := increasing_kept keep target
  have hindex := excludeModifiedAfter_rowsOf source target cutoff
  rw [← hkeep] at hindex
  have honlySource := keys_onlyRows source target keep .source .target source target
    (entriesOf_source source target keep) (entriesOf_target source target keep)
  have honlyTarget := keys_onlyRows source target keep .target .source target source
    (entriesOf_target source target keep) (entriesOf_source source target keep)
  have hcountSource : countSide .source (rowsOf source target keep) = (source.kept keep).length := by
    rw [countSide, entriesOf_source, entries_eq, List.length_map]
  have hcountTarget : countSide .target (rowsOf source target keep) = (target.kept keep).length := by
    rw [countSide, entriesOf_target, entries_eq, List.length_map]
  have hcommon : common (bucketDiff (source.kept keep) (target.kept keep)) =
      (iterCommonRows (rowsOf source target keep)).map mergedEntry := by
    rw [common_bucketDiff hsource htarget, iterCommonRows_eq, List.map_map]
    rfl
  have hsourceKeys := onlySource_bucketDiff hsource htarget
  have htargetKeys := deletes_bucketDiff hsource htarget
  have hdelete : deleteRequired true = fun entry => decide (entry.kind = .onlyTarget) := by
    funext entry
    rw [deleteRequired, Bool.and_true]
  rw [hdelete] at htargetKeys
  rw [compareBucketContent, addObjects_listings]
  simp only [buildContentDiff, BucketContentDiff.syncDiff, hindex, honlySource, honlyTarget,
    compareCommonObjects, foldl_compareCommonObject, hcountSource, hcountTarget, summary,
    SyncDiff.mk.injEq, countP_source, countP_target, countP_matched hcommon,
    countP_different hcommon, filter_different hcommon, hsourceKeys, htargetKeys, List.map_take,
    true_and, and_true]
  refine ⟨?_, ?_⟩
  · have hlength := congrArg List.length hsourceKeys
    rw [List.length_map, List.length_map, ← List.countP_eq_length_filter] at hlength
    exact hlength.symm
  · have hlength := congrArg List.length htargetKeys
    rw [List.length_map, List.length_map, ← List.countP_eq_length_filter] at hlength
    exact hlength.symm

/-- For every cutoff the comparison reports the counts and the samples that the diff of a migration
finds between the listings without the ignored keys. -/
theorem comparison_agrees (source target : CompareListing kind) (cutoff : Option ℤ) :
    (compareBucketContent source target cutoff).syncDiff =
      (bucketDiff (source.kept (isKept source target cutoff))
        (target.kept (isKept source target cutoff))).foldl recordDiffEntry {} := by
  rw [foldl_recordDiffEntry]
  exact syncDiff_eq_summary source target cutoff

end Comparison
end BucketReef

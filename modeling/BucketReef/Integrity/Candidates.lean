import BucketReef.Integrity.Buckets
import BucketReef.Integrity.VerificationRuns
import BucketReef.Versions.CurrentVersion

/-!
# The candidates of a verification

The scan for candidates lists both buckets a second time, in pages of its own and with read errors of
its own. When it gets through, it has found the pairs that only their size makes equal, whatever the
pages were.
-/

namespace BucketReef
namespace Integrity

open CurrentObjects
open Versions hiding ControlState diffControlCheckIntervalObjects

/-! ## Current objects -/

theorem iterBucketObjects_of_split {kind : ContentKind} {objects : List (StoredObject kind)}
    {pages : List (ObjectPage kind)} (h : ObjectSplit objects pages) :
    iterBucketObjects pages = objects := by
  induction h with
  | last hlast => rw [iterBucketObjects, if_neg (by simp [hlast])]
  | more hmore _ ih => rw [iterBucketObjects, if_pos hmore, ih]

/-! ## Reads that raise -/

/-- The second reader answers what the first one does. -/
structure Extends (reader reader' : DetailsReader) : Prop where
  source : ∀ entry details, reader.source entry = some details → reader'.source entry = some details
  target : ∀ entry details, reader.target entry = some details → reader'.target entry = some details

section Reads

variable {reader reader' : DetailsReader} {key : String}

theorem Extends.objectPair (h : Extends reader reader') {a b : BucketVersionEntry}
    {out : TimelineDifference ⊕ Option VersionTimelineDiffKey}
    (hpair : compareVersionTimelineObjectPair reader key a b = some out) :
    compareVersionTimelineObjectPair reader' key a b = some out := by
  unfold compareVersionTimelineObjectPair at hpair ⊢
  obtain ⟨source, hsource, hpair⟩ := Option.bind_eq_some_iff.mp hpair
  obtain ⟨target, htarget, hpair⟩ := Option.bind_eq_some_iff.mp hpair
  rw [h.source _ _ hsource, h.target _ _ htarget]
  exact hpair

theorem Extends.entryPair (h : Extends reader reader') {a b : BucketVersionEntry}
    {out : TimelineDifference ⊕ Option VersionTimelineDiffKey}
    (hpair : compareVersionTimelineEntryPair reader key a b = some out) :
    compareVersionTimelineEntryPair reader' key a b = some out := by
  unfold compareVersionTimelineEntryPair at hpair ⊢
  split_ifs at hpair ⊢ with hkind hmarker
  · exact hpair
  · exact hpair
  · exact h.objectPair hpair

theorem Extends.entries (h : Extends reader reader')
    {zipped : List (BucketVersionEntry × BucketVersionEntry)} {pairs : List VersionTimelineDiffKey}
    {comparison : VersionTimelineComparison}
    (hentries : compareEntries reader key zipped pairs = some comparison) :
    compareEntries reader' key zipped pairs = some comparison := by
  induction zipped generalizing pairs with
  | nil => exact hentries
  | cons entry rest ih =>
    obtain ⟨a, b⟩ := entry
    rw [compareEntries] at hentries ⊢
    cases hpair : compareVersionTimelineEntryPair reader key a b with
    | none =>
      rw [hpair] at hentries
      cases hentries
    | some out =>
      rw [hpair] at hentries
      rw [h.entryPair hpair]
      rcases out with difference | _ | pair
      · exact hentries
      · exact ih hentries
      · exact ih hentries

/-- A comparison whose reads succeed does not depend on the reads that raise elsewhere. -/
theorem Extends.timelinePair (h : Extends reader reader') {source target : Timeline}
    {comparison : VersionTimelineComparison}
    (hpair : compareVersionTimelinePair reader key source target = some comparison) :
    compareVersionTimelinePair reader' key source target = some comparison := by
  unfold compareVersionTimelinePair at hpair ⊢
  split_ifs at hpair ⊢
  · exact hpair
  · exact h.entries hpair

theorem Extends.candidates (h : Extends reader reader') {merged : MergedTimeline}
    {pairs : List VersionTimelineDiffKey} (hmerged : versionAwareCandidates reader merged = some pairs) :
    versionAwareCandidates reader' merged = some pairs := by
  cases merged with
  | onlySource key timeline => exact hmerged
  | onlyTarget key timeline => exact hmerged
  | both key source target =>
    obtain ⟨comparison, hcomparison, rfl⟩ := Option.map_eq_some_iff.mp hmerged
    rw [versionAwareCandidates, h.timelinePair hcomparison, Option.map_some]

end Reads

theorem reader_extends (buckets : VersionedBuckets) (faults : DetailFaults) :
    Extends (buckets.reader faults) (buckets.reader .none) := by
  have hdetails : ∀ (bucket : VersionedBucket) (fails : BucketVersionEntry → Bool) entry details,
      bucket.details fails entry = some details →
        bucket.details (fun _ => false) entry = some details := by
    intro bucket fails entry details h
    unfold VersionedBucket.details at h ⊢
    split_ifs at h
    exact h
  exact ⟨hdetails _ _, hdetails _ _⟩

theorem entries_total (buckets : VersionedBuckets) (key : String)
    (zipped : List (BucketVersionEntry × BucketVersionEntry)) (pairs : List VersionTimelineDiffKey) :
    ∃ comparison, compareEntries (buckets.reader .none) key zipped pairs = some comparison := by
  induction zipped generalizing pairs with
  | nil => exact ⟨_, rfl⟩
  | cons entry rest ih =>
    obtain ⟨a, b⟩ := entry
    have hpair : ∃ out, compareVersionTimelineEntryPair (buckets.reader .none) key a b = some out := by
      unfold compareVersionTimelineEntryPair
      split_ifs
      · exact ⟨_, rfl⟩
      · exact ⟨_, rfl⟩
      · unfold compareVersionTimelineObjectPair
        simp only [VersionedBuckets.reader, VersionedBucket.details, DetailFaults.none,
          Bool.false_eq_true, if_false, Option.bind_eq_bind, Option.bind_some]
        split
        · exact ⟨_, rfl⟩
        · exact ⟨_, rfl⟩
    obtain ⟨out, hout⟩ := hpair
    rw [compareEntries, hout]
    rcases out with difference | _ | pair
    · exact ⟨_, rfl⟩
    · exact ih pairs
    · exact ih (pairs ++ [pair])

theorem timelinePair_total (buckets : VersionedBuckets) (key : String) (source target : Timeline) :
    ∃ comparison, compareVersionTimelinePair (buckets.reader .none) key source target =
      some comparison := by
  unfold compareVersionTimelinePair
  split_ifs
  · exact ⟨_, rfl⟩
  · exact entries_total buckets key (source.zip target) []

/-- Without read errors every key has its candidates. -/
theorem candidates_total (buckets : VersionedBuckets) (merged : MergedTimeline) :
    ∃ pairs, versionAwareCandidates (buckets.reader .none) merged = some pairs := by
  cases merged with
  | onlySource key timeline => exact ⟨_, rfl⟩
  | onlyTarget key timeline => exact ⟨_, rfl⟩
  | both key source target =>
    obtain ⟨comparison, hcomparison⟩ := timelinePair_total buckets key source target
    exact ⟨_, by rw [versionAwareCandidates, hcomparison, Option.map_some]⟩

/-! ## Arrival indices -/

/-- The reader answers by key and version. -/
structure Unindexed (reader : DetailsReader) : Prop where
  source : ∀ entry, reader.source (erase entry) = reader.source entry
  target : ∀ entry, reader.target (erase entry) = reader.target entry

theorem reader_unindexed (buckets : VersionedBuckets) : Unindexed (buckets.reader .none) :=
  ⟨fun _ => rfl, fun _ => rfl⟩

def eraseMerged : MergedTimeline → MergedTimeline
  | .onlySource key timeline => .onlySource key (timeline.map erase)
  | .onlyTarget key timeline => .onlyTarget key (timeline.map erase)
  | .both key source target => .both key (source.map erase) (target.map erase)

theorem Unindexed.entries {reader : DetailsReader} (h : Unindexed reader) (key : String)
    (zipped : List (BucketVersionEntry × BucketVersionEntry)) (pairs : List VersionTimelineDiffKey) :
    compareEntries reader key (zipped.map (Prod.map erase erase)) pairs =
      compareEntries reader key zipped pairs := by
  induction zipped generalizing pairs with
  | nil => rfl
  | cons entry rest ih =>
    obtain ⟨a, b⟩ := entry
    have hpair : compareVersionTimelineEntryPair reader key (erase a) (erase b) =
        compareVersionTimelineEntryPair reader key a b := by
      unfold compareVersionTimelineEntryPair compareVersionTimelineObjectPair
      rw [h.source, h.target]
      rfl
    rw [List.map_cons, Prod.map_apply, compareEntries, compareEntries, hpair]
    simp only [ih]

theorem Unindexed.candidates {reader : DetailsReader} (h : Unindexed reader)
    (merged : MergedTimeline) :
    versionAwareCandidates reader (eraseMerged merged) = versionAwareCandidates reader merged := by
  cases merged with
  | onlySource key timeline => rfl
  | onlyTarget key timeline => rfl
  | both key source target =>
    have hpair : compareVersionTimelinePair reader key (source.map erase) (target.map erase) =
        compareVersionTimelinePair reader key source target := by
      unfold compareVersionTimelinePair
      rw [List.length_map, List.length_map, List.zip_map, h.entries]
    rw [eraseMerged, versionAwareCandidates, versionAwareCandidates, hpair]

theorem iterMerged_erase (sources targets : List (String × Timeline)) :
    iterMergedVersionTimelines (sources.map eraseTimeline) (targets.map eraseTimeline) =
      (iterMergedVersionTimelines sources targets).map eraseMerged := by
  fun_induction iterMergedVersionTimelines sources targets with
  | case1 targets =>
    rw [List.map_nil, iterMergedVersionTimelines, List.map_map, List.map_map]
    rfl
  | case2 sources hne =>
    cases sources with
    | nil => exact absurd rfl hne
    | cons source sources =>
      rw [List.map_nil, List.map_cons, iterMergedVersionTimelines, ← List.map_cons, List.map_map,
        List.map_map]
      · rfl
      · exact List.cons_ne_nil _ _
  | case3 source sources target targets hlt ih =>
    rw [List.map_cons, List.map_cons, iterMergedVersionTimelines, if_pos (by exact hlt),
      ← List.map_cons, ih]
    rfl
  | case4 source sources target targets hge hlt ih =>
    rw [List.map_cons, List.map_cons, iterMergedVersionTimelines, if_neg (by exact hge),
      if_pos (by exact hlt), ← List.map_cons, ih]
    rfl
  | case5 source sources target targets hge hle ih =>
    rw [List.map_cons, List.map_cons, iterMergedVersionTimelines, if_neg (by exact hge),
      if_neg (by exact hle), ih]
    rfl

/-- Both listings of an unchanging bucket end, and show it alike. -/
theorem timelines_erased {bucket : VersionedBucket} (listing listing' : VersionedListing bucket) :
    listing.timelines.map eraseTimeline = listing'.timelines.map eraseTimeline := by
  obtain ⟨timelines, hscan, -⟩ := timelines_of_split bucket.ascending listing.split
  obtain ⟨timelines', hscan', -⟩ := timelines_of_split bucket.ascending listing'.split
  unfold VersionedListing.timelines
  rw [hscan, hscan']
  exact erased_timelines_eq bucket.ascending listing.split listing'.split hscan hscan'

/-- The candidates are the same for every cut into pages. -/
theorem candidates_page_independent (buckets : VersionedBuckets) :
    ((iterMergedVersionTimelines buckets.scanSource.timelines buckets.scanTarget.timelines).flatMap
      fun merged => (versionAwareCandidates (buckets.reader .none) merged).getD []) =
        buckets.sizeOnlyPairs := by
  have herase : ∀ merged : List MergedTimeline,
      (merged.flatMap fun merged => (versionAwareCandidates (buckets.reader .none) merged).getD []) =
        (merged.map eraseMerged).flatMap
          fun merged => (versionAwareCandidates (buckets.reader .none) merged).getD [] := by
    intro merged
    rw [List.flatMap_map]
    simp only [(reader_unindexed buckets).candidates]
  rw [VersionedBuckets.sizeOnlyPairs,
    herase (iterMergedVersionTimelines buckets.scanSource.timelines buckets.scanTarget.timelines),
    herase (iterMergedVersionTimelines buckets.diffSource.timelines buckets.diffTarget.timelines),
    ← iterMerged_erase, ← iterMerged_erase, timelines_erased buckets.scanSource buckets.diffSource,
    timelines_erased buckets.scanTarget buckets.diffTarget]

/-! ## The scan -/

section Scan

variable {α β : Type}

theorem yields_scanOf {rounds : List (Option (List α))} {fails : Option ℕ} {candidates : List α}
    (h : (scanOf rounds fails).Yields candidates) :
    ∃ found : List (List α), rounds = found.map some ∧ found.flatten = candidates := by
  cases fails with
  | none => exact h.2
  | some round => exact absurd h.1 Bool.false_ne_true

/-- Rounds that all succeed find what the reader that never raises finds. -/
theorem flatten_rounds {find total : β → Option (List α)} {l : List β} {found : List (List α)}
    (htotal : ∀ b pairs, find b = some pairs → total b = some pairs)
    (h : l.map find = found.map some) : found.flatten = l.flatMap fun b => (total b).getD [] := by
  induction l generalizing found with
  | nil =>
    cases found with
    | nil => rfl
    | cons _ _ => cases h
  | cons b l ih =>
    cases found with
    | nil => cases h
    | cons pairs found =>
      rw [List.map_cons, List.map_cons, List.cons.injEq] at h
      rw [List.flatten_cons, List.flatMap_cons, htotal b pairs h.1, Option.getD_some, ih h.2]

end Scan

theorem currentRounds_eq (buckets : CurrentBuckets) : buckets.rounds =
    ((bucketDiff buckets.source.objects buckets.target.objects).map currentCandidates).map some := by
  rw [CurrentBuckets.rounds, iterBucketObjects_of_split buckets.scanSource.split,
    iterBucketObjects_of_split buckets.scanTarget.split, List.map_map]
  rfl

/-- A scan that gets through has found the pairs that only their size makes equal. -/
theorem candidates_of_scan {buckets : Buckets} {settings : Settings}
    {candidates : List VersionTimelineDiffKey} (h : (buckets.scan settings).Yields candidates) :
    candidates = buckets.sizeOnlyPairs := by
  cases buckets with
  | currentOnly buckets =>
    obtain ⟨found, hfound, rfl⟩ := yields_scanOf h
    rw [currentRounds_eq] at hfound
    rw [← List.map_injective_iff.mpr (Option.some_injective _) hfound, ← List.flatMap_def]
    rfl
  | versionAware buckets =>
    obtain ⟨found, hfound, rfl⟩ := yields_scanOf h
    rw [flatten_rounds (fun _ _ => (reader_extends buckets settings.scanFaults).candidates) hfound]
    exact candidates_page_independent buckets

/-- A scan that nothing disturbs gets through. -/
theorem scan_yields {buckets : Buckets} {settings : Settings} (hfails : settings.scanFails = none)
    (hfaults : settings.scanFaults = .none) : (buckets.scan settings).Yields buckets.sizeOnlyPairs := by
  cases buckets with
  | currentOnly buckets =>
    refine ⟨by simp [Buckets.scan, scanOf, hfails], _, ?_, List.flatMap_def.symm⟩
    simp only [Buckets.scan, scanOf, hfails]
    exact currentRounds_eq buckets
  | versionAware buckets =>
    refine ⟨by simp [Buckets.scan, scanOf, hfails], _, ?_,
      List.flatMap_def.symm.trans (candidates_page_independent buckets)⟩
    simp only [Buckets.scan, scanOf, hfails, hfaults, VersionedBuckets.rounds, List.map_map]
    refine List.map_congr_left fun merged _ => ?_
    obtain ⟨pairs, hpairs⟩ := candidates_total buckets merged
    rw [hpairs, Function.comp_apply, hpairs, Option.getD_some]

end Integrity
end BucketReef

import BucketReef.Integrity.Candidates

/-!
# What a strong verification covers

A verification that completes an item has matched every source object or version with one of the
target, and has compared the contents of the pairs that only their size made equal. A pair of equal
contents fails when its first shared checksum was computed differently on both sides.
-/

namespace BucketReef
namespace Integrity

open CurrentObjects
open Versions hiding ControlState diffControlCheckIntervalObjects

/-! ## The comparison of contents -/

theorem streamObjectSha256_eq (sha256 : List UInt8 → String) (body : List UInt8) :
    streamObjectSha256 sha256 body = sha256 body := by
  have hfold : ∀ (chunks : List (List UInt8)) (acc : List UInt8),
      chunks.foldl (· ++ ·) acc = acc ++ chunks.flatten := by
    intro chunks
    induction chunks with
    | nil => simp
    | cons chunk rest ih =>
      intro acc
      rw [List.foldl_cons, ih, List.flatten_cons, List.append_assoc]
  rw [streamObjectSha256, hfold, List.nil_append, Lists.flatten_slices (by decide)]

/-- The contents have the same shared checksum, or without one the same SHA-256. -/
def ComparedEqual (sha256 : List UInt8 → String) (source target : ObjectState) : Prop :=
  (∃ field, sharedChecksum source.head target.head = some field ∧
    headObjectChecksums source.head field = headObjectChecksums target.head field) ∨
  sharedChecksum source.head target.head = none ∧ sha256 source.content = sha256 target.content

def Settings.ReadsSucceed (settings : Settings) (pair : VersionTimelineDiffKey) : Prop :=
  settings.sourceFaults pair = {} ∧ settings.targetFaults pair = {}

variable {buckets : Buckets} {settings : Settings} {pair : VersionTimelineDiffKey}

theorem head_of_reads {object : ObjectState} {faults : ReadFaults} {head : HeadResponse}
    (h : (object.reads faults).head = some head) : head = object.head := by
  simp only [ObjectState.reads] at h
  split_ifs at h
  exact (Option.some.inj h).symm

theorem body_of_reads {object : ObjectState} {faults : ReadFaults} {body : List UInt8}
    (h : (object.reads faults).body = some body) : body = object.content := by
  simp only [ObjectState.reads] at h
  split_ifs at h
  exact (Option.some.inj h).symm

theorem comparedEqual_of_passes (h : (buckets.worker settings).passes pair = true) :
    ComparedEqual settings.sha256 (buckets.sourceObject pair) (buckets.targetObject pair) := by
  unfold Worker.passes at h
  split at h
  · rename_i verified method hworker
    subst h
    unfold Buckets.worker strongVerifySingleObject at hworker
    obtain ⟨sourceHead, hsource, hworker⟩ := Option.bind_eq_some_iff.mp hworker
    obtain ⟨targetHead, htarget, hworker⟩ := Option.bind_eq_some_iff.mp hworker
    rw [head_of_reads hsource, head_of_reads htarget] at hworker
    cases hshared : sharedChecksum (buckets.sourceObject pair).head
        (buckets.targetObject pair).head with
    | some field =>
      rw [hshared] at hworker
      cases hequal : headObjectChecksums (buckets.sourceObject pair).head field ==
          headObjectChecksums (buckets.targetObject pair).head field with
      | false => simp [hequal] at hworker
      | true => exact .inl ⟨field, hshared, by simpa using hequal⟩
    | none =>
      rw [hshared] at hworker
      obtain ⟨sourceBody, hsource, hworker⟩ := Option.bind_eq_some_iff.mp hworker
      obtain ⟨targetBody, htarget, hworker⟩ := Option.bind_eq_some_iff.mp hworker
      rw [body_of_reads hsource, body_of_reads htarget] at hworker
      refine .inr ⟨hshared, ?_⟩
      simp only [streamObjectSha256_eq, pure, Option.some.injEq, Prod.mk.injEq, beq_iff_eq] at hworker
      exact hworker.1
  · cases h

/-- When the reads succeed, the worker decides the comparison. -/
theorem passes_iff (hreads : settings.ReadsSucceed pair) :
    (buckets.worker settings).passes pair = true ↔
      ComparedEqual settings.sha256 (buckets.sourceObject pair) (buckets.targetObject pair) := by
  refine ⟨comparedEqual_of_passes, fun h => ?_⟩
  have hworker : buckets.worker settings pair = strongVerifySingleObject settings.sha256
      ⟨some (buckets.sourceObject pair).head, some (buckets.sourceObject pair).content⟩
      ⟨some (buckets.targetObject pair).head, some (buckets.targetObject pair).content⟩ := by
    rw [Buckets.worker, hreads.1, hreads.2]
    rfl
  unfold Worker.passes
  rw [hworker]
  rcases h with ⟨field, hshared, hequal⟩ | ⟨hshared, hequal⟩
  · simp [strongVerifySingleObject, hshared, hequal]
  · simp [strongVerifySingleObject, hshared, streamObjectSha256_eq, hequal]

/-! ## What is covered -/

/-- Both tags spell the same MD5 digest. -/
def SameMd5 (source target : Option String) : Prop :=
  ∃ digest, etagMd5 source = some digest ∧ etagMd5 target = some digest

/-- Every source object has one of its key in the target with the same MD5 tag, or they were compared
and found equal. -/
def CurrentBuckets.Covered (buckets : CurrentBuckets) (sha256 : List UInt8 → String)
    (compared : List VersionTimelineDiffKey) : Prop :=
  ∀ object ∈ buckets.source.objects, ∃ other ∈ buckets.target.objects, other.key = object.key ∧
    (SameMd5 object.entry.etag other.entry.etag ∨
      ⟨object.key, none, none⟩ ∈ compared ∧
        ComparedEqual sha256 (buckets.source.object object.key) (buckets.target.object object.key))

/-- Every source version has one of its key in the target with the same checksum or MD5 tag, or they
were compared and found equal. -/
def VersionedBuckets.Covered (buckets : VersionedBuckets) (sha256 : List UInt8 → String)
    (compared : List VersionTimelineDiffKey) : Prop :=
  ∀ entry ∈ validEntries buckets.source.listing, entry.isDeleteMarker = false →
    ∃ other ∈ validEntries buckets.target.listing, other.key = entry.key ∧
      other.isDeleteMarker = false ∧
      (SameMd5 (buckets.source.version entry.key entry.versionId).details.etag
          (buckets.target.version other.key other.versionId).details.etag ∨
        (∃ field value,
          (buckets.source.version entry.key entry.versionId).details.checksums.lookup field =
            some value ∧
          (buckets.target.version other.key other.versionId).details.checksums.lookup field =
            some value) ∨
        ⟨entry.key, some entry.versionId, some other.versionId⟩ ∈ compared ∧
          ComparedEqual sha256 (buckets.source.version entry.key entry.versionId).object
            (buckets.target.version other.key other.versionId).object)

def Buckets.Covered (buckets : Buckets) (sha256 : List UInt8 → String)
    (compared : List VersionTimelineDiffKey) : Prop :=
  match buckets with
  | currentOnly buckets => buckets.Covered sha256 compared
  | versionAware buckets => buckets.Covered sha256 compared

/-- For every run of the step on these buckets: a completed item is covered; a verification that
returns has compared every size-only pair once and counted it; and a pair of equal contents whose
reads succeed does not fail. -/
structure StrongVerification (buckets : Buckets) : Prop where
  covered : ∀ settings schedule, runVerifyStep buckets settings schedule = .completed →
    ∃ count results, buckets.strongVerify settings schedule = .ok (count, results) ∧
      buckets.Covered settings.sha256 results.compared
  counted : ∀ settings schedule count results,
    buckets.strongVerify settings schedule = .ok (count, results) →
      results.compared.Perm buckets.sizeOnlyPairs ∧ count = buckets.sizeOnlyPairs.length ∧
        results.verifiedCount + results.failed.length = count
  spared : ∀ settings schedule count results,
    buckets.strongVerify settings schedule = .ok (count, results) → ∀ pair ∈ results.failed,
      (buckets.sourceObject pair).content = (buckets.targetObject pair).content →
        ¬ settings.ReadsSucceed pair

/-- Equal contents of a size-only pair have the same value of the first checksum they share. -/
def ChecksumsAgree (buckets : Buckets) : Prop :=
  ∀ pair ∈ buckets.sizeOnlyPairs,
    (buckets.sourceObject pair).content = (buckets.targetObject pair).content →
    ∀ field, sharedChecksum (buckets.sourceObject pair).head (buckets.targetObject pair).head =
      some field →
        headObjectChecksums (buckets.sourceObject pair).head field =
          headObjectChecksums (buckets.targetObject pair).head field

/-! ## The verification -/

theorem strongVerify_ok {schedule : Schedule VersionTimelineDiffKey} {count : ℕ}
    {results : VerificationResults VersionTimelineDiffKey}
    (h : buckets.strongVerify settings schedule = .ok (count, results)) :
    Sound (buckets.worker settings) results ∧ results.compared.Perm buckets.sizeOnlyPairs ∧
      count = buckets.sizeOnlyPairs.length := by
  have hok : ∃ candidates, (buckets.scan settings).Yields candidates ∧
      Sound (buckets.worker settings) results ∧ results.compared.Perm candidates ∧
        count = candidates.length := by
    cases buckets with
    | currentOnly _ => exact verifyCandidates_ok (flushCurrentVerificationBatch_flushes _) h
    | versionAware _ => exact verifyCandidates_ok flushVersionAwareVerificationBatch_flushes h
  obtain ⟨candidates, hyields, hsound, hperm, hcount⟩ := hok
  rw [candidates_of_scan hyields] at hperm hcount
  exact ⟨hsound, hperm, hcount⟩

theorem strongVerify_returns (hfails : settings.scanFails = none)
    (hfaults : settings.scanFaults = .none) :
    ∃ count results, buckets.strongVerify settings (quiet _) = .ok (count, results) := by
  have hyields := @scan_yields buckets _ hfails hfaults
  have hreturns : ∃ out, buckets.strongVerify settings (quiet _) = .ok out := by
    cases buckets with
    | currentOnly _ => exact verifyCandidates_returns (flushCurrentVerificationBatch_returns _) hyields
    | versionAware _ => exact verifyCandidates_returns flushVersionAwareVerificationBatch_returns hyields
  obtain ⟨⟨count, results⟩, hout⟩ := hreturns
  exact ⟨count, results, hout⟩

/-! ## Coverage of current objects -/

def IsClean (diff : SyncDiff) : Prop :=
  diff.differentCount = 0 ∧ diff.onlySourceCount = 0 ∧ diff.onlyTargetCount = 0

theorem recordDiffEntry_clean {diff : SyncDiff} {entry : BucketDiffEntry}
    (h : IsClean (recordDiffEntry diff entry)) : IsClean diff ∧ entry.kind = .matched := by
  unfold recordDiffEntry at h
  cases hkind : entry.kind with
  | matched =>
    rw [hkind] at h
    exact ⟨h, rfl⟩
  | onlySource =>
    rw [hkind] at h
    exact absurd h.2.1 (Nat.succ_ne_zero _)
  | onlyTarget =>
    rw [hkind] at h
    exact absurd h.2.2 (Nat.succ_ne_zero _)
  | different =>
    rw [hkind] at h
    exact absurd h.1 (Nat.succ_ne_zero _)

/-- A diff that is clean saw nothing but matches. -/
theorem compareBucketsStreamed_clean {goesOn : ℕ → Bool} {entries : List BucketDiffEntry}
    {scanned checks : ℕ} {diff diff' : SyncDiff}
    (h : compareBucketsStreamed goesOn entries scanned checks diff = some diff')
    (hclean : IsClean diff') : IsClean diff ∧ ∀ entry ∈ entries, entry.kind = .matched := by
  induction entries generalizing scanned checks diff with
  | nil =>
    cases h
    exact ⟨hclean, by simp⟩
  | cons entry rest ih =>
    have hrest : IsClean (recordDiffEntry diff entry) ∧ ∀ entry ∈ rest, entry.kind = .matched := by
      rw [compareBucketsStreamed] at h
      split_ifs at h
      · exact ih h
      · exact ih h
    obtain ⟨hdiff, hentry⟩ := recordDiffEntry_clean hrest.1
    exact ⟨hdiff, List.forall_mem_cons.mpr ⟨hentry, hrest.2⟩⟩

section Current

variable {kind : ContentKind} {sources targets : List (StoredObject kind)}

/-- Objects of one key meet in the merge. -/
theorem mem_bucketDiff (hsources : Increasing sources) (htargets : Increasing targets)
    {object other : StoredObject kind} (hobject : object ∈ sources) (hother : other ∈ targets)
    (hkey : other.key = object.key) :
    compareCurrentObjectEntries object.entry other.entry ∈ bucketDiff sources targets := by
  fun_induction bucketDiff sources targets with
  | case1 targets => cases hobject
  | case2 sources _ => cases hother
  | case3 source sources target targets hlt ih =>
    rcases List.mem_cons.mp hobject with rfl | hobject
    · exact absurd hkey (ne_of_gt (lt_of_lt_head htargets hlt other hother))
    · exact List.mem_cons_of_mem _ (ih (increasing_cons.mp hsources).2 htargets hobject hother)
  | case4 source sources target targets _ hlt ih =>
    rcases List.mem_cons.mp hother with rfl | hother
    · exact absurd hkey (ne_of_lt (lt_of_lt_head hsources hlt object hobject))
    · exact List.mem_cons_of_mem _ (ih hsources (increasing_cons.mp htargets).2 hobject hother)
  | case5 source sources target targets hle hge ih =>
    have heq : target.key = source.key := le_antisymm (not_lt.mp hle) (not_lt.mp hge)
    obtain ⟨hfirst, hsources⟩ := increasing_cons.mp hsources
    obtain ⟨hhead, htargets⟩ := increasing_cons.mp htargets
    rcases List.mem_cons.mp hobject with rfl | hobject <;>
      rcases List.mem_cons.mp hother with rfl | hother
    · exact List.mem_cons_self
    · exact absurd (hkey.trans heq.symm) (ne_of_gt (hhead other hother))
    · exact absurd (heq.symm.trans hkey) (ne_of_lt (hfirst object hobject))
    · exact List.mem_cons_of_mem _ (ih hsources htargets hobject hother)

/-- When every entry matches, every source object has a matching target object. -/
theorem exists_matching (hsources : Increasing sources) (htargets : Increasing targets)
    (hmatched : ∀ entry ∈ bucketDiff sources targets, entry.kind = .matched)
    {object : StoredObject kind} (hobject : object ∈ sources) :
    ∃ other ∈ targets, other.key = object.key ∧ matching object other = true := by
  have hcopies : (sources.filter (needsCopy targets)).map StoredObject.key = [] := by
    rw [← copies_bucketDiff hsources htargets, List.map_eq_nil_iff, List.filter_eq_nil_iff]
    intro entry hentry
    simp [copyRequired, hmatched entry hentry]
  have hneeds := List.filter_eq_nil_iff.mp (List.map_eq_nil_iff.mp hcopies) object hobject
  simp only [needsCopy, Bool.or_eq_true, Bool.not_eq_true', not_or, Bool.not_eq_false] at hneeds
  obtain ⟨other, hother, hkey⟩ := hasKey_iff.mp hneeds.1
  refine ⟨other, hother, hkey, ?_⟩
  by_contra hne
  refine hneeds.2 (List.any_eq_true.mpr ⟨other, hother, ?_⟩)
  simp [hkey, Bool.eq_false_iff.mpr hne]

theorem sameMd5_or_size {object other : StoredObject kind} (h : matching object other = true) :
    SameMd5 object.entry.etag other.entry.etag ∨
      currentCandidates (compareCurrentObjectEntries object.entry other.entry) =
        [⟨object.key, none, none⟩] := by
  unfold matching at h
  cases hsource : etagMd5 object.entry.etag with
  | some digest =>
    cases htarget : etagMd5 other.entry.etag with
    | some digest' =>
      simp only [CurrentObjects.compareContents, hsource, htarget, decide_eq_true_eq] at h
      exact .inl ⟨digest, hsource, h ▸ htarget⟩
    | none =>
      have hcontents : CurrentObjects.compareContents object.entry other.entry =
          (.size, decide (object.entry.size = other.entry.size)) := by
        simp [CurrentObjects.compareContents, hsource, htarget]
      rw [hcontents] at h
      exact .inr (by simp [currentCandidates, compareCurrentObjectEntries, hcontents, h])
  | none =>
    have hcontents : CurrentObjects.compareContents object.entry other.entry =
        (.size, decide (object.entry.size = other.entry.size)) := by
      simp [CurrentObjects.compareContents, hsource]
    rw [hcontents] at h
    exact .inr (by simp [currentCandidates, compareCurrentObjectEntries, hcontents, h])

end Current

/-- What passed among the size-only pairs. -/
def Passed (buckets : Buckets) (sha256 : List UInt8 → String)
    (compared : List VersionTimelineDiffKey) : Prop :=
  ∀ pair ∈ buckets.sizeOnlyPairs, pair ∈ compared ∧
    ComparedEqual sha256 (buckets.sourceObject pair) (buckets.targetObject pair)

theorem current_covered {buckets : CurrentBuckets} {goesOn : ℕ → Bool} {diff : DiffCounts}
    {sha256 : List UInt8 → String} {compared : List VersionTimelineDiffKey}
    (hdiff : buckets.diff goesOn = some diff) (hclean : diff.isClean = true)
    (hpassed : Passed (.currentOnly buckets) sha256 compared) : buckets.Covered sha256 compared := by
  obtain ⟨counts, hcounts, rfl⟩ := Option.map_eq_some_iff.mp hdiff
  rw [iterBucketObjects_of_split buckets.diffSource.split,
    iterBucketObjects_of_split buckets.diffTarget.split] at hcounts
  have hclean : IsClean counts := by
    simpa [DiffCounts.isClean, IsClean, and_assoc] using hclean
  obtain ⟨-, hmatched⟩ := compareBucketsStreamed_clean hcounts hclean
  intro object hobject
  obtain ⟨other, hother, hkey, hmatching⟩ :=
    exists_matching buckets.source.increasing buckets.target.increasing hmatched hobject
  refine ⟨other, hother, hkey, (sameMd5_or_size hmatching).imp_right fun hcandidates => ?_⟩
  have hpair : (⟨object.key, none, none⟩ : VersionTimelineDiffKey) ∈ buckets.sizeOnlyPairs :=
    List.mem_flatMap.mpr ⟨_, mem_bucketDiff buckets.source.increasing buckets.target.increasing
      hobject hother hkey, by rw [hcandidates]; exact List.mem_singleton_self _⟩
  exact hpassed _ hpair

/-! ## Coverage of versions -/

section Versions

variable {reader : DetailsReader} {key : String}

/-- An equal pair of versions was compared by a checksum, by MD5, or only by size. -/
theorem compareContent_equal {source target : VersionedObjectDetails} {compareBy : CompareBy}
    (h : compareContent source target = (compareBy, true)) :
    SameMd5 source.etag target.etag ∨
      (∃ field value, source.checksums.lookup field = some value ∧
        target.checksums.lookup field = some value) ∨ compareBy = .size := by
  unfold compareContent at h
  split at h
  · rename_i field hfind
    have hshared := List.find?_some hfind
    simp only [Bool.and_eq_true, Option.isSome_iff_exists] at hshared
    obtain ⟨⟨value, hvalue⟩, -⟩ := hshared
    simp only [Prod.mk.injEq, beq_iff_eq] at h
    exact .inr (.inl ⟨field, value, hvalue, h.2 ▸ hvalue⟩)
  · split at h
    · rename_i sourceMd5 targetMd5 hsource htarget
      simp only [Prod.mk.injEq, beq_iff_eq] at h
      exact .inl ⟨sourceMd5, hsource, h.2 ▸ htarget⟩
    · simp only [Prod.mk.injEq] at h
      exact .inr (.inr h.1.symm)

/-- What an entry pair that compares equal has read. -/
theorem entryPair_equal {a b : BucketVersionEntry} {out : Option VersionTimelineDiffKey}
    (h : compareVersionTimelineEntryPair reader key a b = some (.inr out))
    (hobject : a.isDeleteMarker = false) :
    b.isDeleteMarker = false ∧ ∃ source target compareBy, reader.source a = some source ∧
      reader.target b = some target ∧ compareContent source target = (compareBy, true) ∧
      (compareBy = .size → out = some ⟨key, some a.versionId, some b.versionId⟩) := by
  have hkind := compareVersionTimelineEntryPair_kind h
  refine ⟨hkind ▸ hobject, ?_⟩
  rw [compareVersionTimelineEntryPair, if_neg (not_not.mpr hkind), if_neg (by simp [hobject])] at h
  unfold compareVersionTimelineObjectPair at h
  obtain ⟨source, hsource, h⟩ := Option.bind_eq_some_iff.mp h
  obtain ⟨target, htarget, h⟩ := Option.bind_eq_some_iff.mp h
  refine ⟨source, target, (compareContent source target).1, hsource, htarget, ?_, ?_⟩
  · cases hcontent : compareContent source target with
    | mk compareBy equal =>
      cases equal with
      | true => rfl
      | false =>
        simp [compareVersionedObjectDetails, hcontent] at h
  · intro hsize
    cases hcontent : compareContent source target with
    | mk compareBy equal =>
      rw [hcontent] at hsize
      dsimp only at hsize
      subst hsize
      cases equal with
      | false => simp [compareVersionedObjectDetails, hcontent] at h
      | true =>
        cases hfield : firstDifferentField source target with
        | some field => simp [compareVersionedObjectDetails, hcontent, hfield] at h
        | none =>
          simp only [compareVersionedObjectDetails, hcontent, hfield, Option.map_none] at h
          cases h
          rfl

theorem entries_equal {zipped : List (BucketVersionEntry × BucketVersionEntry)}
    {pairs : List VersionTimelineDiffKey} {comparison : VersionTimelineComparison}
    (h : compareEntries reader key zipped pairs = some comparison)
    (hequal : comparison.firstDifference = none) :
    (∀ pair ∈ pairs, pair ∈ comparison.sizeOnlyPairs) ∧ ∀ a b, (a, b) ∈ zipped →
      ∃ out, compareVersionTimelineEntryPair reader key a b = some (.inr out) ∧
        ∀ pair, out = some pair → pair ∈ comparison.sizeOnlyPairs := by
  induction zipped generalizing pairs with
  | nil =>
    cases h
    exact ⟨fun _ hpair => hpair, by simp⟩
  | cons entry rest ih =>
    obtain ⟨a, b⟩ := entry
    rw [compareEntries] at h
    split at h
    · cases h
    · cases h
      cases hequal
    · rename_i hpair
      obtain ⟨hkept, hrest⟩ := ih h
      refine ⟨hkept, fun a' b' hin => ?_⟩
      rcases List.mem_cons.mp hin with heq | hin
      · cases heq
        exact ⟨none, hpair, by rintro _ ⟨⟩⟩
      · exact hrest a' b' hin
    · rename_i pair hpair
      obtain ⟨hkept, hrest⟩ := ih h
      refine ⟨fun p hp => hkept p (List.mem_append_left _ hp), fun a' b' hin => ?_⟩
      rcases List.mem_cons.mp hin with heq | hin
      · cases heq
        refine ⟨some pair, hpair, ?_⟩
        rintro _ ⟨⟩
        exact hkept pair (List.mem_append_right _ (List.mem_singleton_self _))
      · exact hrest a' b' hin

/-- When every key matches, a source timeline is compared with one of its key. -/
theorem exists_both {sources targets : List (String × Timeline)}
    (h : ∀ m ∈ iterMergedVersionTimelines sources targets, Matched reader m)
    {p : String × Timeline} (hp : p ∈ sources) :
    ∃ q ∈ targets, q.1 = p.1 ∧ .both p.1 p.2 q.2 ∈ iterMergedVersionTimelines sources targets := by
  fun_induction iterMergedVersionTimelines sources targets with
  | case1 targets => cases hp
  | case2 sources hne =>
    obtain ⟨_, _, _, _, hboth, -⟩ := h _ (List.mem_map_of_mem hp)
    cases hboth
  | case3 s sources t targets hlt ih =>
    obtain ⟨_, _, _, _, hboth, -⟩ := h (.onlySource s.1 s.2) (by simp)
    cases hboth
  | case4 s sources t targets _ hlt ih =>
    obtain ⟨_, _, _, _, hboth, -⟩ := h (.onlyTarget t.1 t.2) (by simp)
    cases hboth
  | case5 s sources t targets hge hle ih =>
    rcases List.mem_cons.mp hp with rfl | hp
    · exact ⟨t, List.mem_cons_self, le_antisymm (not_lt.mp hge) (not_lt.mp hle),
        List.mem_cons_self⟩
    · obtain ⟨q, hq, hkey, hin⟩ := ih (fun m hm => h m (List.mem_cons_of_mem _ hm)) hp
      exact ⟨q, List.mem_cons_of_mem t hq, hkey, List.mem_cons_of_mem _ hin⟩

end Versions

section Listings

variable {bucket : VersionedBucket} (listing : VersionedListing bucket)
include listing

/-- A version of the bucket is in the timeline of its key. -/
theorem exists_timeline {entry : BucketVersionEntry} (h : entry ∈ validEntries bucket.listing) :
    ∃ p ∈ listing.timelines, p.1 = entry.key ∧ ∃ found ∈ p.2, erase found = erase entry := by
  obtain ⟨timelines, hscan, -, hkeys, hperm⟩ := timelines_of_split bucket.ascending listing.split
  have htimelines : listing.timelines = timelines := by
    rw [VersionedListing.timelines, hscan]
  obtain ⟨p, hp, hkey⟩ := List.mem_map.mp ((hkeys entry.key).mpr ⟨entry, h, rfl⟩)
  refine ⟨p, htimelines ▸ hp, hkey, ?_⟩
  have hlisted : erase entry ∈ (ofKey p.1 (validEntries bucket.listing)).map erase :=
    List.mem_map_of_mem (List.mem_filter.mpr ⟨h, by simp [hkey]⟩)
  obtain ⟨found, hfound, heq⟩ := List.mem_map.mp ((hperm p hp).mem_iff.mpr hlisted)
  exact ⟨found, hfound, heq⟩

/-- A timeline holds versions of the bucket. -/
theorem listed_of_timeline {p : String × Timeline} (hp : p ∈ listing.timelines)
    {found : BucketVersionEntry} (hfound : found ∈ p.2) :
    ∃ entry ∈ validEntries bucket.listing, entry.key = p.1 ∧ erase entry = erase found := by
  obtain ⟨timelines, hscan, -, -, hperm⟩ := timelines_of_split bucket.ascending listing.split
  have htimelines : listing.timelines = timelines := by
    rw [VersionedListing.timelines, hscan]
  obtain ⟨entry, hentry, heq⟩ :=
    List.mem_map.mp ((hperm p (htimelines ▸ hp)).mem_iff.mp (List.mem_map_of_mem hfound))
  obtain ⟨hlisted, hkey⟩ := List.mem_filter.mp hentry
  exact ⟨entry, hlisted, by simpa using hkey, heq⟩

end Listings

theorem versioned_covered {buckets : VersionedBuckets} {faults : DetailFaults} {goesOn : ℕ → Bool}
    {diff : DiffCounts} {sha256 : List UInt8 → String} {compared : List VersionTimelineDiffKey}
    (hdiff : buckets.diff faults goesOn = some diff) (hclean : diff.isClean = true)
    (hpassed : Passed (.versionAware buckets) sha256 compared) :
    buckets.Covered sha256 compared := by
  obtain ⟨counts, hcounts, rfl⟩ := Option.map_eq_some_iff.mp hdiff
  have hclean : counts.IsClean := by
    simpa [DiffCounts.isClean, VersionAwareDiff.IsClean, and_assoc] using hclean
  obtain ⟨-, hmatched⟩ := compareMerged_clean hcounts hclean
  intro entry hentry hobject
  obtain ⟨p, hp, hkey, a, ha, herase⟩ := exists_timeline buckets.diffSource hentry
  obtain ⟨q, hq, hqkey, hboth⟩ := exists_both hmatched hp
  obtain ⟨_, _, _, comparison, heq, hcomparison, hequal⟩ := hmatched _ hboth
  cases heq
  have hextended := (reader_extends buckets faults).timelinePair hcomparison
  have hentries : p.2.length = q.2.length ∧
      compareEntries (buckets.reader faults) p.1 (p.2.zip q.2) [] = some comparison := by
    unfold compareVersionTimelinePair at hcomparison
    split_ifs at hcomparison with hlength
    · cases hcomparison
      cases hequal
    · exact ⟨not_not.mp hlength, hcomparison⟩
  obtain ⟨b, hab⟩ : ∃ b, (a, b) ∈ p.2.zip q.2 := by
    -- the timelines are of one length, so the first components of the pairs are the whole timeline
    have hfst : a ∈ (p.2.zip q.2).map Prod.fst := by
      rw [List.map_fst_zip hentries.1.le]
      exact ha
    obtain ⟨⟨_, b⟩, hab, rfl⟩ := List.mem_map.mp hfst
    exact ⟨b, hab⟩
  obtain ⟨out, hout, hpairs⟩ := (entries_equal hentries.2 hequal).2 a b hab
  have ha_marker : a.isDeleteMarker = false :=
    (congrArg BucketVersionEntry.isDeleteMarker herase).trans hobject
  obtain ⟨hb_marker, source, target, compareBy, hsource, htarget, hcontent, hsize⟩ :=
    entryPair_equal hout ha_marker
  obtain ⟨other, hother, hother_key, hother_erase⟩ :=
    listed_of_timeline buckets.diffTarget hq (List.of_mem_zip hab).2
  have ha_version : a.key = entry.key ∧ a.versionId = entry.versionId :=
    ⟨(congrArg BucketVersionEntry.key herase :), (congrArg BucketVersionEntry.versionId herase :)⟩
  have hb_version : b.key = other.key ∧ b.versionId = other.versionId :=
    ⟨(congrArg BucketVersionEntry.key hother_erase.symm :),
      (congrArg BucketVersionEntry.versionId hother_erase.symm :)⟩
  have hsource_eq : source = (buckets.source.version entry.key entry.versionId).details := by
    simp only [VersionedBuckets.reader, VersionedBucket.details] at hsource
    split_ifs at hsource
    rw [← ha_version.1, ← ha_version.2]
    exact (Option.some.inj hsource).symm
  have htarget_eq : target = (buckets.target.version other.key other.versionId).details := by
    simp only [VersionedBuckets.reader, VersionedBucket.details] at htarget
    split_ifs at htarget
    rw [← hb_version.1, ← hb_version.2]
    exact (Option.some.inj htarget).symm
  refine ⟨other, hother, hother_key.trans (hqkey.trans hkey),
    (congrArg BucketVersionEntry.isDeleteMarker hother_erase).trans hb_marker, ?_⟩
  rw [← hsource_eq, ← htarget_eq]
  refine (compareContent_equal hcontent).imp_right (Or.imp_right fun hby => ?_)
  have hpair := hpairs _ (hsize hby)
  have hcandidate : (⟨p.1, some a.versionId, some b.versionId⟩ : VersionTimelineDiffKey) ∈
      buckets.sizeOnlyPairs := by
    refine List.mem_flatMap.mpr ⟨_, hboth, ?_⟩
    rw [versionAwareCandidates, hextended, Option.map_some, Option.getD_some,
      VersionTimelineComparison.equal, hequal]
    exact hpair
  obtain ⟨hcompared, hcontents⟩ := hpassed _ hcandidate
  rw [hkey, ha_version.2, hb_version.2] at hcompared
  have hother_entry : other.key = entry.key := hother_key.trans (hqkey.trans hkey)
  refine ⟨hcompared, ?_⟩
  simp only [Buckets.sourceObject, Buckets.targetObject, Option.getD_some, hkey, ha_version.2,
    hb_version.2] at hcontents
  rwa [hother_entry]

/-! ## The verification as a whole -/

theorem covered_of_completed {schedule : Schedule VersionTimelineDiffKey}
    (h : runVerifyStep buckets settings schedule = .completed) :
    ∃ count results, buckets.strongVerify settings schedule = .ok (count, results) ∧
      buckets.Covered settings.sha256 results.compared := by
  unfold runVerifyStep at h
  split at h
  · cases h
  · rename_i diff hdiff
    split at h
    · cases h
    · rename_i hclean
      split at h
      · cases h
      · rename_i count results hverify
        split at h
        · rename_i hfailed
          refine ⟨count, results, hverify, ?_⟩
          obtain ⟨hsound, hperm, -⟩ := strongVerify_ok hverify
          have hclean : diff.isClean = true := by simpa using hclean
          have hpassed : Passed buckets settings.sha256 results.compared := by
            intro pair hpair
            have hcompared := hperm.mem_iff.mpr hpair
            refine ⟨hcompared, comparedEqual_of_passes ?_⟩
            have hnil := hsound.failed.symm.trans (List.isEmpty_iff.mp hfailed)
            simpa using List.filter_eq_nil_iff.mp hnil pair hcompared
          unfold Buckets.diff at hdiff
          split_ifs at hdiff
          cases buckets with
          | currentOnly buckets => exact current_covered hdiff hclean hpassed
          | versionAware buckets => exact versioned_covered hdiff hclean hpassed
        · cases h

/-- One comparison worker, no fault and a migration nobody stops. -/
def Settings.undisturbed : Settings where
  sha256 := fun _ => ""
  parallelismMax := 1
  goesOn := fun _ => true
  diffRaises := false
  diffFaults := .none
  scanFails := none
  scanFaults := .none
  sourceFaults := fun _ => {}
  targetFaults := fun _ => {}
  finalizes := true

theorem checksumsAgree_of_strongVerification (h : StrongVerification buckets) :
    ChecksumsAgree buckets := by
  intro pair hpair hcontent field hshared
  -- an undisturbed run compares the pair
  obtain ⟨count, results, hverify⟩ :=
    @strongVerify_returns buckets .undisturbed rfl rfl
  obtain ⟨hsound, hperm, -⟩ := strongVerify_ok hverify
  have hpasses : (buckets.worker .undisturbed).passes pair = true := by
    by_contra hfails
    have hfailed : pair ∈ results.failed := by
      rw [hsound.failed]
      exact List.mem_filter.mpr ⟨hperm.mem_iff.mpr hpair, by simpa using hfails⟩
    exact h.spared .undisturbed _ count results hverify pair hfailed hcontent ⟨rfl, rfl⟩
  rcases comparedEqual_of_passes hpasses with ⟨field', hshared', hequal⟩ | ⟨hnone, -⟩
  · rw [hshared'] at hshared
    cases hshared
    exact hequal
  · rw [hnone] at hshared
    cases hshared

/-- The verification is as strong as it is meant to be exactly for the buckets on which equal contents
never have different values of the checksum that decides. -/
theorem strongVerification_iff (buckets : Buckets) :
    StrongVerification buckets ↔ ChecksumsAgree buckets := by
  refine ⟨checksumsAgree_of_strongVerification, fun hagree => ?_⟩
  refine ⟨fun _ _ => covered_of_completed, fun _ _ _ _ hverify => ?_,
    fun settings _ _ results hverify pair hfailed hcontent hreads => ?_⟩
  · obtain ⟨hsound, hperm, hcount⟩ := strongVerify_ok hverify
    exact ⟨hperm, hcount, hsound.count.trans (hperm.length_eq.trans hcount.symm)⟩
  · obtain ⟨hsound, hperm, -⟩ := strongVerify_ok hverify
    rw [hsound.failed] at hfailed
    obtain ⟨hcompared, hfails⟩ := List.mem_filter.mp hfailed
    have hequal : ComparedEqual settings.sha256 (buckets.sourceObject pair)
        (buckets.targetObject pair) := by
      cases hshared : sharedChecksum (buckets.sourceObject pair).head
          (buckets.targetObject pair).head with
      | some field =>
        exact .inl ⟨field, hshared, hagree pair (hperm.mem_iff.mp hcompared) hcontent field hshared⟩
      | none => exact .inr ⟨hshared, congrArg settings.sha256 hcontent⟩
    rw [(passes_iff hreads).mpr hequal] at hfails
    cases hfails

end Integrity
end BucketReef

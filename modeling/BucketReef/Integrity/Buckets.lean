import BucketReef.Integrity.Verification
import BucketReef.Migration.CurrentSync
import BucketReef.Versions.PageSplits

/-!
# Verifying a migrated bucket

Two buckets that do not change are listed twice: by the final diff, and by the scan that looks for the
pairs only their size made equal. Each listing is cut into pages in its own way, and each read about an
object may raise.
-/

namespace BucketReef
namespace Integrity

open CurrentObjects
open Versions hiding ControlState diffControlCheckIntervalObjects

/-- What the requests about an object show of it. -/
structure ObjectState where
  head : HeadResponse
  content : List UInt8

/-- The reads about an object that raise. -/
structure ReadFaults where
  head : Bool := false
  body : Bool := false

def ObjectState.reads (object : ObjectState) (faults : ReadFaults) : ObjectReads where
  head := if faults.head then none else some object.head
  body := if faults.body then none else some object.content

/-- The counts of the final diff that `_run_verify_step` tests. -/
structure DiffCounts where
  differentCount : ℕ
  onlySourceCount : ℕ
  onlyTargetCount : ℕ
  deriving DecidableEq, Repr

def DiffCounts.isClean (diff : DiffCounts) : Bool :=
  diff.differentCount = 0 && diff.onlySourceCount = 0 && diff.onlyTargetCount = 0

/-- The rounds up to the request that raises, if one does. -/
def scanOf {α : Type} (rounds : List (Option (List α))) : Option ℕ → CandidateScan α
  | none => ⟨rounds, true⟩
  | some round => ⟨rounds.take round, false⟩

/-! ## Current objects -/

/-- Objects are byte strings. -/
def byteContent (md5 : List UInt8 → String) : ContentKind := ⟨List UInt8, List.length, md5⟩

/-- A `list_objects_v2` response. -/
structure ObjectPage (kind : ContentKind) where
  contents : List (StoredObject kind)
  nextContinuationToken : Option String

def iterBucketObjects {kind : ContentKind} : List (ObjectPage kind) → List (StoredObject kind)
  | [] => []
  | page :: rest =>
    if markerSet page.nextContinuationToken then page.contents ++ iterBucketObjects rest
    else page.contents

/-- The listing cut into pages; every page but the last carries a token for the next request. -/
inductive ObjectSplit {kind : ContentKind} :
    List (StoredObject kind) → List (ObjectPage kind) → Prop
  | last {page : ObjectPage kind} :
      markerSet page.nextContinuationToken = false → ObjectSplit page.contents [page]
  | more {rest : List (StoredObject kind)} {page : ObjectPage kind} {pages : List (ObjectPage kind)} :
      markerSet page.nextContinuationToken = true → ObjectSplit rest pages →
      ObjectSplit (page.contents ++ rest) (page :: pages)

structure CurrentBucket (md5 : List UInt8 → String) where
  objects : List (StoredObject (byteContent md5))
  increasing : Increasing objects
  head : String → HeadResponse

def CurrentBucket.object {md5 : List UInt8 → String} (bucket : CurrentBucket md5) (key : String) :
    ObjectState where
  head := bucket.head key
  content := match bucket.objects.find? fun object => object.key = key with
    | some object => object.content
    | none => []

/-- One listing of the bucket. -/
structure CurrentListing {md5 : List UInt8 → String} (bucket : CurrentBucket md5) where
  pages : List (ObjectPage (byteContent md5))
  split : ObjectSplit bucket.objects pages

def recordCurrentDiffEntry (diff : SyncDiff) (entry : BucketDiffEntry) : SyncDiff :=
  recordDiffEntry diff entry

/-- At intervals there is a control check; `goesOn n` tells whether the `n`-th one answers `run`.
Anything else ends the comparison without a diff. -/
def compareBucketsStreamed (goesOn : ℕ → Bool) :
    List BucketDiffEntry → ℕ → ℕ → SyncDiff → Option SyncDiff
  | [], _, _, diff => some diff
  | entry :: rest, scanned, checks, diff =>
    if Migration.diffControlCheckIntervalObjects ≤ scanned + 1 then
      if goesOn checks then
        compareBucketsStreamed goesOn rest 0 (checks + 1) (recordCurrentDiffEntry diff entry)
      else none
    else compareBucketsStreamed goesOn rest (scanned + 1) checks (recordCurrentDiffEntry diff entry)

/-- `_iter_current_size_only_diff_keys`, for one entry of the diff. -/
def currentCandidates (entry : BucketDiffEntry) : List VersionTimelineDiffKey :=
  if entry.kind = .matched ∧ entry.compareBy = .size then [⟨entry.key, none, none⟩] else []

structure CurrentBuckets where
  md5 : List UInt8 → String
  source : CurrentBucket md5
  target : CurrentBucket md5
  diffSource : CurrentListing source
  diffTarget : CurrentListing target
  scanSource : CurrentListing source
  scanTarget : CurrentListing target

namespace CurrentBuckets

def diff (buckets : CurrentBuckets) (goesOn : ℕ → Bool) : Option DiffCounts :=
  (compareBucketsStreamed goesOn (bucketDiff (iterBucketObjects buckets.diffSource.pages)
    (iterBucketObjects buckets.diffTarget.pages)) 0 0 {}).map fun diff =>
      ⟨diff.differentCount, diff.onlySourceCount, diff.onlyTargetCount⟩

def rounds (buckets : CurrentBuckets) : List (Option (List VersionTimelineDiffKey)) :=
  (bucketDiff (iterBucketObjects buckets.scanSource.pages)
    (iterBucketObjects buckets.scanTarget.pages)).map fun entry => some (currentCandidates entry)

/-- The pairs that only their size makes equal. -/
def sizeOnlyPairs (buckets : CurrentBuckets) : List VersionTimelineDiffKey :=
  (bucketDiff buckets.source.objects buckets.target.objects).flatMap currentCandidates

end CurrentBuckets

/-! ## Versions -/

/-- `_checksums_from_head_response`. -/
def checksumsFromHeadResponse (response : HeadResponse) : List (ChecksumField × String) :=
  versionChecksumFields.filterMap fun field =>
    (headObjectChecksums response field).map fun value => (field, value)

/-- A version: its head and tags as the diff reads them, and its contents. -/
structure VersionState where
  details : VersionedObjectDetails
  object : ObjectState
  checksums_eq : details.checksums = checksumsFromHeadResponse object.head

structure VersionedBucket where
  listing : List Listed
  ascending : (validEntries listing).Pairwise fun a b => a.key ≤ b.key
  version : String → String → VersionState

/-- One listing of the bucket. -/
structure VersionedListing (bucket : VersionedBucket) where
  pages : List Page
  split : Split bucket.listing pages

def VersionedListing.timelines {bucket : VersionedBucket} (listing : VersionedListing bucket) :
    List (String × Timeline) :=
  match iterBucketVersionTimelines listing.pages with
  | .ok timelines | .error timelines => timelines

/-- The reads of the details of versions that raise. -/
structure DetailFaults where
  source : BucketVersionEntry → Bool
  target : BucketVersionEntry → Bool

/-- No read raises. -/
def DetailFaults.none : DetailFaults := ⟨fun _ => false, fun _ => false⟩

def VersionedBucket.details (bucket : VersionedBucket) (fails : BucketVersionEntry → Bool)
    (entry : BucketVersionEntry) : Option VersionedObjectDetails :=
  if fails entry then Option.none else some (bucket.version entry.key entry.versionId).details

/-- `_iter_version_aware_size_only_pairs`, for one key of the merge. -/
def versionAwareCandidates (reader : DetailsReader) :
    MergedTimeline → Option (List VersionTimelineDiffKey)
  | .both key source target =>
    (compareVersionTimelinePair reader key source target).map fun comparison =>
      if comparison.equal then comparison.sizeOnlyPairs else []
  | .onlySource .. | .onlyTarget .. => some []

structure VersionedBuckets where
  source : VersionedBucket
  target : VersionedBucket
  diffSource : VersionedListing source
  diffTarget : VersionedListing target
  scanSource : VersionedListing source
  scanTarget : VersionedListing target

namespace VersionedBuckets

def reader (buckets : VersionedBuckets) (faults : DetailFaults) : DetailsReader where
  source := buckets.source.details faults.source
  target := buckets.target.details faults.target

def diff (buckets : VersionedBuckets) (faults : DetailFaults) (goesOn : ℕ → Bool) :
    Option DiffCounts :=
  (compareVersionedTimelines (buckets.reader faults) goesOn buckets.diffSource.timelines
    buckets.diffTarget.timelines).map fun diff =>
      ⟨diff.differentCount, diff.onlySourceCount, diff.onlyTargetCount⟩

def rounds (buckets : VersionedBuckets) (faults : DetailFaults) :
    List (Option (List VersionTimelineDiffKey)) :=
  (iterMergedVersionTimelines buckets.scanSource.timelines buckets.scanTarget.timelines).map
    (versionAwareCandidates (buckets.reader faults))

/-- The pairs that only their size makes equal. -/
def sizeOnlyPairs (buckets : VersionedBuckets) : List VersionTimelineDiffKey :=
  (iterMergedVersionTimelines buckets.diffSource.timelines buckets.diffTarget.timelines).flatMap
    fun merged => (versionAwareCandidates (buckets.reader .none) merged).getD []

end VersionedBuckets

/-! ## The step -/

/-- The buckets of an item, by the strategy of its migration. -/
inductive Buckets
  | currentOnly (buckets : CurrentBuckets)
  | versionAware (buckets : VersionedBuckets)

structure Settings where
  sha256 : List UInt8 → String
  parallelismMax : ℕ
  /-- The answers of the control checks of the diff. -/
  goesOn : ℕ → Bool
  /-- A listing request of the diff raises. -/
  diffRaises : Bool
  diffFaults : DetailFaults
  /-- The round of the second scan whose listing request raises. -/
  scanFails : Option ℕ
  scanFaults : DetailFaults
  /-- The reads of the workers that raise. -/
  sourceFaults : VersionTimelineDiffKey → ReadFaults
  targetFaults : VersionTimelineDiffKey → ReadFaults
  /-- The versioning state of the target can be restored. -/
  finalizes : Bool

namespace Buckets

def diff (buckets : Buckets) (settings : Settings) : Option DiffCounts :=
  if settings.diffRaises then none
  else match buckets with
    | currentOnly buckets => buckets.diff settings.goesOn
    | versionAware buckets => buckets.diff settings.diffFaults settings.goesOn

def scan (buckets : Buckets) (settings : Settings) : CandidateScan VersionTimelineDiffKey :=
  match buckets with
  | currentOnly buckets => scanOf buckets.rounds settings.scanFails
  | versionAware buckets => scanOf (buckets.rounds settings.scanFaults) settings.scanFails

def sizeOnlyPairs : Buckets → List VersionTimelineDiffKey
  | currentOnly buckets => buckets.sizeOnlyPairs
  | versionAware buckets => buckets.sizeOnlyPairs

def sourceObject (buckets : Buckets) (pair : VersionTimelineDiffKey) : ObjectState :=
  match buckets with
  | currentOnly buckets => buckets.source.object pair.key
  | versionAware buckets => (buckets.source.version pair.key (pair.sourceVersionId.getD "")).object

def targetObject (buckets : Buckets) (pair : VersionTimelineDiffKey) : ObjectState :=
  match buckets with
  | currentOnly buckets => buckets.target.object pair.key
  | versionAware buckets => (buckets.target.version pair.key (pair.targetVersionId.getD "")).object

def worker (buckets : Buckets) (settings : Settings) : Worker VersionTimelineDiffKey := fun pair =>
  strongVerifySingleObject settings.sha256
    ((buckets.sourceObject pair).reads (settings.sourceFaults pair))
    ((buckets.targetObject pair).reads (settings.targetFaults pair))

/-- `_strong_verify_size_only_candidates_streamed`, with the parallelism of `_verify_strong_integrity`. -/
def strongVerify (buckets : Buckets) (settings : Settings)
    (schedule : Schedule VersionTimelineDiffKey) :
    Except Stop (ℕ × VerificationResults VersionTimelineDiffKey) :=
  let parallelismMax := max 1 (min settings.parallelismMax 4)
  match buckets with
  | currentOnly _ => strongVerifyCurrentCandidatesStreamed schedule (buckets.worker settings)
      parallelismMax (buckets.scan settings)
  | versionAware _ => strongVerifyVersionAwareCandidates schedule (buckets.worker settings)
      parallelismMax (buckets.scan settings)

end Buckets

/-- How the step ends; `stopped` stands for a pause, a cancellation and an exception. -/
inductive VerifyOutcome
  | stopped
  | finalDiffNotClean (diff : DiffCounts)
  | strongVerificationFailed (sizeOnlyCount verifiedCount : ℕ) (failedKeys : List String)
  | completed
  deriving DecidableEq, Repr

/-- `_complete_item_after_verification`. -/
def completeItemAfterVerification (settings : Settings) : VerifyOutcome :=
  if settings.finalizes then .completed else .stopped

/-- The step of a migration with `strong_integrity_check`. -/
def runVerifyStep (buckets : Buckets) (settings : Settings)
    (schedule : Schedule VersionTimelineDiffKey) : VerifyOutcome :=
  match buckets.diff settings with
  | none => .stopped
  | some diff =>
    if !diff.isClean then .finalDiffNotClean diff
    else match buckets.strongVerify settings schedule with
      | .error _ => .stopped
      | .ok (sizeOnlyCount, results) =>
        if results.failed.isEmpty then completeItemAfterVerification settings
        else .strongVerificationFailed sizeOnlyCount results.verifiedCount
          (results.failed.map VersionTimelineDiffKey.key)

end Integrity
end BucketReef

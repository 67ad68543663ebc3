import BucketReef.Versions.Listing

/-!
# The version-aware diff

Source and target timelines are merged by key, and the two timelines of a common key are compared
entry by entry. The head and tagging reads of an object version are answered by a
`DetailsReader`. A run that is stopped by its control check, or whose remote reads raise, returns
no diff.
-/

namespace BucketReef
namespace Versions

/-! ## Object details -/

inductive ChecksumField
  | sha256 | crc32c | crc32 | sha1
  deriving DecidableEq, Repr

def versionChecksumFields : List ChecksumField := [.sha256, .crc32c, .crc32, .sha1]

/-- How two object versions were compared. -/
inductive CompareBy
  | checksum (field : ChecksumField) | md5 | size
  deriving DecidableEq, Repr

/-- The properties compared after the content. -/
inductive DetailField
  | contentType | cacheControl | contentDisposition | contentEncoding | contentLanguage | expires
  | storageClass | metadata | tags
  deriving DecidableEq, Repr

inductive MismatchReason
  | content (compareBy : CompareBy) | field (field : DetailField)
  deriving DecidableEq, Repr

structure VersionedObjectDetails where
  size : ℕ
  etag : Option String
  checksums : List (ChecksumField × String)
  contentType : Option String
  cacheControl : Option String
  contentDisposition : Option String
  contentEncoding : Option String
  contentLanguage : Option String
  expires : Option Int
  storageClass : Option String
  metadata : List (String × String)
  tags : List (String × String)
  deriving DecidableEq, Repr

def isHexDigit (c : Char) : Bool :=
  c.isDigit || ('a' ≤ c && c ≤ 'f') || ('A' ≤ c && c ≤ 'F')

/-- The MD5 digest an entity tag spells, if it is one. -/
def etagMd5 (etag : Option String) : Option String :=
  (normalizeEtag etag).bind fun value =>
    if value.length = 32 ∧ value.toList.all isHexDigit then some value.toLower else none

/-- The first property that differs, in the order the code compares them. -/
def firstDifferentField (source target : VersionedObjectDetails) : Option DetailField :=
  if source.contentType ≠ target.contentType then some .contentType
  else if source.cacheControl ≠ target.cacheControl then some .cacheControl
  else if source.contentDisposition ≠ target.contentDisposition then some .contentDisposition
  else if source.contentEncoding ≠ target.contentEncoding then some .contentEncoding
  else if source.contentLanguage ≠ target.contentLanguage then some .contentLanguage
  else if source.expires ≠ target.expires then some .expires
  else if source.storageClass ≠ target.storageClass then some .storageClass
  else if ¬ source.metadata.Perm target.metadata then some .metadata
  else if source.tags ≠ target.tags then some .tags
  else none

/-- The content comparison: the first checksum both sides carry, else MD5, else the size. -/
def compareContent (source target : VersionedObjectDetails) : CompareBy × Bool :=
  match versionChecksumFields.find? fun field =>
      (source.checksums.lookup field).isSome && (target.checksums.lookup field).isSome with
  | some field =>
    (.checksum field, source.checksums.lookup field == target.checksums.lookup field)
  | none =>
    match etagMd5 source.etag, etagMd5 target.etag with
    | some sourceMd5, some targetMd5 => (.md5, sourceMd5 == targetMd5)
    | _, _ => (.size, source.size == target.size)

/-- How the versions were compared, and why they differ. -/
def compareVersionedObjectDetails (source target : VersionedObjectDetails) :
    CompareBy × Option MismatchReason :=
  match compareContent source target with
  | (compareBy, false) => (compareBy, some (.content compareBy))
  | (compareBy, true) => (compareBy, (firstDifferentField source target).map .field)

/-! ## Timeline pairs -/

structure VersionTimelineDiffKey where
  key : String
  sourceVersionId : Option String
  targetVersionId : Option String
  deriving DecidableEq, Repr

inductive TimelineDifference
  | timelineLengthMismatch (key : String) (sourceEntries targetEntries : ℕ)
  | entryKindMismatch (key : String) (sourceIsMarker targetIsMarker : Bool)
  | objectMismatch (key : String) (reason : MismatchReason) (compareBy : CompareBy)
      (sourceSize targetSize : ℕ) (sourceEtag targetEtag : Option String)
  deriving DecidableEq, Repr

/-- `equal` is `firstDifference = none`. -/
structure VersionTimelineComparison where
  firstDifference : Option TimelineDifference
  sizeOnlyPairs : List VersionTimelineDiffKey
  deriving DecidableEq, Repr

def VersionTimelineComparison.equal (comparison : VersionTimelineComparison) : Bool :=
  comparison.firstDifference.isNone

/-- The head and tagging reads of both buckets; `none` when one raises. -/
structure DetailsReader where
  source : BucketVersionEntry → Option VersionedObjectDetails
  target : BucketVersionEntry → Option VersionedObjectDetails

def compareVersionTimelineObjectPair (reader : DetailsReader) (key : String)
    (sourceEntry targetEntry : BucketVersionEntry) :
    Option (TimelineDifference ⊕ Option VersionTimelineDiffKey) := do
  let sourceDetails ← reader.source sourceEntry
  let targetDetails ← reader.target targetEntry
  match compareVersionedObjectDetails sourceDetails targetDetails with
  | (compareBy, some reason) =>
    return .inl (.objectMismatch key reason compareBy sourceDetails.size targetDetails.size
      sourceDetails.etag targetDetails.etag)
  | (compareBy, none) =>
    return .inr (if compareBy ≠ .size then none
      else some ⟨key, some sourceEntry.versionId, some targetEntry.versionId⟩)

def compareVersionTimelineEntryPair (reader : DetailsReader) (key : String)
    (sourceEntry targetEntry : BucketVersionEntry) :
    Option (TimelineDifference ⊕ Option VersionTimelineDiffKey) :=
  if sourceEntry.isDeleteMarker ≠ targetEntry.isDeleteMarker then
    some (.inl (.entryKindMismatch key sourceEntry.isDeleteMarker targetEntry.isDeleteMarker))
  else if sourceEntry.isDeleteMarker then some (.inr none)
  else compareVersionTimelineObjectPair reader key sourceEntry targetEntry

/-- The loop over the zipped timelines. -/
def compareEntries (reader : DetailsReader) (key : String) :
    List (BucketVersionEntry × BucketVersionEntry) → List VersionTimelineDiffKey →
    Option VersionTimelineComparison
  | [], sizeOnlyPairs => some ⟨none, sizeOnlyPairs⟩
  | (sourceEntry, targetEntry) :: rest, sizeOnlyPairs =>
    match compareVersionTimelineEntryPair reader key sourceEntry targetEntry with
    | none => none
    | some (.inl difference) => some ⟨some difference, []⟩
    | some (.inr none) => compareEntries reader key rest sizeOnlyPairs
    | some (.inr (some pair)) => compareEntries reader key rest (sizeOnlyPairs ++ [pair])

def compareVersionTimelinePair (reader : DetailsReader) (key : String)
    (sourceTimeline targetTimeline : Timeline) : Option VersionTimelineComparison :=
  if sourceTimeline.length ≠ targetTimeline.length then
    some ⟨some (.timelineLengthMismatch key sourceTimeline.length targetTimeline.length), []⟩
  else compareEntries reader key (sourceTimeline.zip targetTimeline) []

def timelineHasCurrentObject (timeline : Timeline) : Bool :=
  match timeline.getLast? with
  | none => false
  | some entry => !entry.isDeleteMarker

/-! ## The merged iteration -/

inductive MergedTimeline
  | onlySource (key : String) (timeline : Timeline)
  | onlyTarget (key : String) (timeline : Timeline)
  | both (key : String) (sourceTimeline targetTimeline : Timeline)
  deriving DecidableEq, Repr

def iterMergedVersionTimelines :
    List (String × Timeline) → List (String × Timeline) → List MergedTimeline
  | [], targets => targets.map fun item => .onlyTarget item.1 item.2
  | sources, [] => sources.map fun item => .onlySource item.1 item.2
  | source :: sources, target :: targets =>
    if source.1 < target.1 then
      .onlySource source.1 source.2 :: iterMergedVersionTimelines sources (target :: targets)
    else if target.1 < source.1 then
      .onlyTarget target.1 target.2 :: iterMergedVersionTimelines (source :: sources) targets
    else
      .both source.1 source.2 target.2 :: iterMergedVersionTimelines sources targets
  termination_by sources targets => sources.length + targets.length

/-! ## The diff -/

structure VersionAwareDiff where
  sourceCount : ℕ := 0
  targetCount : ℕ := 0
  matchedCount : ℕ := 0
  differentCount : ℕ := 0
  onlySourceCount : ℕ := 0
  onlyTargetCount : ℕ := 0
  onlySourceSample : List String := []
  onlyTargetSample : List String := []
  differentSample : List TimelineDifference := []
  deriving DecidableEq, Repr

/-- Samples keep their first 200 values. -/
def appendSample {α : Type} (sample : List α) (value : α) : List α :=
  if sample.length < 200 then sample ++ [value] else sample

namespace VersionAwareDiff

def recordOnlySource (diff : VersionAwareDiff) (key : String) (hasCurrentObject : Bool) :
    VersionAwareDiff :=
  { diff with
    sourceCount := diff.sourceCount + hasCurrentObject.toNat
    onlySourceCount := diff.onlySourceCount + 1
    onlySourceSample := appendSample diff.onlySourceSample key }

def recordOnlyTarget (diff : VersionAwareDiff) (key : String) (hasCurrentObject : Bool) :
    VersionAwareDiff :=
  { diff with
    targetCount := diff.targetCount + hasCurrentObject.toNat
    onlyTargetCount := diff.onlyTargetCount + 1
    onlyTargetSample := appendSample diff.onlyTargetSample key }

def recordPair (diff : VersionAwareDiff) (comparison : VersionTimelineComparison)
    (sourceHasCurrentObject targetHasCurrentObject : Bool) : VersionAwareDiff :=
  let counted := { diff with
    sourceCount := diff.sourceCount + sourceHasCurrentObject.toNat
    targetCount := diff.targetCount + targetHasCurrentObject.toNat }
  match comparison.firstDifference with
  | none => { counted with matchedCount := diff.matchedCount + 1 }
  | some difference =>
    { counted with
      differentCount := diff.differentCount + 1
      differentSample := appendSample diff.differentSample difference }

/-- The test `_run_verify_step` makes on the final diff. -/
def IsClean (diff : VersionAwareDiff) : Prop :=
  diff.differentCount = 0 ∧ diff.onlySourceCount = 0 ∧ diff.onlyTargetCount = 0

instance (diff : VersionAwareDiff) : Decidable diff.IsClean := by
  unfold IsClean; infer_instance

end VersionAwareDiff

/-- Every 200th key runs the control check; `proceed n` tells whether the `n`-th one answers
`run`. Anything else ends the comparison without a diff. -/
def recordMerged (reader : DetailsReader) (proceed : ℕ → Bool) (scannedKeys : ℕ)
    (diff : VersionAwareDiff) (merged : MergedTimeline) : Option VersionAwareDiff :=
  if scannedKeys % 200 = 0 ∧ proceed (scannedKeys / 200) = false then none
  else match merged with
    | .onlyTarget key timeline =>
      some (diff.recordOnlyTarget key (timelineHasCurrentObject timeline))
    | .onlySource key timeline =>
      some (diff.recordOnlySource key (timelineHasCurrentObject timeline))
    | .both key sourceTimeline targetTimeline =>
      (compareVersionTimelinePair reader key sourceTimeline targetTimeline).map fun comparison =>
        diff.recordPair comparison (timelineHasCurrentObject sourceTimeline)
          (timelineHasCurrentObject targetTimeline)

/-- The loop of `_compare_versioned_timelines`. -/
def compareMerged (reader : DetailsReader) (proceed : ℕ → Bool) :
    List MergedTimeline → ℕ → VersionAwareDiff → Option VersionAwareDiff
  | [], _, diff => some diff
  | merged :: rest, scannedKeys, diff =>
    (recordMerged reader proceed (scannedKeys + 1) diff merged).bind
      (compareMerged reader proceed rest (scannedKeys + 1))

def compareVersionedTimelines (reader : DetailsReader) (proceed : ℕ → Bool)
    (sources targets : List (String × Timeline)) : Option VersionAwareDiff :=
  compareMerged reader proceed (iterMergedVersionTimelines sources targets) 0 {}

end Versions
end BucketReef

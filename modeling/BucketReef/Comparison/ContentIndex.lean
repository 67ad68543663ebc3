import BucketReef.Integrity.Candidates
import BucketReef.Migration.SyncConvergence

/-!
# The comparison of two buckets

The listings of both buckets go into a temporary table, and queries on it count and sample the keys
that only one of them has and the objects that differ. A key that was modified after the cutoff on
either side is left out on both.
-/

namespace BucketReef
namespace Comparison

open CurrentObjects Versions Integrity

/-! ## The table -/

inductive Side
  | source | target
  deriving DecidableEq, Repr

/-- Times are in microseconds. -/
structure BucketCompareObjectEntry where
  key : String
  size : ℕ
  etag : Option String
  lastModified : Option ℤ
  storageClass : Option String
  deriving DecidableEq, Repr

/-- A row of `compare_objects`. -/
structure CompareRow where
  side : Side
  entry : BucketCompareObjectEntry
  deriving DecidableEq, Repr

abbrev CompareIndex := List CompareRow

/-- `INSERT OR REPLACE`: side and key are the primary key. -/
def insertOrReplace (index : CompareIndex) (row : CompareRow) : CompareIndex :=
  (index.filter fun other => !(other.side = row.side && other.entry.key = row.entry.key)) ++ [row]

def insertBatch (index : CompareIndex) (batch : List CompareRow) : CompareIndex :=
  batch.foldl insertOrReplace index

/-- The loop of `add_objects`, with the rows of the open batch. -/
def addObjects (side : Side) :
    List BucketCompareObjectEntry → List CompareRow → CompareIndex → CompareIndex
  | [], batch, index => insertBatch index batch
  | entry :: rest, batch, index =>
    if 1000 ≤ (batch ++ [CompareRow.mk side entry]).length then
      addObjects side rest [] (insertBatch index (batch ++ [CompareRow.mk side entry]))
    else addObjects side rest (batch ++ [CompareRow.mk side entry]) index

def modifiedAfter (cutoff : ℤ) (entry : BucketCompareObjectEntry) : Bool :=
  entry.lastModified.any fun time => cutoff < time

/-- `_exclude_modified_after`: the number of keys ignored, and the other rows. -/
def excludeModifiedAfter (cutoff : Option ℤ) (index : CompareIndex) : ℕ × CompareIndex :=
  match cutoff with
  | none => (0, index)
  | some cutoff =>
    let ignored := ((index.filter fun row => modifiedAfter cutoff row.entry).map
      fun row => row.entry.key).dedup
    if ignored.isEmpty then (0, index)
    else (ignored.length, index.filter fun row => row.entry.key ∉ ignored)

/-! ## The queries -/

/-- The entries of a side. -/
def entriesOf (side : Side) (index : CompareIndex) : List BucketCompareObjectEntry :=
  (index.filter fun row => row.side = side).map CompareRow.entry

def countSide (side : Side) (index : CompareIndex) : ℕ := (entriesOf side index).length

/-- The left join without a partner. -/
def onlyRows (side otherSide : Side) (index : CompareIndex) : List BucketCompareObjectEntry :=
  (entriesOf side index).filter fun current =>
    !(entriesOf otherSide index).any fun other => other.key = current.key

def iterOnlyRows (side otherSide : Side) (limit : ℕ) (index : CompareIndex) :
    List BucketCompareObjectEntry :=
  (Lists.sortedBy BucketCompareObjectEntry.key (onlyRows side otherSide index)).take limit

/-- The inner join. -/
def iterCommonRows (index : CompareIndex) :
    List (BucketCompareObjectEntry × BucketCompareObjectEntry) :=
  (Lists.sortedBy BucketCompareObjectEntry.key (entriesOf .source index)).flatMap fun source =>
    ((entriesOf .target index).filter fun target => target.key = source.key).map fun target =>
      (source, target)

def bucketCompareDisplayLimit : ℕ := 200

/-- `_only_side_summary`: the count, the keys and the details. -/
def onlySideSummary (side otherSide : Side) (index : CompareIndex) :
    ℕ × List String × List BucketCompareObjectEntry :=
  let rows := iterOnlyRows side otherSide bucketCompareDisplayLimit index
  ((onlyRows side otherSide index).length, rows.map BucketCompareObjectEntry.key, rows)

def BucketCompareObjectEntry.objectEntry (entry : BucketCompareObjectEntry) : BucketObjectEntry :=
  ⟨entry.key, entry.size, entry.etag⟩

structure BucketObjectDiffEntry where
  source : BucketCompareObjectEntry
  target : BucketCompareObjectEntry
  compareBy : DiffCompareBy
  deriving DecidableEq, Repr

/-- One round of `_compare_common_objects`. -/
def compareCommonObject (counts : ℕ × ℕ × List BucketObjectDiffEntry)
    (row : BucketCompareObjectEntry × BucketCompareObjectEntry) :
    ℕ × ℕ × List BucketObjectDiffEntry :=
  let comparison := compareContents row.1.objectEntry row.2.objectEntry
  if comparison.2 then (counts.1 + 1, counts.2.1, counts.2.2)
  else
    (counts.1, counts.2.1 + 1,
      if counts.2.2.length < bucketCompareDisplayLimit then
        counts.2.2 ++ [⟨row.1, row.2, comparison.1⟩]
      else counts.2.2)

def compareCommonObjects (index : CompareIndex) : ℕ × ℕ × List BucketObjectDiffEntry :=
  (iterCommonRows index).foldl compareCommonObject (0, 0, [])

structure BucketContentDiff where
  sourceCount : ℕ
  targetCount : ℕ
  matchedCount : ℕ
  differentCount : ℕ
  onlySourceCount : ℕ
  onlyTargetCount : ℕ
  ignoredAfterCutoffCount : ℕ
  onlySourceHiddenCount : ℕ
  onlyTargetHiddenCount : ℕ
  differentHiddenCount : ℕ
  onlySourceSample : List String
  onlyTargetSample : List String
  onlySourceDetails : List BucketCompareObjectEntry
  onlyTargetDetails : List BucketCompareObjectEntry
  differentSample : List BucketObjectDiffEntry
  deriving DecidableEq, Repr

def buildContentDiff (cutoff : Option ℤ) (index : CompareIndex) : BucketContentDiff :=
  let (ignored, index) := excludeModifiedAfter cutoff index
  let (onlySourceCount, onlySourceSample, onlySourceDetails) := onlySideSummary .source .target index
  let (onlyTargetCount, onlyTargetSample, onlyTargetDetails) := onlySideSummary .target .source index
  let (matchedCount, differentCount, differentSample) := compareCommonObjects index
  { sourceCount := countSide .source index
    targetCount := countSide .target index
    matchedCount := matchedCount
    differentCount := differentCount
    onlySourceCount := onlySourceCount
    onlyTargetCount := onlyTargetCount
    ignoredAfterCutoffCount := ignored
    onlySourceHiddenCount := onlySourceCount - onlySourceSample.length
    onlyTargetHiddenCount := onlyTargetCount - onlyTargetSample.length
    differentHiddenCount := differentCount - differentSample.length
    onlySourceSample := onlySourceSample
    onlyTargetSample := onlyTargetSample
    onlySourceDetails := onlySourceDetails
    onlyTargetDetails := onlyTargetDetails
    differentSample := differentSample }

/-! ## The comparison -/

variable {kind : ContentKind}

/-- A listing in pages, with what the comparison reads of an object beside its content. -/
structure CompareListing (kind : ContentKind) where
  objects : List (StoredObject kind)
  increasing : Increasing objects
  lastModified : String → Option ℤ
  storageClass : String → Option String
  pages : List (ObjectPage kind)
  split : ObjectSplit objects pages

def CompareListing.compareEntry (listing : CompareListing kind) (object : StoredObject kind) :
    BucketCompareObjectEntry where
  key := object.key
  size := kind.size object.content
  etag := normalizeEtag object.etag
  lastModified := listing.lastModified object.key
  storageClass := listing.storageClass object.key

def listBucketObjectsForCompare (listing : CompareListing kind) : List BucketCompareObjectEntry :=
  (iterBucketObjects listing.pages).map listing.compareEntry

def compareBucketContent (source target : CompareListing kind) (ignoreModifiedAfter : Option ℤ) :
    BucketContentDiff :=
  buildContentDiff ignoreModifiedAfter
    (addObjects .target (listBucketObjectsForCompare target) []
      (addObjects .source (listBucketObjectsForCompare source) [] []))

/-- The differences that `compare_buckets` reports. -/
def hasContentDifferences (diff : BucketContentDiff) : Bool :=
  0 < diff.differentCount || 0 < diff.onlySourceCount || 0 < diff.onlyTargetCount

end Comparison
end BucketReef

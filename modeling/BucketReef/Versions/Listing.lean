import BucketReef.Lists.Sorted
import Mathlib.Data.String.Basic

/-!
# Version timelines

`_iter_bucket_version_timelines` reads `list_object_versions` page by page. Each page carries its
object versions and its delete markers in separate arrays; the iterator numbers the valid entries
in arrival order, regroups them by key and yields every key with its entries sorted oldest first.

Datetimes are microseconds since the epoch in UTC; `none` stands for a value that is not a
datetime.
-/

namespace BucketReef
namespace Versions

open Lists

/-- An entry of the `Versions` or `DeleteMarkers` array. -/
structure RawVersion where
  key : Option String
  versionId : Option String
  isLatest : Bool
  lastModified : Option Int
  size : Nat
  etag : Option String
  storageClass : Option String
  deriving DecidableEq, Repr

/-- A `list_object_versions` response. -/
structure Page where
  versions : List RawVersion
  deleteMarkers : List RawVersion
  nextKeyMarker : Option String
  nextVersionIdMarker : Option String
  deriving DecidableEq, Repr

structure BucketVersionEntry where
  key : String
  versionId : String
  isDeleteMarker : Bool
  isLatest : Bool
  lastModified : Option Int
  size : Nat
  etag : Option String
  storageClass : Option String
  orderIndex : Nat
  deriving DecidableEq, Repr

/-- The entries of one key, oldest first. -/
abbrev Timeline := List BucketVersionEntry

/-- A missing datetime counts as the epoch. -/
def normalizeDatetime (value : Option Int) : Int := value.getD 0

def versionGroupSortKey (entry : BucketVersionEntry) : String ×ₗ ℤ ×ₗ ℕ :=
  toLex (entry.key, toLex (-normalizeDatetime entry.lastModified, entry.orderIndex))

def versionReplaySortKey (entry : BucketVersionEntry) : ℤ ×ₗ ℕ ×ₗ ℤ :=
  toLex (normalizeDatetime entry.lastModified,
    toLex (if entry.isDeleteMarker then 1 else 0, -(entry.orderIndex : ℤ)))

/-- `value.strip().strip('"') or None`, applied to an entity tag. -/
def normalizeEtag (etag : Option String) : Option String :=
  etag.bind fun value =>
    let stripped := (value.trimAscii.toString.dropWhile (· == '"')).toString.dropEndWhile (· == '"')
    if stripped.toString = "" then none else some stripped.toString

/-- The entry is dropped when it has no key or no version id. -/
def versionEntryFromRaw (raw : RawVersion) (isDeleteMarker : Bool) (orderIndex : ℕ) :
    Option BucketVersionEntry :=
  match raw.key, raw.versionId with
  | some key, some versionId =>
    if key = "" ∨ versionId = "" then none
    else some {
      key := key
      versionId := versionId
      isDeleteMarker := isDeleteMarker
      isLatest := raw.isLatest
      lastModified := raw.lastModified
      size := if isDeleteMarker then 0 else raw.size
      etag := if isDeleteMarker then none else normalizeEtag raw.etag
      storageClass := if isDeleteMarker then none else raw.storageClass
      orderIndex := orderIndex }
  | _, _ => none

/-- One array of a page: the index advances on valid entries only. -/
def collectionEntries (isDeleteMarker : Bool) :
    List RawVersion → ℕ → List BucketVersionEntry × ℕ
  | [], orderIndex => ([], orderIndex)
  | raw :: rest, orderIndex =>
    match versionEntryFromRaw raw isDeleteMarker orderIndex with
    | none => collectionEntries isDeleteMarker rest orderIndex
    | some entry =>
      let (entries, next) := collectionEntries isDeleteMarker rest (orderIndex + 1)
      (entry :: entries, next)

def pageVersionEntries (page : Page) (orderIndex : ℕ) : List BucketVersionEntry × ℕ :=
  let (objects, next) := collectionEntries false page.versions orderIndex
  let (markers, next) := collectionEntries true page.deleteMarkers next
  (objects ++ markers, next)

/-! ## The iterator -/

/-- The locals of the iterator and what it has yielded. -/
structure TimelineScan where
  orderIndex : ℕ := 0
  bufferedKey : Option String := none
  bufferedEntries : List BucketVersionEntry := []
  yielded : List (String × Timeline) := []

/-- The body of the loop over the sorted entries of a page. -/
def bufferEntry (scan : TimelineScan) (entry : BucketVersionEntry) : TimelineScan :=
  let bufferedKey := scan.bufferedKey.getD entry.key
  if entry.key ≠ bufferedKey then
    { scan with
      bufferedKey := some entry.key
      bufferedEntries := [entry]
      yielded := scan.yielded ++ [(bufferedKey, sortedBy versionReplaySortKey scan.bufferedEntries)] }
  else
    { scan with
      bufferedKey := some bufferedKey
      bufferedEntries := scan.bufferedEntries ++ [entry] }

def scanPage (scan : TimelineScan) (page : Page) : TimelineScan :=
  let (entries, next) := pageVersionEntries page scan.orderIndex
  (sortedBy versionGroupSortKey entries).foldl bufferEntry { scan with orderIndex := next }

/-- Python truth of a marker: absent and empty markers both end the listing. -/
def markerSet (marker : Option String) : Bool :=
  match marker with
  | none => false
  | some value => value ≠ ""

def Page.isLast (page : Page) : Bool :=
  !markerSet page.nextKeyMarker && !markerSet page.nextVersionIdMarker

/-- The buffered key is yielded once the listing ends. -/
def flushScan (scan : TimelineScan) : List (String × Timeline) :=
  match scan.bufferedKey with
  | none => scan.yielded
  | some key => scan.yielded ++ [(key, sortedBy versionReplaySortKey scan.bufferedEntries)]

/-- The request loop over the responses the client returns. When they run out before a last page
the next request has raised, and the caller keeps what was yielded so far. -/
def scanPages : List Page → TimelineScan → Except (List (String × Timeline)) (List (String × Timeline))
  | [], scan => .error scan.yielded
  | page :: rest, scan =>
    let scan := scanPage scan page
    if page.isLast then .ok (flushScan scan) else scanPages rest scan

def iterBucketVersionTimelines (responses : List Page) :
    Except (List (String × Timeline)) (List (String × Timeline)) :=
  scanPages responses {}

end Versions
end BucketReef

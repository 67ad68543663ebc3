import BucketReef.Lists.Merged
import Mathlib.Order.OrderDual

/-!
# The plan of a bulk restore

The versions of the selected keys are listed page by page, object versions and delete markers apart. The
plan restores what a key held at the target time and deletes keys that held nothing then.
-/

namespace BucketReef.BulkRestore

/-- Dates are instants that the backend wrote, in milliseconds. -/
structure BrowserObjectVersion where
  key : String
  versionId : Option String
  isLatest : Bool
  isDeleteMarker : Bool
  lastModified : Option ℤ
  deriving DecidableEq

structure VersionListing where
  versions : List BrowserObjectVersion
  deleteMarkers : List BrowserObjectVersion

structure ListObjectVersionsResponse where
  versions : List BrowserObjectVersion
  deleteMarkers : List BrowserObjectVersion
  isTruncated : Bool
  nextKeyMarker : Option String

/-- A text that is there and not empty. -/
def filled (text : Option String) : Option String := text.filter fun text => text ≠ ""

/-- The loop over the answers, in their order. -/
def listAllVersions : List ListObjectVersionsResponse → VersionListing
  | [] => ⟨[], []⟩
  | data :: rest =>
    let more := if data.isTruncated && (filled data.nextKeyMarker).isSome then listAllVersions rest
      else ⟨[], []⟩
    ⟨data.versions ++ more.versions, data.deleteMarkers ++ more.deleteMarkers⟩

/-! ## The entry at a time -/

def entryTime (entry : BrowserObjectVersion) : ℤ := entry.lastModified.getD 0

def sortedByDateDesc (entries : List BrowserObjectVersion) : List BrowserObjectVersion :=
  Lists.sortedBy (fun entry => OrderDual.toDual (entryTime entry)) entries

def datedBy (targetTime : ℤ) (entry : BrowserObjectVersion) : Bool :=
  entry.lastModified.isSome && decide (entryTime entry ≤ targetTime)

def versionAtOrBefore (entries : List BrowserObjectVersion) (targetTime : ℤ) :
    Option BrowserObjectVersion :=
  (sortedByDateDesc entries).find? (datedBy targetTime)

def latestRestorableVersion (entries : List BrowserObjectVersion) : Option BrowserObjectVersion :=
  (sortedByDateDesc entries).find? fun entry =>
    !entry.isDeleteMarker && (filled entry.versionId).isSome

/-! ## The plan -/

/-- Maps and sets in the order of their first insertions. -/
structure Plan where
  restoreCandidates : List (String × String)
  presentAtDate : List String
  deleteCandidates : List String
  unchangedKeys : List String

def add (key : String) (keys : List String) : List String :=
  if key ∈ keys then keys else keys ++ [key]

def set (key value : String) (entries : List (String × String)) : List (String × String) :=
  if key ∈ entries.map Prod.fst then
    entries.map fun entry => if entry.1 = key then (key, value) else entry
  else entries ++ [(key, value)]

structure Options where
  restoreLatestDeleted : Bool
  targetTime : ℤ
  deleteMissing : Bool

variable (options : Options)

def classifyVersions (key : String) (entries : List BrowserObjectVersion) (plan : Plan) : Plan :=
  let latest := entries.find? BrowserObjectVersion.isLatest
  if options.restoreLatestDeleted then
    let restorable := latestRestorableVersion entries
    match restorable.bind fun entry => filled entry.versionId with
    | none => plan
    | some versionId =>
      if latest.any BrowserObjectVersion.isDeleteMarker then
        { plan with restoreCandidates := set key versionId plan.restoreCandidates }
      else plan
  else
    match versionAtOrBefore entries options.targetTime with
    | none => plan
    | some entry =>
      if entry.isDeleteMarker then plan
      else match filled entry.versionId with
        | none => plan
        | some versionId =>
          let unchanged := latest.any fun latest =>
            !latest.isDeleteMarker && decide (latest.versionId = some versionId)
          { plan with
            unchangedKeys := if unchanged then add key plan.unchangedKeys else plan.unchangedKeys
            restoreCandidates := if unchanged then plan.restoreCandidates
              else set key versionId plan.restoreCandidates
            presentAtDate := add key plan.presentAtDate }

def addMissing (plan : Plan) (key : String) : Plan :=
  if key ∈ plan.presentAtDate then plan
  else { plan with deleteCandidates := add key plan.deleteCandidates }

variable (listVersionsForKey listVersionsForPrefix : String → VersionListing)
  (listObjectsForPrefix : String → List String)

def planFile (plan : Plan) (key : String) : Plan :=
  let listing := listVersionsForKey key
  let plan := classifyVersions options key (listing.versions ++ listing.deleteMarkers) plan
  if !options.restoreLatestDeleted && options.deleteMissing then addMissing plan key else plan

def normalizePrefix (value : String) : String :=
  if value = "" then ""
  else if value.toList.getLast? = some '/' then value else value ++ "/"

/-- The keys of `versionsByKey`. -/
def keysOf (entries : List BrowserObjectVersion) : List String :=
  entries.foldl (fun keys entry => add entry.key keys) []

def planFolder (plan : Plan) (folder : String) : Plan :=
  let listing := listVersionsForPrefix (normalizePrefix folder)
  let entries := listing.versions ++ listing.deleteMarkers
  let plan := (keysOf entries).foldl (fun plan key =>
    classifyVersions options key (entries.filter fun entry => entry.key = key) plan) plan
  if !options.restoreLatestDeleted && options.deleteMissing then
    (listObjectsForPrefix (normalizePrefix folder)).foldl addMissing plan
  else plan

inductive ItemType
  | file
  | folder
  deriving DecidableEq

structure BrowserItem where
  key : String
  type : ItemType

def keysOfType (type : ItemType) (items : List BrowserItem) : List String :=
  (items.filter fun item => item.type = type).map BrowserItem.key

def buildBulkRestorePlan (items : List BrowserItem) : Plan :=
  let plan := (keysOfType .file items).foldl (planFile options listVersionsForKey) ⟨[], [], [], []⟩
  (keysOfType .folder items).foldl
    (planFolder options listVersionsForPrefix listObjectsForPrefix) plan

/-! ## The bucket -/

/-- The histories of all keys, newest entry first, and how they are listed. -/
structure VersionedBucket where
  history : String → List BrowserObjectVersion
  key_eq : ∀ key, ∀ entry ∈ history key, entry.key = key
  dates : ∀ key, (history key).Pairwise fun newer older => ∀ date ∈ newer.lastModified,
    ∀ date' ∈ older.lastModified, date' ≤ date
  latest : ∀ key entry older, history key = entry :: older →
    entry.isLatest = true ∧ ∀ other ∈ older, other.isLatest = false
  ids : ∀ key, (history key).Pairwise fun entry other =>
    ∀ id ∈ filled entry.versionId, id ∉ filled other.versionId
  listing : String → List BrowserObjectVersion
  listingKey : ∀ start key, (listing start).filter (fun entry => entry.key = key) =
    if start.toList <+: key.toList then history key else []

namespace VersionedBucket

variable (bucket : VersionedBucket)

/-- What the key shows now. -/
def current (key : String) : Option BrowserObjectVersion :=
  (bucket.history key).head?.filter fun entry => !entry.isDeleteMarker

end VersionedBucket

/-- One page of a listing and the marker that follows it. -/
structure Page where
  entries : List BrowserObjectVersion
  nextKeyMarker : String
  markerFilled : nextKeyMarker ≠ ""

/-- The answer for a page, cut to one key where one is asked for. -/
def Page.answer (page : Page) (key : Option String) (isTruncated : Bool) :
    ListObjectVersionsResponse :=
  let entries := page.entries.filter fun entry => key.all fun key => entry.key = key
  { versions := entries.filter fun entry => !entry.isDeleteMarker
    deleteMarkers := entries.filter BrowserObjectVersion.isDeleteMarker
    isTruncated := isTruncated
    nextKeyMarker := if isTruncated then some page.nextKeyMarker else none }

def answers (key : Option String) : List Page → List ListObjectVersionsResponse
  | [] => []
  | [page] => [page.answer key false]
  | page :: rest => page.answer key true :: answers key rest

/-- How the listings of a bucket are split into pages, and its current objects. -/
structure Listings (bucket : VersionedBucket) where
  keyPages : String → List Page
  keyPages_flatten : ∀ key, (keyPages key).flatMap Page.entries = bucket.listing key
  prefixPages : String → List Page
  prefixPages_flatten : ∀ start, (prefixPages start).flatMap Page.entries = bucket.listing start
  objects : String → List String
  mem_objects : ∀ start key, key ∈ objects start ↔
    start.toList <+: key.toList ∧ (bucket.current key).isSome

namespace Listings

variable {bucket : VersionedBucket} (listings : Listings bucket)

def versionsForKey (key : String) : VersionListing :=
  listAllVersions (answers (some key) (listings.keyPages key))

def versionsForPrefix (start : String) : VersionListing :=
  listAllVersions (answers none (listings.prefixPages start))

def plan (options : Options) (items : List BrowserItem) : Plan :=
  buildBulkRestorePlan options listings.versionsForKey listings.versionsForPrefix listings.objects
    items

end Listings

/-! ## Executing the plan -/

/-- The listed version is copied over its key. -/
def copyObject (bucket : VersionedBucket) (shown : String → Option BrowserObjectVersion)
    (item : String × String) : String → Option BrowserObjectVersion :=
  Function.update shown item.1
    ((bucket.history item.1).find? fun entry => entry.versionId = some item.2)

def deleteObject (shown : String → Option BrowserObjectVersion) (key : String) :
    String → Option BrowserObjectVersion :=
  Function.update shown key none

/-- All listed versions are copied, then all listed keys are deleted. -/
def executed (bucket : VersionedBucket) (plan : Plan) : String → Option BrowserObjectVersion :=
  plan.deleteCandidates.foldl deleteObject
    (plan.restoreCandidates.foldl (copyObject bucket) bucket.current)

inductive StateAt
  | shown (entry : BrowserObjectVersion)
  | absent
  | undetermined

def datedAfter (targetTime : ℤ) (entry : BrowserObjectVersion) : Bool :=
  entry.lastModified.any fun date => targetTime < date

/-- The history without what is known to be later: an entry is if it or an older one is dated so. -/
def knownAt (targetTime : ℤ) : List BrowserObjectVersion → List BrowserObjectVersion
  | [] => []
  | entry :: older =>
    if (entry :: older).any (datedAfter targetTime) then knownAt targetTime older
    else entry :: older

/-- What the newest entry then says. -/
def stateAt (targetTime : ℤ) (history : List BrowserObjectVersion) : StateAt :=
  match knownAt targetTime history with
  | [] => .absent
  | entry :: _ =>
    if entry.lastModified = none then .undetermined
    else if entry.isDeleteMarker then .absent
    else if filled entry.versionId = none then .undetermined
    else .shown entry

end BucketReef.BulkRestore

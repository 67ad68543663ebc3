import BucketReef.Cleanup.Ranks

/-!
# Restoring deleted objects

The index that finds the deleted objects of a folder, the search for the version of a single deleted
object, and the run that restores what the index found. Both read version listings page by page.
-/

namespace BucketReef
namespace DeletedObjects

open Cleanup Lists Transitions Versions

/-! ## Pages -/

/-- A `list_object_versions` response with its truncation flag. -/
structure VersionsPage extends Page where
  isTruncated : Bool

/-- A listing cut into pages anywhere; a truncated page names the key it stopped at. -/
inductive Paged : List Listed → List VersionsPage → Prop
  | last {chunk : List Listed} {page : VersionsPage} : page.toPage.Holds chunk →
      page.isTruncated = false → Paged chunk [page]
  | more {chunk rest : List Listed} {page : VersionsPage} {pages : List VersionsPage} :
      page.toPage.Holds chunk → page.isTruncated = true → markerSet page.nextKeyMarker = true →
      Paged rest pages → Paged (chunk ++ rest) (page :: pages)

/-! ## The index of deleted objects -/

structure ObjectRestoreStore where
  deletedKeys : List String := []
  latestVersions : List (String × String) := []

structure ScanCounts where
  versions : ℕ := 0
  deleteMarkers : ℕ := 0

/-- `INSERT OR IGNORE INTO latest_versions`. -/
def insertVersion (table : List (String × String)) (row : String × String) : List (String × String) :=
  if table.any fun old => old.1 = row.1 then table else table ++ [row]

/-- `INSERT OR IGNORE INTO deleted_keys`. -/
def insertDeleted (table : List String) (key : String) : List String :=
  if key ∈ table then table else table ++ [key]

def truthyKey (raw : RawVersion) : Option String := raw.key.filter (· ≠ "")

def insertPage (store : ObjectRestoreStore) (page : VersionsPage) : ObjectRestoreStore × ScanCounts :=
  let versionRows := page.versions.filterMap rawIdentity
  let markers := page.deleteMarkers.filter fun marker => (truthyKey marker).isSome
  let deletedRows := (markers.filter fun marker => marker.isLatest).filterMap truthyKey
  ({ deletedKeys := deletedRows.foldl insertDeleted store.deletedKeys
     latestVersions := versionRows.foldl insertVersion store.latestVersions },
    { versions := versionRows.length, deleteMarkers := markers.length })

/-- `scan`, on the pages the client answers; `none` when the pages run out before the last one,
because a request raised. -/
def scan (store : ObjectRestoreStore) (counts : ScanCounts) :
    List VersionsPage → Option (ObjectRestoreStore × ScanCounts)
  | [] => none
  | page :: rest =>
    let inserted := insertPage store page
    let counts : ScanCounts :=
      { versions := counts.versions + inserted.2.versions
        deleteMarkers := counts.deleteMarkers + inserted.2.deleteMarkers }
    if !page.isTruncated || (!markerSet page.nextKeyMarker && !markerSet page.nextVersionIdMarker) then
      some (inserted.1, counts)
    else scan inserted.1 counts rest

/-- The join behind `count_candidates` and `iter_candidate_batches`, by key. -/
def candidates (store : ObjectRestoreStore) : List (String × String) :=
  (sortedBy id store.deletedKeys).filterMap fun key =>
    (store.latestVersions.find? fun row => row.1 = key).map fun row => (key, row.2)

/-! ## A single object -/

/-- `a` counts as earlier than `b`; a missing date is the earliest. -/
def earlier : Option ℤ → Option ℤ → Bool
  | some a, some b => a < b
  | none, some _ => true
  | _, none => false

/-- The first of the entries with the largest date. -/
def latestModified (first : RawVersion) (others : List RawVersion) : RawVersion :=
  others.foldl (fun best value =>
    if earlier best.lastModified value.lastModified then value else best) first

def notInTrash (targetKey : String) : String := s!"Object '{targetKey}' is not in the trash."

def noRestorable (targetKey : String) : String :=
  s!"No restorable version was found for object '{targetKey}'."

def exactMarkers (targetKey : String) (page : VersionsPage) : List RawVersion :=
  page.deleteMarkers.filter fun marker => marker.key = some targetKey

def exactVersions (targetKey : String) (page : VersionsPage) : List RawVersion :=
  page.versions.filter fun version =>
    version.key = some targetKey && version.versionId.any (· ≠ "")

/-- The loop of `_latest_restorable_storage_space_version`. -/
def searchPages (targetKey : String) :
    Bool → List VersionsPage → Option (Except String (Option String))
  | _, [] => none
  | currentIsDeleted, page :: rest =>
    let currentIsDeleted :=
      currentIsDeleted || (exactMarkers targetKey page).any fun marker => marker.isLatest
    match currentIsDeleted, exactVersions targetKey page with
    | true, first :: others => some (.ok (latestModified first others).versionId)
    | _, _ =>
      if !page.isTruncated || !markerSet page.nextKeyMarker then
        some (.error (if currentIsDeleted then noRestorable targetKey else notInTrash targetKey))
      else searchPages targetKey currentIsDeleted rest

def latestRestorableVersion (targetKey : String) (pages : List VersionsPage) :
    Option (Except String (Option String)) :=
  searchPages targetKey false pages

/-! ## The bucket -/

/-- What S3 gives a new version. -/
structure Stamp where
  versionId : String
  lastModified : ℤ
  deriving DecidableEq

def isOf (key : String) (entry : Listed) : Bool := entryKey entry = some key

/-- The entry is no longer the latest. -/
def demote (entry : Listed) : Listed := { entry with raw := { entry.raw with isLatest := false } }

/-- A new version of the key, in front of its history. -/
def putVersion (bucket : List Listed) (key : String) (entry : Listed) : List Listed :=
  (bucket.takeWhile fun old => !isOf key old) ++
    entry :: (bucket.dropWhile fun old => !isOf key old).map fun old =>
      if isOf key old then demote old else old

/-- `head_object` of the source version and `copy_object` onto its key; `none` where there is no such
version. -/
def copyObject (bucket : List Listed) (key versionId : String) (stamp : Stamp) : Option (List Listed) :=
  (bucket.find? fun entry => !entry.isDeleteMarker && entryIdentity entry = some (key, versionId)).map
    fun source => putVersion bucket key
      { isDeleteMarker := false
        raw := { source.raw with
          key := some key
          versionId := some stamp.versionId
          isLatest := true
          lastModified := some stamp.lastModified } }

/-! ## The restore run -/

inductive Outcome
  | restored
  | failed (detail : String)
  deriving DecidableEq

/-- A submitted call; it has no outcome while it runs. -/
structure Job where
  key : String
  versionId : String
  outcome : Option Outcome := none
  deriving DecidableEq

inductive RunPhase
  | running
  | completed
  | cancelled
  deriving DecidableEq

structure RestoreState where
  bucket : List Listed
  /-- The candidates the cursor has not handed on. -/
  rest : List (String × String)
  /-- The futures of the batch that have not been recorded. -/
  futures : List Job := []
  restoredObjects : ℕ := 0
  failedObjects : ℕ := 0
  failures : List (String × String) := []
  /-- What was recorded, in order. -/
  recorded : List (String × Outcome) := []
  phase : RunPhase := .running

def failureDetailLimit : ℕ := 20

def restoreConcurrency : ℕ := 4

/-- How a call of `_restore_storage_space_object_version_with_client` ends. A call that raises may have
copied the version before. -/
inductive Attempt
  | restored (stamp : Stamp)
  | failed (detail : String) (copied : Option Stamp)
  deriving DecidableEq

inductive Label
  | submit
  /-- The call for the key comes to its end in the executor. -/
  | work (key : String) (attempt : Attempt)
  /-- `as_completed` yields the future of the key. -/
  | collect (key : String)
  | finish
  /-- The cancellation check between two batches raises. -/
  | cancel
  deriving DecidableEq

def settleJob (futures : List Job) (key : String) (outcome : Outcome) : List Job :=
  futures.map fun job => if job.key = key then { job with outcome := some outcome } else job

/-- The bucket after an attempt at a job. -/
def attemptCopy (bucket : List Listed) (job : Job) : Attempt → Option (List Listed)
  | .restored stamp => copyObject bucket job.key job.versionId stamp
  | .failed _ (some stamp) => copyObject bucket job.key job.versionId stamp
  | .failed _ none => some bucket

def Attempt.outcome : Attempt → Outcome
  | .restored _ => .restored
  | .failed detail _ => .failed detail

/-- `_record_restore_result` -/
def RestoreState.record (s : RestoreState) (key : String) : Outcome → RestoreState
  | .restored =>
    { s with
      restoredObjects := s.restoredObjects + 1
      recorded := s.recorded ++ [(key, .restored)] }
  | .failed detail =>
    { s with
      failedObjects := s.failedObjects + 1
      failures :=
        if s.failures.length < failureDetailLimit then s.failures ++ [(key, detail)] else s.failures
      recorded := s.recorded ++ [(key, .failed detail)] }

def running (s : RestoreState) : Label → Option RestoreState
  | .submit =>
    if s.futures = [] ∧ s.rest ≠ [] then
      some { s with
        futures := (s.rest.take restoreConcurrency).map fun row =>
          { key := row.1, versionId := row.2 }
        rest := s.rest.drop restoreConcurrency }
    else none
  | .work key attempt =>
    match s.futures.find? fun job => job.key = key && job.outcome.isNone with
    | none => none
    | some job =>
      (attemptCopy s.bucket job attempt).map fun bucket =>
        { s with bucket := bucket, futures := settleJob s.futures key attempt.outcome }
  | .collect key =>
    match (s.futures.find? fun job => job.key = key).bind Job.outcome with
    | none => none
    | some outcome =>
      some ({ s with futures := s.futures.filter fun job => job.key ≠ key }.record key outcome)
  | .finish => if s.futures = [] ∧ s.rest = [] then some { s with phase := .completed } else none
  | .cancel => if s.futures = [] then some { s with phase := .cancelled } else none

def step (s : RestoreState) (label : Label) : Option RestoreState :=
  if s.phase = .running then running s label else none

/-- The folder has been indexed. -/
def start (bucket : List Listed) (store : ObjectRestoreStore) : RestoreState where
  bucket := bucket
  rest := candidates store

def Reachable (bucket : List Listed) (store : ObjectRestoreStore) (s : RestoreState) : Prop :=
  Reached step anyStep (start bucket store) s

/-! ## What is to be restored -/

/-- The latest entry of the key is a delete marker. -/
def IsDeleted (bucket : List Listed) (key : String) : Prop :=
  ∃ entry ∈ bucket, entryKey entry = some key ∧ entry.raw.isLatest = true ∧
    entry.isDeleteMarker = true

/-- The newest object version of the key. -/
def newestVersion (bucket : List Listed) (key : String) : Option String :=
  (bucket.find? fun entry => isOf key entry && !entry.isDeleteMarker).bind fun entry =>
    entry.raw.versionId

end DeletedObjects
end BucketReef

import BucketReef.Effects.Transitions
import BucketReef.Lists.Cursor
import BucketReef.Versions.PageSplits

/-!
# The index of a version cleanup

`ObjectVersionCleanupStore` indexes a version listing on disk, and the Browser and the Portal cleanup
delete what its queries select while they read them. A query is read through a cursor that scans the
rows in the order of an index, numbers the rows of each key and hands on the selected ones; how far it
reads ahead of the caller is left open.
-/

namespace BucketReef
namespace Cleanup

open Lists Transitions Versions

/-! ## The tables -/

/-- A row of `cleanup_versions`. -/
structure VersionRow where
  key : String
  versionId : String
  lastModifiedTs : Option ℤ
  sizeBytes : ℕ
  isLatest : Bool
  scanOrder : ℕ
  deriving DecidableEq, Repr

/-- A row of `cleanup_delete_markers`. -/
structure MarkerRow where
  key : String
  versionId : String
  scanOrder : ℕ
  deriving DecidableEq, Repr

/-- What the primary key of both tables and a delete request name an entry by. -/
abbrev Identity := String × String

def VersionRow.identity (row : VersionRow) : Identity := (row.key, row.versionId)

def MarkerRow.identity (row : MarkerRow) : Identity := (row.key, row.versionId)

structure ObjectVersionCleanupStore where
  cleanupVersions : List VersionRow := []
  cleanupDeleteMarkers : List MarkerRow := []
  deriving DecidableEq, Repr

/-- `INSERT OR REPLACE`, one row. -/
def insertOrReplace {ρ : Type} (identity : ρ → Identity) (table : List ρ) (row : ρ) : List ρ :=
  (table.filter fun old => identity old ≠ identity row) ++ [row]

/-- The key and the version id of an entry that has both. -/
def rawIdentity (raw : RawVersion) : Option Identity :=
  match raw.key, raw.versionId with
  | some key, some versionId => if key = "" ∨ versionId = "" then none else some (key, versionId)
  | _, _ => none

def versionRow (raw : RawVersion) (scanOrder : ℕ) : Option VersionRow :=
  (rawIdentity raw).map fun identity =>
    ⟨identity.1, identity.2, raw.lastModified, raw.size, raw.isLatest, scanOrder⟩

def markerRow (raw : RawVersion) (scanOrder : ℕ) : Option MarkerRow :=
  (rawIdentity raw).map fun identity => ⟨identity.1, identity.2, scanOrder⟩

/-- The rows of one array of a page: the order advances on the entries that are kept. -/
def numberedRows {ρ : Type} (row : RawVersion → ℕ → Option ρ) : List RawVersion → ℕ → List ρ
  | [], _ => []
  | raw :: rest, scanOrder =>
    match row raw scanOrder with
    | none => numberedRows row rest scanOrder
    | some kept => kept :: numberedRows row rest (scanOrder + 1)

/-- The locals of `scan`. The two counts are also the next scan orders. -/
structure Scan where
  store : ObjectVersionCleanupStore := {}
  scannedVersions : ℕ := 0
  scannedDeleteMarkers : ℕ := 0
  deriving DecidableEq, Repr

def insertPage (scan : Scan) (page : Page) : Scan :=
  let versionRows := numberedRows versionRow page.versions scan.scannedVersions
  let markerRows := numberedRows markerRow page.deleteMarkers scan.scannedDeleteMarkers
  { store :=
      { cleanupVersions :=
          versionRows.foldl (insertOrReplace VersionRow.identity) scan.store.cleanupVersions
        cleanupDeleteMarkers :=
          markerRows.foldl (insertOrReplace MarkerRow.identity) scan.store.cleanupDeleteMarkers }
    scannedVersions := scan.scannedVersions + versionRows.length
    scannedDeleteMarkers := scan.scannedDeleteMarkers + markerRows.length }

/-- `scan`, on the pages the client answers. -/
def scan (state : Scan) : List Page → Scan
  | [] => state
  | page :: rest =>
    if page.isLast then insertPage state page else scan (insertPage state page) rest

/-! ## The queries -/

abbrev RowOrder := String ×ₗ ℕ ×ₗ ℕ ×ₗ ℤ ×ₗ ℕ

/-- A query over `cleanup_versions`; its condition also sees the number of a row within its key. -/
structure VersionQuery where
  order : VersionRow → RowOrder
  selects : ℕ → VersionRow → Bool

/-- `iter_orphan_markers`: the markers of keys without a version row. -/
def iterOrphanMarkers (store : ObjectVersionCleanupStore) : List MarkerRow :=
  sortedBy (fun marker => toLex (marker.key, marker.scanOrder))
    (store.cleanupDeleteMarkers.filter fun marker =>
      store.cleanupVersions.all fun version => version.key ≠ marker.key)

def removeVersions (store : ObjectVersionCleanupStore) (identities : List Identity) :
    ObjectVersionCleanupStore :=
  { store with
    cleanupVersions := store.cleanupVersions.filter fun row => row.identity ∉ identities }

/-- An open query: the last row it read, its number within its key, and the rows it has selected but
not handed on. -/
structure Cursor where
  position : Option VersionRow := none
  keyIndex : ℕ := 0
  queue : List VersionRow := []
  deriving DecidableEq, Repr

def Cursor.read (query : VersionQuery) (cursor : Cursor) (row : VersionRow) : Cursor :=
  let keyIndex :=
    if cursor.position.any fun last => last.key = row.key then cursor.keyIndex + 1 else 0
  { position := some row
    keyIndex := keyIndex
    queue := if query.selects keyIndex row then cursor.queue ++ [row] else cursor.queue }

/-! ## The bucket -/

/-- An entry of the bucket is named as its listing names it. -/
def entryIdentity (entry : Listed) : Option Identity := rawIdentity entry.raw

def entryKey (entry : Listed) : Option String := entry.raw.key

/-- `delete_objects` on a bucket. -/
def deleteEntries (bucket : List Listed) (identities : List Identity) : List Listed :=
  bucket.filter fun entry => (entryIdentity entry).all fun identity => identity ∉ identities

/-- A key is visible when its newest entry is an object version. -/
def visible (bucket : List Listed) (key : String) : Bool :=
  (bucket.find? fun entry => entryKey entry = some key).any fun entry => !entry.isDeleteMarker

/-- The entries `list_object_versions` returns for a prefix. -/
def listing (pre : Option String) (bucket : List Listed) : List Listed :=
  bucket.filter fun entry => (entryKey entry).any fun key => pre.all fun pre => pre.toList.isPrefixOf key.toList

/-! ## The two cleanups -/

/-- What a run does: its query over the versions, and which of the two passes it makes. -/
structure CleanupPlan where
  query : VersionQuery
  versionsPass : Bool
  markersPass : Bool

/-- Where a run stands, with its locals. -/
inductive Phase
  /-- Collecting a batch from the cursor. -/
  | versions (cursor : Cursor) (batch : List VersionRow)
  /-- The orphan markers not yet deleted. -/
  | markers (rest : List MarkerRow)
  | completed
  /-- An error or a cancellation ended the run. -/
  | aborted
  deriving DecidableEq, Repr

structure State where
  bucket : List Listed
  store : ObjectVersionCleanupStore
  phase : Phase
  deletedVersions : ℕ := 0
  deletedDeleteMarkers : ℕ := 0
  bytesFreed : ℕ := 0
  deriving DecidableEq, Repr

inductive Answer
  | deleted
  /-- The call raised after S3 deleted some of the entries. -/
  | failed (removed : List Identity)
  deriving DecidableEq, Repr

inductive Label
  /-- The cursor reads its next row. -/
  | read (row : VersionRow)
  /-- The loop takes a row from the cursor. -/
  | fetch
  | deleteVersions (answer : Answer)
  | endVersions
  | deleteMarkers (answer : Answer)
  | endMarkers
  | abort
  deriving DecidableEq, Repr

def batchSize : ℕ := 1000

/-- The phase after the pass over the versions. -/
def CleanupPlan.afterVersions (plan : CleanupPlan) (store : ObjectVersionCleanupStore) : Phase :=
  if plan.markersPass then .markers (iterOrphanMarkers store) else .completed

/-- No further row comes from the cursor. -/
def Cursor.Exhausted (query : VersionQuery) (cursor : Cursor) (store : ObjectVersionCleanupStore) :
    Prop :=
  cursor.queue = [] ∧ AtEnd query.order cursor.position store.cleanupVersions

instance (query : VersionQuery) (cursor : Cursor) (store : ObjectVersionCleanupStore) :
    Decidable (cursor.Exhausted query store) :=
  inferInstanceAs (Decidable (_ ∧ _))

/-- `_delete_version_batch` and `remove_versions`. -/
def State.deleteVersionBatch (s : State) (cursor : Cursor) (batch : List VersionRow) :
    Answer → State
  | .deleted =>
    { s with
      bucket := deleteEntries s.bucket (batch.map VersionRow.identity)
      store := removeVersions s.store (batch.map VersionRow.identity)
      phase := .versions cursor []
      deletedVersions := s.deletedVersions + batch.length
      bytesFreed := s.bytesFreed + (batch.map VersionRow.sizeBytes).sum }
  | .failed removed =>
    { s with
      bucket := deleteEntries s.bucket ((batch.map VersionRow.identity).filter (· ∈ removed))
      phase := .aborted }

def State.deleteMarkerBatch (s : State) (batch rest : List MarkerRow) : Answer → State
  | .deleted =>
    { s with
      bucket := deleteEntries s.bucket (batch.map MarkerRow.identity)
      phase := .markers rest
      deletedDeleteMarkers := s.deletedDeleteMarkers + batch.length }
  | .failed removed =>
    { s with
      bucket := deleteEntries s.bucket ((batch.map MarkerRow.identity).filter (· ∈ removed))
      phase := .aborted }

def advance (plan : CleanupPlan) (s : State) : Label → Phase → Option State
  | .read row, .versions cursor batch =>
    if IsNext plan.query.order cursor.position s.store.cleanupVersions row then
      some { s with phase := .versions (cursor.read plan.query row) batch }
    else none
  | .fetch, .versions cursor batch =>
    match cursor.queue with
    | row :: queue =>
      if batch.length < batchSize then
        some { s with phase := .versions { cursor with queue := queue } (batch ++ [row]) }
      else none
    | [] => none
  | .deleteVersions answer, .versions cursor batch =>
    if batch.length = batchSize ∨ (batch ≠ [] ∧ cursor.Exhausted plan.query s.store) then
      some (s.deleteVersionBatch cursor batch answer)
    else none
  | .endVersions, .versions cursor batch =>
    if batch = [] ∧ cursor.Exhausted plan.query s.store then
      some { s with phase := plan.afterVersions s.store }
    else none
  | .deleteMarkers answer, .markers rest =>
    if rest = [] then none
    else some (s.deleteMarkerBatch (rest.take batchSize) (rest.drop batchSize) answer)
  | .endMarkers, .markers [] => some { s with phase := .completed }
  | .abort, _ => some { s with phase := .aborted }
  | _, _ => none

def step (plan : CleanupPlan) (s : State) (label : Label) : Option State :=
  advance plan s label s.phase

/-- The listing has been indexed. -/
def start (plan : CleanupPlan) (bucket : List Listed) (pages : List Page) : State :=
  let store := (scan {} pages).store
  { bucket := bucket
    store := store
    phase := if plan.versionsPass then .versions {} [] else plan.afterVersions store }

/-- The states of the runs on a bucket that answers the listing with these pages. -/
def Reachable (plan : CleanupPlan) (bucket : List Listed) (pages : List Page) (s : State) : Prop :=
  Reached (step plan) anyStep (start plan bucket pages) s

end Cleanup
end BucketReef

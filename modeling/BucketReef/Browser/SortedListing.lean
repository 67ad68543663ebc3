import BucketReef.Browser.FilteredCompleteness
import Mathlib.Order.WithBot

/-!
# Sorted listings

A sorted listing is paged out of a snapshot of the whole listing: its folders in order, then its objects
in the requested order. The continuation token carries the two offsets and a signature of the listing's
parameters, and the snapshot is kept in a cache from which it may disappear at any time.
-/

namespace BucketReef
namespace Sorted

open Filtered Lists Transitions

/-! ## The order -/

inductive SortBy
  | name
  | size
  | modified
  | storageClass
  | etag
  deriving DecidableEq

inductive SortDir
  | asc
  | desc
  deriving DecidableEq

/-- A missing value is larger than the others. -/
def nullLargest {α : Type} (value : Option α) : WithTop α := value

/-- `ORDER BY column direction, key ASC`. -/
def orderBy {κ : Type} [LinearOrder κ] (sortDir : SortDir) (column : BrowserObject → κ)
    (objects : List BrowserObject) : List BrowserObject :=
  match sortDir with
  | .asc => sortedBy (fun object => toLex (column object, object.key)) objects
  | .desc => sortedBy (fun object => toLex (OrderDual.toDual (column object), object.key)) objects

/-- `_object_order_by` -/
def objectOrderBy (sortBy : SortBy) (sortDir : SortDir) (objects : List BrowserObject) :
    List BrowserObject :=
  match sortBy with
  | .name => orderBy sortDir BrowserObject.key objects
  | .size => orderBy sortDir BrowserObject.size objects
  | .modified => orderBy sortDir (fun object => nullLargest object.lastModified) objects
  | .storageClass => orderBy sortDir (fun object => nullLargest object.storageClass) objects
  | .etag => orderBy sortDir (fun object => nullLargest object.etag) objects

/-- `a` may stand before `b` in that order. -/
def precedes {κ : Type} [LinearOrder κ] (sortDir : SortDir) (column : BrowserObject → κ)
    (a b : BrowserObject) : Prop :=
  match sortDir with
  | .asc => toLex (column a, a.key) ≤ toLex (column b, b.key)
  | .desc => toLex (OrderDual.toDual (column a), a.key) ≤ toLex (OrderDual.toDual (column b), b.key)

def objectPrecedes (sortBy : SortBy) (sortDir : SortDir) : BrowserObject → BrowserObject → Prop :=
  match sortBy with
  | .name => precedes sortDir BrowserObject.key
  | .size => precedes sortDir BrowserObject.size
  | .modified => precedes sortDir fun object => nullLargest object.lastModified
  | .storageClass => precedes sortDir fun object => nullLargest object.storageClass
  | .etag => precedes sortDir fun object => nullLargest object.etag

/-! ## Snapshots -/

structure SortedObjectSnapshot where
  store : SnapshotStore
  sortBy : SortBy
  sortDir : SortDir
  prefixCount : ℕ
  objectCount : ℕ

namespace SortedObjectSnapshot

/-- `sorted_prefixes ORDER BY prefix`. -/
def orderedPrefixes (snapshot : SortedObjectSnapshot) : List String :=
  sortedBy id snapshot.store.sortedPrefixes

def orderedObjects (snapshot : SortedObjectSnapshot) : List BrowserObject :=
  objectOrderBy snapshot.sortBy snapshot.sortDir snapshot.store.sortedObjects

def fetchPrefixes (snapshot : SortedObjectSnapshot) (offset limit : ℕ) : List String :=
  (snapshot.orderedPrefixes.drop offset).take limit

def fetchObjects (snapshot : SortedObjectSnapshot) (offset limit : ℕ) : List BrowserObject :=
  (snapshot.orderedObjects.drop offset).take limit

end SortedObjectSnapshot

/-- What a sorted listing is asked for, with the signature of these parameters. -/
structure Params where
  options : ScanOptions
  sortBy : SortBy
  sortDir : SortDir
  signature : String

def scanPageLimit : ℕ := 200

def scanLimitReached : String :=
  "Sorted scan limit reached. Narrow the search or use name ascending to browse partial results."

/-- `build`, on the pages S3 answers. -/
def build (params : Params) (pages : List (List Entry)) : Except String SortedObjectSnapshot :=
  if scanPageLimit < pages.length then .error scanLimitReached
  else
    let store := scanSnapshot params.options pages
    .ok {
      store := store
      sortBy := params.sortBy
      sortDir := params.sortDir
      prefixCount := store.sortedPrefixes.length
      objectCount := store.sortedObjects.length }

/-! ## Tokens -/

/-- A continuation token: the payload it decodes to, if there is one. -/
inductive Token
  | cursor (prefixesOffset objectsOffset : ℤ) (signature : String)
  | undecodable
  deriving DecidableEq

def encodeSortedCursor (prefixesOffset objectsOffset : ℤ) (signature : String) : Token :=
  .cursor (max 0 prefixesOffset) (max 0 objectsOffset) signature

def filtersChanged : String := "Listing filters changed; restart pagination"

/-- `_sorted_cursor_offsets`; the error is the detail of a response with status 422. -/
def sortedCursorOffsets (snapshot : SortedObjectSnapshot) (continuationToken : Option Token)
    (snapshotSignature : String) : Except String (ℕ × ℕ) :=
  match continuationToken with
  | some (.cursor prefixesOffset objectsOffset signature) =>
    if signature ≠ snapshotSignature then .error filtersChanged
    else
      .ok (min prefixesOffset.toNat snapshot.prefixCount, min objectsOffset.toNat snapshot.objectCount)
  | _ => .ok (min 0 snapshot.prefixCount, min 0 snapshot.objectCount)

structure ListBrowserObjectsResponse where
  objects : List BrowserObject
  prefixes : List String
  isTruncated : Bool
  nextContinuationToken : Option Token

def sortedPageResponse (snapshot : SortedObjectSnapshot) (maxKeys prefixesOffset objectsOffset : ℕ)
    (snapshotSignature : String) : ListBrowserObjectsResponse :=
  let prefixes := snapshot.fetchPrefixes prefixesOffset maxKeys
  let objects := snapshot.fetchObjects objectsOffset (maxKeys - prefixes.length)
  let nextPrefixesOffset := prefixesOffset + prefixes.length
  let nextObjectsOffset := objectsOffset + objects.length
  let hasMore : Bool :=
    nextPrefixesOffset < snapshot.prefixCount || nextObjectsOffset < snapshot.objectCount
  { objects
    prefixes
    isTruncated := hasMore
    nextContinuationToken :=
      if hasMore then
        some (encodeSortedCursor nextPrefixesOffset nextObjectsOffset snapshotSignature)
      else none }

def normalizedMaxKeys (maxKeys : ℤ) : ℕ :=
  (max 1 (min 1000 (if maxKeys = 0 then 1000 else maxKeys))).toNat

/-- `_list_objects_sorted_order` on a snapshot. -/
def listObjectsSorted (params : Params) (snapshot : SortedObjectSnapshot) (maxKeys : ℤ)
    (continuationToken : Option Token) : Except String ListBrowserObjectsResponse :=
  match sortedCursorOffsets snapshot continuationToken params.signature with
  | .error detail => .error detail
  | .ok (prefixesOffset, objectsOffset) =>
    .ok (sortedPageResponse snapshot (normalizedMaxKeys maxKeys) prefixesOffset objectsOffset
      params.signature)

/-! ## Following the tokens -/

/-- A response with the snapshot it was read from. -/
structure Served where
  snapshot : SortedObjectSnapshot
  response : ListBrowserObjectsResponse

inductive Phase
  | asking
  /-- The last response had no token. -/
  | finished
  | rejected
  deriving DecidableEq

structure Following where
  /-- The snapshot that the cache holds for these parameters. -/
  cached : Option SortedObjectSnapshot := none
  token : Option Token := none
  served : List Served := []
  phase : Phase := .asking

inductive Label
  /-- The cached snapshot expires, or is invalidated or evicted. -/
  | drop
  /-- Another request stores a snapshot; `pages` is what S3 answered it. -/
  | rebuild (pages : List (List Entry))
  /-- The client's next request; `pages` is what S3 answers if the cache has no snapshot. -/
  | request (maxKeys : ℤ) (pages : List (List Entry))

/-- `_scan_sorted_object_snapshot` -/
def scanSortedObjectSnapshot (params : Params) (cached : Option SortedObjectSnapshot)
    (pages : List (List Entry)) : Except String SortedObjectSnapshot :=
  match cached with
  | some snapshot => .ok snapshot
  | none => build params pages

/-- What the answer to a request changes. -/
def Following.answered (s : Following) (snapshot : SortedObjectSnapshot) :
    Except String ListBrowserObjectsResponse → Following
  | .error _ => { s with cached := some snapshot, phase := .rejected }
  | .ok response =>
    { cached := some snapshot
      token := response.nextContinuationToken
      served := s.served ++ [⟨snapshot, response⟩]
      phase := if response.nextContinuationToken.isNone then .finished else .asking }

def step (params : Params) (s : Following) : Label → Option Following
  | .drop => some { s with cached := none }
  | .rebuild pages =>
    match build params pages with
    | .error _ => some s
    | .ok snapshot => some { s with cached := some snapshot }
  | .request maxKeys pages =>
    if s.phase = .asking then
      match scanSortedObjectSnapshot params s.cached pages with
      | .error _ => some s
      | .ok snapshot => some (s.answered snapshot (listObjectsSorted params snapshot maxKeys s.token))
    else none

/-- The runs of a client that starts without a token. -/
def Reachable (params : Params) (s : Following) : Prop := Reached (step params) anyStep {} s

/-! ## What a client has got -/

inductive Row
  | folder (name : String)
  | object (object : BrowserObject)
  deriving DecidableEq

/-- Folders first. -/
def rowsOf (prefixes : List String) (objects : List BrowserObject) : List Row :=
  prefixes.map Row.folder ++ objects.map Row.object

def SortedObjectSnapshot.rows (snapshot : SortedObjectSnapshot) : List Row :=
  rowsOf snapshot.orderedPrefixes snapshot.orderedObjects

def ListBrowserObjectsResponse.rows (response : ListBrowserObjectsResponse) : List Row :=
  rowsOf response.prefixes response.objects

def Following.rows (s : Following) : List Row := s.served.flatMap fun served => served.response.rows

end Sorted
end BucketReef

import BucketReef.Effects.Transitions
import BucketReef.Lists.Sorted
import Mathlib.Data.List.Dedup
import Mathlib.Data.String.Basic

/-!
# Filtered listings

The filtered listing in default order fills each response from several pages of S3: objects first, then
the folders of the page, while there is room under `max_keys`; the next response continues where S3
stopped. The snapshot of a sorted listing scans the same pages and stores whatever matches.
-/

namespace BucketReef
namespace Filtered

open Lists Transitions

/-! ## What S3 lists -/

structure S3Object where
  key : String
  size : ℕ
  lastModified : Option ℤ
  storageClass : Option String
  etag : Option String
  owner : Option String
  deriving DecidableEq, Repr

/-- A key or a common prefix in a `list_objects_v2` response. -/
inductive Entry
  | object (object : S3Object)
  | commonPrefix (name : String)
  deriving DecidableEq, Repr

/-- The key up to the first delimiter after the prefix. -/
def commonPrefixOf (pre key : String) : Option String :=
  let rest := key.toList.drop pre.toList.length
  if '/' ∈ rest then
    some (String.ofList (key.toList.take pre.toList.length ++ rest.takeWhile (· ≠ '/') ++ ['/']))
  else none

def entryOf (delimiter : Bool) (pre : String) (object : S3Object) : Entry :=
  match if delimiter then commonPrefixOf pre object.key else none with
  | some name => .commonPrefix name
  | none => .object object

/-- The entries S3 lists under a prefix, all pages together; `bucket` is in key order. -/
def s3Entries (delimiter : Bool) (pre : String) (bucket : List S3Object) : List Entry :=
  ((bucket.filter fun object => pre.toList.isPrefixOf object.key.toList).map
    (entryOf delimiter pre)).dedup

/-! ## The filters -/

inductive ItemType
  | all
  | file
  | folder
  deriving DecidableEq, Repr

/-- `DefaultObjectScanOptions` with the query matcher. -/
structure ScanOptions where
  pre : String
  maxKeys : ℕ
  itemType : ItemType
  storageClass : Option String
  recursive : Bool
  includeFolderMarkers : Bool := false
  matchesQuery : String → Bool
  cleanEtag : Option String → Option String
  maxKeys_pos : 0 < maxKeys

structure BrowserObject where
  key : String
  size : ℕ
  lastModified : Option ℤ
  storageClass : Option String
  etag : Option String
  owner : Option String
  deriving DecidableEq, Repr

def endsWithSlash (key : String) : Bool := key.toList.getLast? = some '/'

def isCurrentFolderMarker (key pre : String) (size : ℕ) : Bool :=
  pre ≠ "" && key = pre && endsWithSlash key && size = 0

/-- `recursive_prefixes_for_key`, as a set. -/
def recursivePrefixesForKey (key currentPrefix : String) (isFolderMarker : Bool) : List String :=
  let chars := key.toList
  let start := if currentPrefix.toList.isPrefixOf chars then currentPrefix.toList.length else 0
  let ends := (List.range' start (chars.length - start)).filter fun index =>
    chars[index]? = some '/' && (index + 1 ≠ chars.length || isFolderMarker)
  ((ends.map fun index => String.ofList (chars.take (index + 1))).filter (· ≠ currentPrefix)).dedup

section Filters

variable (options : ScanOptions)

/-- `_object_entry` and `_object_identity`: the entry is not looked at further without them. -/
def isListed (object : S3Object) : Bool :=
  object.key ≠ "" &&
    (options.includeFolderMarkers || !isCurrentFolderMarker object.key options.pre object.size)

def isFolderMarker (object : S3Object) : Bool := endsWithSlash object.key && object.size = 0

/-- `_should_store_object`; `_skip_object` skips the others. -/
def shouldStoreObject (object : S3Object) : Bool :=
  options.itemType ≠ .folder &&
    !(options.recursive && isFolderMarker object && !options.includeFolderMarkers) &&
    options.matchesQuery object.key &&
    options.storageClass.all fun storageClass =>
      storageClass = "" || object.storageClass = some storageClass

def browserObject (object : S3Object) : BrowserObject :=
  ⟨object.key, object.size, object.lastModified, object.storageClass, options.cleanEtag object.etag,
    object.owner⟩

/-- The parent prefixes that an object contributes in a recursive listing. -/
def recursivePrefixes (object : S3Object) : List String :=
  if options.recursive && options.itemType ≠ .file then
    recursivePrefixesForKey object.key options.pre (isFolderMarker object)
  else []

def contents (entries : List Entry) : List S3Object :=
  entries.filterMap fun
    | .object object => some object
    | .commonPrefix _ => none

def commonPrefixes (entries : List Entry) : List String :=
  entries.filterMap fun
    | .object _ => none
    | .commonPrefix name => if name = "" then none else some name

/-! ## One response -/

/-- `_FilteredObjectListing`. -/
structure FilteredObjectListing where
  objects : List BrowserObject := []
  prefixes : List String := []
  seenPrefixes : List String := []
  deriving DecidableEq, Repr

def FilteredObjectListing.itemCount (listing : FilteredObjectListing) : ℕ :=
  listing.objects.length + listing.prefixes.length

def FilteredObjectListing.isFull (listing : FilteredObjectListing) : Bool :=
  options.maxKeys ≤ listing.itemCount

/-- The body of the loop of `_add_objects`. -/
def addObject (state : FilteredObjectListing × List String) (object : S3Object) :
    FilteredObjectListing × List String :=
  let (listing, recursive) := state
  if !isListed options object then state
  else
    let recursive := recursive ++ recursivePrefixes options object
    if !shouldStoreObject options object || listing.isFull options then (listing, recursive)
    else
      ({ listing with objects := listing.objects ++ [browserObject options object] }, recursive)

def addObjects (listing : FilteredObjectListing) (objects : List S3Object) :
    FilteredObjectListing × List String :=
  objects.foldl (addObject options) (listing, [])

def addPrefixes (listing : FilteredObjectListing) : List String → FilteredObjectListing
  | [] => listing
  | name :: rest =>
    if name ∈ listing.seenPrefixes || !options.matchesQuery name then addPrefixes listing rest
    else if listing.isFull options then listing
    else
      addPrefixes { listing with
        seenPrefixes := listing.seenPrefixes ++ [name]
        prefixes := listing.prefixes ++ [name] } rest

/-- `sorted` of a set of prefixes. -/
def sortedPrefixes (names : List String) : List String := sortedBy id names.dedup

def addPage (listing : FilteredObjectListing) (page : List Entry) : FilteredObjectListing :=
  let (listing, recursive) := addObjects options listing (contents page)
  if options.itemType = .file then listing
  else if options.recursive then addPrefixes options listing (sortedPrefixes recursive)
  else addPrefixes options listing (commonPrefixes page)

end Filters

def scanPageBudget : ℕ := 20

/-! ## Following the tokens -/

/-- Where a client stands that follows the continuation tokens. -/
inductive Phase
  /-- The response under construction, and the pages it has scanned. -/
  | scanning (listing : FilteredObjectListing) (pagesScanned : ℕ)
  /-- The response was returned, with a token when S3 has entries left. -/
  | responded
  | finished
  deriving DecidableEq, Repr

/-- A continuation token names the entries S3 has still to list. -/
structure Following where
  rest : List Entry
  phase : Phase := .scanning {} 0
  objects : List BrowserObject := []
  prefixes : List String := []
  deriving DecidableEq, Repr

inductive Label
  /-- S3 answers a request with its next `size` entries. -/
  | page (size : ℕ)
  /-- The page or the time budget of the response is spent. -/
  | stop
  /-- The client asks for the next response, or sees that there is none. -/
  | follow
  deriving DecidableEq, Repr

/-- `max_keys` of the next request. -/
def requested (options : ScanOptions) (listing : FilteredObjectListing) : ℕ :=
  max (options.maxKeys - listing.itemCount) 1

def Following.respond (s : Following) (listing : FilteredObjectListing) : Following :=
  { s with
    phase := .responded
    objects := s.objects ++ listing.objects
    prefixes := s.prefixes ++ listing.prefixes }

def step (options : ScanOptions) (s : Following) : Label → Option Following
  | .page size =>
    match s.phase with
    | .scanning listing pagesScanned =>
      if size ≤ requested options listing ∧ pagesScanned < scanPageBudget then
        let listing := addPage options listing (s.rest.take size)
        let s := { s with rest := s.rest.drop size }
        if listing.isFull options = true ∨ s.rest = [] then some (s.respond listing)
        else some { s with phase := .scanning listing (pagesScanned + 1) }
      else none
    | _ => none
  | .stop =>
    match s.phase with
    | .scanning listing pagesScanned =>
      if 0 < pagesScanned then some (s.respond listing) else none
    | _ => none
  | .follow =>
    match s.phase with
    | .responded =>
      if s.rest = [] then some { s with phase := .finished }
      else some { s with phase := .scanning {} 0 }
    | _ => none

/-- The client starts without a token. -/
def first (options : ScanOptions) (bucket : List S3Object) : Following :=
  { rest := s3Entries (!options.recursive) options.pre bucket }

/-- The states of the runs that follow the tokens through a bucket. -/
def Reachable (options : ScanOptions) (bucket : List S3Object) (s : Following) : Prop :=
  Reached (step options) anyStep (first options bucket) s

/-! ## The snapshot of a sorted listing -/

structure SnapshotStore where
  sortedPrefixes : List String := []
  sortedObjects : List BrowserObject := []
  deriving DecidableEq, Repr

/-- `INSERT OR IGNORE`. -/
def insertPrefix (store : SnapshotStore) (name : String) : SnapshotStore :=
  if name ∈ store.sortedPrefixes then store
  else { store with sortedPrefixes := store.sortedPrefixes ++ [name] }

def insertMatching (options : ScanOptions) (store : SnapshotStore) (names : List String) :
    SnapshotStore :=
  (names.filter options.matchesQuery).foldl insertPrefix store

/-- `_insert_object`. -/
def insertObject (options : ScanOptions) (store : SnapshotStore) (object : S3Object) : SnapshotStore :=
  if !isListed options object then store
  else
    let store := insertMatching options store (recursivePrefixes options object)
    if !shouldStoreObject options object then store
    else
      { store with
        sortedObjects := store.sortedObjects.filter (fun old => old.key ≠ object.key) ++
          [browserObject options object] }

/-- One page of `_scan_pages`. -/
def snapshotPage (options : ScanOptions) (store : SnapshotStore) (page : List Entry) : SnapshotStore :=
  let store := (contents page).foldl (insertObject options) store
  if options.recursive || options.itemType = .file then store
  else insertMatching options store (commonPrefixes page)

/-- `_scan_pages`, on the pages S3 cuts its entries into. -/
def scanSnapshot (options : ScanOptions) (pages : List (List Entry)) : SnapshotStore :=
  pages.foldl (snapshotPage options) {}

end Filtered
end BucketReef

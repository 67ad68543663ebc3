import BucketReef.Caches.LruTable
import BucketReef.Effects.Transitions

/-!
# Browser listings and object mutations

`list_objects` over the page cache and the cache of sorted snapshots, and `_object_mutation`, as any
number of requests of one process interleave them: each cache operation, remote call and invalidation
is a step. The bucket of a key is the pair of execution context and bucket name.
-/

namespace BucketReef
namespace Browser

open Caches Transitions

structure Settings (Key Bucket : Type) where
  bucket : Key → Bucket
  ttl : ℕ
  maxPages : ℕ
  maxSnapshots : ℕ

/-- A listing page; `loadedAt` is the time of the first remote call of its load. -/
structure Page (V : Type) where
  content : V
  loadedAt : ℕ
  deriving DecidableEq, Repr

/-- A sorted snapshot, named after the request that built it. -/
structure Snapshot (V : Type) where
  id : ℕ
  content : V
  loadedAt : ℕ
  deriving DecidableEq, Repr

/-- Where a `list_objects` request stands. -/
inductive Phase (Key V : Type)
  /-- `force_refresh`: the pages are invalidated next, then the snapshots. -/
  | refreshingPages (key : Key) (sorted : Bool) (startedAt : ℕ)
  | refreshingSnapshots (key : Key) (sorted : Bool) (startedAt : ℕ)
  | looking (key : Key) (sorted : Bool) (startedAt : ℕ)
  /-- The cache had nothing; the first remote call is next. -/
  | missed (key : Key) (sorted : Bool) (startedAt : ℕ)
  | loading (key : Key) (sorted : Bool) (startedAt loadedAt : ℕ)
  /-- The load is complete; storing it is next. -/
  | loadedPage (key : Key) (startedAt : ℕ) (page : Page V)
  | loadedSnapshot (key : Key) (startedAt : ℕ) (snapshot : Snapshot V)
  /-- `fetch_prefixes` is next, then `fetch_objects`. -/
  | reading (key : Key) (startedAt : ℕ) (snapshot : Snapshot V) (prefixesRead : Bool)
  | done
  deriving DecidableEq, Repr

/-- The snapshot a request has obtained and not finished with. -/
def Phase.holds {Key V : Type} : Phase Key V → Option ℕ
  | .loadedSnapshot _ _ snapshot | .reading _ _ snapshot _ => some snapshot.id
  | _ => none

/-- A run of `_object_mutation`. -/
structure Mutation (Bucket : Type) where
  buckets : List Bucket
  /-- Where and when the storage changed. -/
  effects : List (Bucket × ℕ) := []
  /-- The body has ended or raised. -/
  ended : Bool := false
  /-- The buckets whose pages, and whose snapshots, are still to be invalidated. -/
  pages : List Bucket := []
  snapshots : List Bucket := []
  returnedAt : Option ℕ := none
  deriving DecidableEq, Repr

structure Answer (Key V : Type) where
  key : Key
  startedAt : ℕ
  content : V
  loadedAt : ℕ
  deriving DecidableEq, Repr

structure State (Key Bucket V : Type) where
  /-- The number of steps so far, which orders all events. -/
  time : ℕ
  /-- `monotonic()`. -/
  clock : ℕ
  pages : LruTable Key (Page V)
  snapshots : LruTable Key (Snapshot V)
  /-- The snapshots whose store is closed. -/
  closed : List ℕ
  requests : List (Phase Key V)
  mutations : List (Mutation Bucket)
  answers : List (Answer Key V)

variable {Key Bucket V : Type} [DecidableEq Key] [DecidableEq Bucket]

def State.init (clock : ℕ) : State Key Bucket V := ⟨0, clock, [], [], [], [], [], []⟩

namespace Mutation

/-- The mutation has invalidated the pages of the bucket. -/
def pagesExpired (m : Mutation Bucket) (bucket : Bucket) : Bool :=
  m.ended && bucket ∈ m.buckets && bucket ∉ m.pages

def snapshotsExpired (m : Mutation Bucket) (bucket : Bucket) : Bool :=
  m.ended && bucket ∈ m.buckets && bucket ∉ m.snapshots

end Mutation

section Steps

variable (settings : Settings Key Bucket)

/-! ## Requests -/

namespace State

def setRequest (s : State Key Bucket V) (i : ℕ) (phase : Phase Key V) : State Key Bucket V :=
  { s with requests := s.requests.set i phase }

def answer (s : State Key Bucket V) (i : ℕ) (a : Answer Key V) : State Key Bucket V :=
  { s with requests := s.requests.set i .done, answers := s.answers ++ [a] }

/-- The snapshots after an operation of their cache, which closes what it evicts. -/
def withSnapshots {β : Type} (s : State Key Bucket V)
    (outcome : LruTable.Outcome Key (Snapshot V) β) : State Key Bucket V :=
  { s with
    snapshots := outcome.table
    closed := s.closed ++ outcome.evicted.map Snapshot.id }

end State

def invalidatePages (s : State Key Bucket V) (bucket : Bucket) : State Key Bucket V :=
  { s with pages := (s.pages.ttlInvalidate fun key => settings.bucket key = bucket).table }

def snapshotInvalidation (s : State Key Bucket V) (bucket : Bucket) :
    LruTable.Outcome Key (Snapshot V) Unit :=
  s.snapshots.ttlInvalidate fun key => settings.bucket key = bucket

/-- `OBJECT_SORT_SNAPSHOT_CACHE.set`. -/
def snapshotStore (s : State Key Bucket V) (key : Key) (snapshot : Snapshot V) :
    LruTable.Outcome Key (Snapshot V) Unit :=
  s.snapshots.ttlSet settings.maxSnapshots key ⟨s.clock + settings.ttl, snapshot⟩

/-- The lookup of `_list_objects_default_order`. -/
def lookPage (s : State Key Bucket V) (i : ℕ) (key : Key) (startedAt : ℕ) : State Key Bucket V :=
  let outcome := s.pages.ttlGet s.clock key
  let s := { s with pages := outcome.table }
  match outcome.reply with
  | some page => s.answer i ⟨key, startedAt, page.content, page.loadedAt⟩
  | none => s.setRequest i (.missed key false startedAt)

/-- The lookup of `_scan_sorted_object_snapshot`. -/
def lookSnapshot (s : State Key Bucket V) (i : ℕ) (key : Key) (startedAt : ℕ) :
    State Key Bucket V :=
  let outcome := s.snapshots.ttlGet s.clock key
  let s := s.withSnapshots outcome
  match outcome.reply with
  | some snapshot => s.setRequest i (.reading key startedAt snapshot false)
  | none => s.setRequest i (.missed key true startedAt)

def storePage (s : State Key Bucket V) (i : ℕ) (key : Key) (startedAt : ℕ) (page : Page V) :
    State Key Bucket V :=
  let entry := ⟨s.clock + settings.ttl, page⟩
  ({ s with pages := (s.pages.ttlSet settings.maxPages key entry).table } : State Key Bucket V).answer i
    ⟨key, startedAt, page.content, page.loadedAt⟩

/-- A query of a snapshot raises when the store is closed. -/
def fetch (s : State Key Bucket V) (i : ℕ) (key : Key) (startedAt : ℕ) (snapshot : Snapshot V)
    (prefixesRead : Bool) : State Key Bucket V :=
  if snapshot.id ∈ s.closed then s.setRequest i .done
  else if prefixesRead then s.answer i ⟨key, startedAt, snapshot.content, snapshot.loadedAt⟩
  else s.setRequest i (.reading key startedAt snapshot true)

/-- The next step of a request that does not wait for the storage. -/
def advance (s : State Key Bucket V) (i : ℕ) : Phase Key V → Option (State Key Bucket V)
  | .refreshingPages key sorted startedAt =>
    some ((invalidatePages settings s (settings.bucket key)).setRequest i
      (.refreshingSnapshots key sorted startedAt))
  | .refreshingSnapshots key sorted startedAt =>
    some ((s.withSnapshots (snapshotInvalidation settings s (settings.bucket key))).setRequest i
      (.looking key sorted startedAt))
  | .looking key sorted startedAt =>
    some (if sorted then lookSnapshot s i key startedAt else lookPage s i key startedAt)
  | .missed key sorted startedAt =>
    some (s.setRequest i (.loading key sorted startedAt s.time))
  | .loadedPage key startedAt page => some (storePage settings s i key startedAt page)
  | .loadedSnapshot key startedAt snapshot =>
    some ((s.withSnapshots (snapshotStore settings s key snapshot)).setRequest i
      (.reading key startedAt snapshot false))
  | .reading key startedAt snapshot prefixesRead =>
    some (fetch s i key startedAt snapshot prefixesRead)
  | .loading _ _ _ _ | .done => none

/-! ## Mutations -/

/-- The next invalidation of a mutation whose body has ended; for each bucket the pages, then the
snapshots. After the last it returns. -/
def advanceMutation (s : State Key Bucket V) (i : ℕ) (m : Mutation Bucket) :
    Option (State Key Bucket V) :=
  if m.ended ∧ m.returnedAt = none then
    if m.pages.length = m.snapshots.length then
      match m.pages with
      | bucket :: rest =>
        let m := { m with pages := rest }
        some { invalidatePages settings s bucket with mutations := s.mutations.set i m }
      | [] =>
        let m := { m with returnedAt := some s.time }
        some { s with mutations := s.mutations.set i m }
    else
      match m.snapshots with
      | bucket :: rest =>
        let m := { m with snapshots := rest }
        some { s.withSnapshots (snapshotInvalidation settings s bucket) with
          mutations := s.mutations.set i m }
      | [] => none
  else none

/-! ## Steps -/

inductive Label (Key Bucket V : Type)
  | tick (elapsed : ℕ)
  | request (key : Key) (sorted forceRefresh : Bool)
  | advance (i : ℕ)
  | loadReturns (i : ℕ) (content : V)
  | loadFails (i : ℕ)
  /-- A mutation enters `_object_mutation`. -/
  | mutate (buckets : List Bucket)
  /-- The storage of a bucket changes. -/
  | effect (i : ℕ) (bucket : Bucket)
  /-- The body of a mutation ends or raises. -/
  | endBody (i : ℕ)
  | advanceMutation (i : ℕ)
  deriving DecidableEq, Repr

def act (s : State Key Bucket V) : Label Key Bucket V → Option (State Key Bucket V)
  | .tick elapsed => some { s with clock := s.clock + elapsed }
  | .request key sorted forceRefresh =>
    let phase := if forceRefresh then .refreshingPages key sorted s.time else .looking key sorted s.time
    some { s with requests := s.requests ++ [phase] }
  | .advance i => (s.requests[i]?).bind (advance settings s i)
  | .loadReturns i content =>
    match s.requests[i]? with
    | some (.loading key sorted startedAt loadedAt) =>
      some (s.setRequest i (if sorted then .loadedSnapshot key startedAt ⟨i, content, loadedAt⟩
        else .loadedPage key startedAt ⟨content, loadedAt⟩))
    | _ => none
  | .loadFails i =>
    match s.requests[i]? with
    | some (.loading _ _ _ _) => some (s.setRequest i .done)
    | _ => none
  | .mutate buckets => some { s with mutations := s.mutations ++ [{ buckets := buckets.eraseDups }] }
  | .effect i bucket =>
    match s.mutations[i]? with
    | some m =>
      if m.ended = false ∧ bucket ∈ m.buckets then
        let m := { m with effects := m.effects ++ [(bucket, s.time)] }
        some { s with mutations := s.mutations.set i m }
      else none
    | none => none
  | .endBody i =>
    match s.mutations[i]? with
    | some m =>
      if m.ended then none
      else
        let m := { m with ended := true, pages := m.buckets, snapshots := m.buckets }
        some { s with mutations := s.mutations.set i m }
    | none => none
  | .advanceMutation i => (s.mutations[i]?).bind (advanceMutation settings s i)

def step (s : State Key Bucket V) (label : Label Key Bucket V) : Option (State Key Bucket V) :=
  (act settings s label).map fun s' => { s' with time := s'.time + 1 }

/-! ## The steps that keep readers safe -/

/-- The snapshots a step removes from their cache. -/
def evictedBy (s : State Key Bucket V) : Label Key Bucket V → List (Snapshot V)
  | .advance i =>
    match s.requests[i]? with
    | some (.refreshingSnapshots key _ _) =>
      (snapshotInvalidation settings s (settings.bucket key)).evicted
    | some (.looking key true _) => (s.snapshots.ttlGet s.clock key).evicted
    | some (.loadedSnapshot key _ snapshot) => (snapshotStore settings s key snapshot).evicted
    | _ => []
  | .advanceMutation i =>
    match s.mutations[i]? with
    | some m =>
      if m.pages.length = m.snapshots.length then []
      else match m.snapshots with
        | bucket :: _ => (snapshotInvalidation settings s bucket).evicted
        | [] => []
    | none => []
  | _ => []

/-- No request still reads a snapshot the step removes. -/
def keepsReaders (s : State Key Bucket V) (label : Label Key Bucket V) : Bool :=
  (evictedBy settings s label).all fun snapshot =>
    s.requests.all fun phase => phase.holds ≠ some snapshot.id

/-- The load began after every change of a mutation that has already invalidated what it stores. -/
def loadedSince (s : State Key Bucket V) (expired : Mutation Bucket → Bucket → Bool) (bucket : Bucket)
    (loadedAt : ℕ) : Bool :=
  s.mutations.all fun m => !expired m bucket ||
    m.effects.all fun effect => effect.1 ≠ bucket || effect.2 < loadedAt

/-- A step that stores a load stores no load older than an invalidation for a mutation. -/
def storesCurrent (s : State Key Bucket V) : Label Key Bucket V → Bool
  | .advance i =>
    match s.requests[i]? with
    | some (.loadedPage key _ page) =>
      loadedSince s Mutation.pagesExpired (settings.bucket key) page.loadedAt
    | some (.loadedSnapshot key _ snapshot) =>
      loadedSince s Mutation.snapshotsExpired (settings.bucket key) snapshot.loadedAt
    | _ => true
  | _ => true

end Steps

end Browser
end BucketReef

import BucketReef.Caches.LruTable
import BucketReef.Caches.SingleFlight
import BucketReef.Effects.Transitions
import Mathlib.Logic.Function.Basic

/-!
# Single-flight listing caches

`get_or_build_single_flight_cache` and `get_cached_rgw_bucket_entries`, one region of the shared
lock at a time, for any number of calls and invalidations. A key belongs to a group, the unit of
invalidation: the endpoint of a Ceph Admin listing, or the key itself where a cache stands alone.
A builder may read raw payloads of its group. Deep copies are the values themselves.
-/

namespace BucketReef
namespace Listings

open Caches Transitions

/-! ## Values, futures and events -/

/-- A value, with the time at which the oldest load it rests on started; the code does not store
that time. -/
structure Loaded (α : Type) where
  value : α
  oldest : ℕ
  deriving DecidableEq, Repr

structure Settings (Key Group : Type) where
  group : Key → Group
  ttl : ℕ
  maxEntries : ℕ
  payloadTtl : ℕ
  payloadMaxEntries : ℕ

/-- A call that registered its future in the in-flight map. The future is named after the call. -/
structure Ownership (Key : Type) where
  key : Key
  startedAt : ℕ
  registeredAt : ℕ
  deriving DecidableEq, Repr

/-- Where a call of `get_or_build_single_flight_cache` stands. -/
inductive Outer (Key V : Type)
  | unused
  /-- A thread that calls `get_cached_rgw_bucket_entries` itself. -/
  | direct
  | called (key : Key) (startedAt : ℕ)
  /-- In `future.result()` of another call. -/
  | waiting (key : Key) (startedAt future : ℕ)
  | registered (own : Ownership Key)
  | building (own : Ownership Key) (oldest : ℕ)
  /-- The builder returned; the region that stores the value is next. -/
  | built (own : Ownership Key) (loaded : Loaded V)
  /-- `set_result` is next. -/
  | stored (own : Ownership Key) (loaded : Loaded V)
  /-- The builder raised; `set_exception` is next. -/
  | failed (own : Ownership Key)
  /-- The future is done; the region that removes the marker is next. -/
  | resolved (own : Ownership Key) (outcome : Option (Loaded V))
  /-- The call is over, with its future when it owned one. -/
  | finished (future : Option (Ownership Key × Option (Loaded V)))
  deriving DecidableEq, Repr

/-- A call of `get_cached_rgw_bucket_entries`. -/
structure Read (Group : Type) where
  endpoint : Group
  withStats : Bool
  startedAt : ℕ
  deriving DecidableEq, Repr

/-- An event is named after the call that created it and the number of its load there. -/
abbrev EventId := ℕ × ℕ

/-- A read that registered its event. -/
structure Load (Group : Type) where
  read : Read Group
  event : EventId
  registeredAt : ℕ
  deriving DecidableEq, Repr

inductive Inner (Group P : Type)
  | idle
  /-- At the head of the loop. -/
  | reading (read : Read Group)
  | waiting (read : Read Group) (event : EventId)
  | registered (load : Load Group)
  | loading (load : Load Group) (loaderStartedAt : ℕ)
  /-- The payload arrived; the region that stores it is next. -/
  | loaded (load : Load Group) (loaded : Loaded P) (expiresAt : ℕ)
  /-- The region that removes the marker is next. -/
  | finishing (load : Load Group) (outcome : Option (Loaded P))
  /-- `in_flight.set()` is next. -/
  | setting (load : Load Group) (outcome : Option (Loaded P))
  deriving DecidableEq, Repr

structure Call (Key Group V P : Type) where
  outer : Outer Key V := .unused
  inner : Inner Group P := .idle
  /-- How many loads the call has registered. -/
  loads : ℕ := 0

/-- A value that reached a caller, and the start of the call. -/
structure Received (K α : Type) where
  key : K
  startedAt : ℕ
  loaded : Loaded α
  deriving DecidableEq, Repr

structure State (Key Group V P : Type) where
  /-- The number of steps so far, which orders all events. -/
  time : ℕ
  /-- `monotonic()`. -/
  clock : ℕ
  cache : LruTable Key (Loaded V)
  inflight : Key → Option ℕ
  payloadCache : LruTable (Group × Bool) (Loaded P)
  payloadInflight : Group → Option EventId
  eventSet : EventId → Bool
  calls : ℕ → Call Key Group V P
  /-- What happened so far. -/
  invalidations : List (Invalidation Group)
  listings : List (Received Key V)
  payloads : List (Received Group P)

variable {Key Group V P : Type} [DecidableEq Key] [DecidableEq Group]

def State.init (clock : ℕ) : State Key Group V P where
  time := 0
  clock := clock
  cache := []
  inflight := fun _ => none
  payloadCache := []
  payloadInflight := fun _ => none
  eventSet := fun _ => false
  calls := fun _ => {}
  invalidations := []
  listings := []
  payloads := []

namespace State

def setOuter (s : State Key Group V P) (p : ℕ) (outer : Outer Key V) : State Key Group V P :=
  { s with calls := Function.update s.calls p { s.calls p with outer := outer } }

def setInner (s : State Key Group V P) (p : ℕ) (inner : Inner Group P) : State Key Group V P :=
  { s with calls := Function.update s.calls p { s.calls p with inner := inner } }

end State

/-- The result of the future a call owns, once it is done. -/
def Outer.outcome : Outer Key V → Option (Option (Loaded V))
  | .resolved _ outcome | .finished (some (_, outcome)) => some outcome
  | _ => none

/-! ## `get_or_build_single_flight_cache` -/

section Steps

variable (settings : Settings Key Group)

/-- The call returns a value. -/
def returnListing (s : State Key Group V P) (p : ℕ) (key : Key) (startedAt : ℕ) (loaded : Loaded V)
    (future : Option (Ownership Key × Option (Loaded V))) : State Key Group V P :=
  ({ s with listings := s.listings ++ [⟨key, startedAt, loaded⟩] } : State Key Group V P).setOuter p
    (.finished future)

/-- The first region of a call. -/
def lookup (s : State Key Group V P) (p : ℕ) (key : Key) (startedAt : ℕ) : State Key Group V P :=
  let cache := s.cache.prune s.clock settings.maxEntries
  match cache.get key with
  | some cached =>
    returnListing { s with cache := cache.moveToEnd key } p key startedAt cached.value none
  | none =>
    match s.inflight key with
    | some future =>
      ({ s with cache := cache } : State Key Group V P).setOuter p (.waiting key startedAt future)
    | none =>
      ({ s with
        cache := cache
        inflight := Function.update s.inflight key (some p) } : State Key Group V P).setOuter p
          (.registered ⟨key, startedAt, s.time⟩)

/-- The region that stores a built value, unless the future was detached. -/
def storeListing (s : State Key Group V P) (p : ℕ) (own : Ownership Key) (loaded : Loaded V) :
    State Key Group V P :=
  let table := s.cache.store own.key ⟨s.clock + settings.ttl, loaded⟩
  let s := if s.inflight own.key = some p then
      { s with cache := table.prune s.clock settings.maxEntries }
    else s
  s.setOuter p (.stored own loaded)

/-- The last region of an owner, after which it returns or raises. -/
def finishListing (s : State Key Group V P) (p : ℕ) (own : Ownership Key)
    (outcome : Option (Loaded V)) : State Key Group V P :=
  let s := if s.inflight own.key = some p then
      { s with inflight := Function.update s.inflight own.key none }
    else s
  match outcome with
  | some loaded => returnListing s p own.key own.startedAt loaded (some (own, outcome))
  | none => s.setOuter p (.finished (some (own, none)))

/-- The next step of a call that is not inside a payload read. -/
def advanceOuter (s : State Key Group V P) (p : ℕ) : Option (State Key Group V P) :=
  match (s.calls p).outer with
  | .called key startedAt => some (lookup settings s p key startedAt)
  | .waiting key startedAt future =>
    match (s.calls future).outer.outcome with
    | some (some loaded) => some (returnListing s p key startedAt loaded none)
    | some none => some (s.setOuter p (.finished none))
    | none => none
  | .registered own => some (s.setOuter p (.building own s.time))
  | .built own loaded => some (storeListing settings s p own loaded)
  | .stored own loaded => some (s.setOuter p (.resolved own (some loaded)))
  | .failed own => some (s.setOuter p (.resolved own none))
  | .resolved own outcome => some (finishListing s p own outcome)
  | _ => none

/-! ## `get_cached_rgw_bucket_entries` -/

/-- `_cached_rgw_bucket_entries_locked`: the entry, and the table after the lookup. -/
def cachedRgwBucketEntries (table : LruTable (Group × Bool) (Loaded P)) (read : Read Group) :
    Option (Loaded P × LruTable (Group × Bool) (Loaded P)) :=
  let key := (read.endpoint, read.withStats)
  match table.get key with
  | some cached => some (cached.value, table.moveToEnd key)
  | none =>
    if read.withStats then none
    else (table.get (read.endpoint, true)).map fun cached =>
      (cached.value, table.moveToEnd (read.endpoint, true))

/-- A builder that read a payload rests on the load of the payload too. -/
def Outer.uses (loaded : Loaded P) : Outer Key V → Outer Key V
  | .building own oldest => .building own (min oldest loaded.oldest)
  | outer => outer

/-- A read returns entries to its caller. -/
def returnPayload (s : State Key Group V P) (p : ℕ) (read : Read Group) (loaded : Loaded P) :
    State Key Group V P :=
  { s with
    payloads := s.payloads ++ [⟨read.endpoint, read.startedAt, loaded⟩]
    calls := Function.update s.calls p
      { s.calls p with outer := (s.calls p).outer.uses loaded, inner := .idle } }

/-- The region at the head of the loop. -/
def lookupPayload (s : State Key Group V P) (p : ℕ) (read : Read Group) : State Key Group V P :=
  let table := s.payloadCache.prune s.clock settings.payloadMaxEntries
  match cachedRgwBucketEntries table read with
  | some (loaded, table) => returnPayload { s with payloadCache := table } p read loaded
  | none =>
    let s := { s with payloadCache := table }
    match s.payloadInflight read.endpoint with
    | some event => s.setInner p (.waiting read event)
    | none =>
      let event := (p, (s.calls p).loads)
      { s with
        payloadInflight := Function.update s.payloadInflight read.endpoint (some event)
        calls := Function.update s.calls p
          { s.calls p with inner := .registered ⟨read, event, s.time⟩, loads := event.2 + 1 } }

def storePayload (s : State Key Group V P) (p : ℕ) (load : Load Group) (loaded : Loaded P)
    (expiresAt : ℕ) : State Key Group V P :=
  let table := s.payloadCache.store (load.read.endpoint, load.read.withStats) ⟨expiresAt, loaded⟩
  let s := if s.payloadInflight load.read.endpoint = some load.event then
      { s with payloadCache := table.prune s.clock settings.payloadMaxEntries }
    else s
  s.setInner p (.finishing load (some loaded))

def finishPayload (s : State Key Group V P) (p : ℕ) (load : Load Group)
    (outcome : Option (Loaded P)) : State Key Group V P :=
  let s := if s.payloadInflight load.read.endpoint = some load.event then
      { s with payloadInflight := Function.update s.payloadInflight load.read.endpoint none }
    else s
  s.setInner p (.setting load outcome)

/-- The event is set, and the read returns or raises. -/
def setEvent (s : State Key Group V P) (p : ℕ) (load : Load Group) (outcome : Option (Loaded P)) :
    State Key Group V P :=
  let s := { s with eventSet := Function.update s.eventSet load.event true }
  match outcome with
  | some loaded => returnPayload s p load.read loaded
  | none => s.setInner p .idle

def advanceInner (s : State Key Group V P) (p : ℕ) : Option (State Key Group V P) :=
  match (s.calls p).inner with
  | .reading read => some (lookupPayload settings s p read)
  | .waiting read event => if s.eventSet event then some (s.setInner p (.reading read)) else none
  | .registered load => some (s.setInner p (.loading load s.time))
  | .loaded load loaded expiresAt => some (storePayload settings s p load loaded expiresAt)
  | .finishing load outcome => some (finishPayload s p load outcome)
  | .setting load outcome => some (setEvent s p load outcome)
  | _ => none

/-! ## Steps -/

inductive Label (Key Group V P : Type)
  | tick (elapsed : ℕ)
  /-- A new call of `get_or_build_single_flight_cache`. -/
  | call (p : ℕ) (key : Key)
  /-- A call of `get_cached_rgw_bucket_entries`, by a builder of the endpoint or by a thread. -/
  | readPayload (p : ℕ) (endpoint : Group) (withStats : Bool)
  | advance (p : ℕ)
  | builderReturns (p : ℕ) (value : V)
  | builderRaises (p : ℕ)
  | loadReturns (p : ℕ) (entries : P)
  | loadRaises (p : ℕ)
  | invalidate (covers : Group → Bool)

/-- The region of an invalidation: entries and markers of both layers go together. -/
def invalidate (s : State Key Group V P) (covers : Group → Bool) : State Key Group V P :=
  { s with
    cache := s.cache.removeWhere fun key => covers (settings.group key)
    inflight := fun key => if covers (settings.group key) then none else s.inflight key
    payloadCache := s.payloadCache.removeWhere fun key => covers key.1
    payloadInflight := fun endpoint => if covers endpoint then none else s.payloadInflight endpoint
    invalidations := s.invalidations ++ [⟨s.time, covers⟩] }

/-- A read of payloads starts in a builder of the endpoint, or in a thread of its own. -/
def startRead (s : State Key Group V P) (p : ℕ) (endpoint : Group) (withStats : Bool) :
    Option (State Key Group V P) :=
  let s' := s.setInner p (.reading ⟨endpoint, withStats, s.time⟩)
  match (s.calls p).inner, (s.calls p).outer with
  | .idle, .building own _ => if settings.group own.key = endpoint then some s' else none
  | .idle, .unused => some (s'.setOuter p .direct)
  | .idle, .direct => some s'
  | _, _ => none

/-- A step, before the time moves on. -/
def act (s : State Key Group V P) : Label Key Group V P → Option (State Key Group V P)
  | .tick elapsed => some { s with clock := s.clock + elapsed }
  | .call p key =>
    match (s.calls p).outer with
    | .unused => some (s.setOuter p (.called key s.time))
    | _ => none
  | .readPayload p endpoint withStats => startRead settings s p endpoint withStats
  | .advance p =>
    match (s.calls p).inner with
    | .idle => advanceOuter settings s p
    | _ => advanceInner settings s p
  | .builderReturns p value =>
    match (s.calls p).outer, (s.calls p).inner with
    | .building own oldest, .idle => some (s.setOuter p (.built own ⟨value, oldest⟩))
    | _, _ => none
  | .builderRaises p =>
    match (s.calls p).outer, (s.calls p).inner with
    | .building own _, .idle => some (s.setOuter p (.failed own))
    | _, _ => none
  | .loadReturns p entries =>
    match (s.calls p).inner with
    | .loading load loaderStartedAt => some (s.setInner p
        (.loaded load ⟨entries, loaderStartedAt⟩ (s.clock + settings.payloadTtl)))
    | _ => none
  | .loadRaises p =>
    match (s.calls p).inner with
    | .loading load _ => some (s.setInner p (.finishing load none))
    | _ => none
  | .invalidate covers => some (invalidate settings s covers)

def step (s : State Key Group V P) (label : Label Key Group V P) : Option (State Key Group V P) :=
  (act settings s label).map fun s' => { s' with time := s'.time + 1 }

/-- The states of all runs from empty caches. -/
def Reachable (clock : ℕ) (s : State Key Group V P) : Prop :=
  Reached (step settings) anyStep (State.init clock) s

end Steps

end Listings
end BucketReef

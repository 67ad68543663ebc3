import BucketReef.Effects.Transitions
import BucketReef.Scheduling.Claim
import Mathlib.Data.Int.Notation

/-!
# Operation leases

`acquire`, `release` and `hold` one statement at a time, as any number of processes run them against
one table of leases. A statement that writes a row keeps its lock until the transaction ends, and
waits for the lock of another transaction. The clock a call compares with is read before its first
statement.
-/

namespace BucketReef
namespace Leases

open Scheduling Transitions

/-! ## The table and the handles -/

/-- A row of `BackendOperationLease`. -/
structure LeaseRow where
  leaseOwner : String
  leaseUntil : ℕ
  deriving DecidableEq, Repr

/-- What `acquire` returns. -/
structure OperationLeaseHandle where
  operationName : String
  owner : String
  leaseUntil : ℕ
  deriving DecidableEq, Repr

/-- A handle that was returned, with what has been committed since. -/
structure Returned where
  handle : OperationLeaseHandle
  /-- A release of this handle. -/
  released : Bool := false
  /-- Another acquisition of its owner. -/
  replaced : Bool := false
  /-- A release, by any handle of its owner, that matched the row. -/
  ended : Bool := false
  deriving DecidableEq, Repr

namespace Returned

/-- Neither released nor expired. -/
def held (clock : ℕ) (r : Returned) : Bool := !r.released && clock < r.handle.leaseUntil

/-- Held, and still the lease of its owner. -/
def inForce (clock : ℕ) (r : Returned) : Bool := r.held clock && !r.replaced && !r.ended

def sameLease (name owner : String) (r : Returned) : Bool :=
  r.handle.operationName = name && r.handle.owner = owner

def replace (name owner : String) (r : Returned) : Returned :=
  if r.sameLease name owner then { r with replaced := true } else r

def finish (name owner : String) (r : Returned) : Returned :=
  if r.sameLease name owner then { r with ended := true } else r

end Returned

/-- Microseconds, the resolution of the clock. -/
def seconds (n : ℕ) : ℕ := n * 1000000

/-- The values an `acquire` computes before its first statement. -/
structure AcquireCall where
  name : String
  leaseOwner : String
  now : ℕ
  leaseUntil : ℕ
  /-- The call is made by `hold`. -/
  hold : Bool
  deriving DecidableEq, Repr

namespace AcquireCall

def handle (call : AcquireCall) : OperationLeaseHandle :=
  ⟨call.name, call.leaseOwner, call.leaseUntil⟩

def row (call : AcquireCall) : LeaseRow := ⟨call.leaseOwner, call.leaseUntil⟩

/-- The condition of the update. -/
def takes (call : AcquireCall) (row : LeaseRow) : Bool :=
  row.leaseUntil ≤ call.now || row.leaseOwner = call.leaseOwner

end AcquireCall

/-- A `release`: the number of the handle among those returned, and the clock it read. -/
structure ReleaseCall where
  index : ℕ
  handle : OperationLeaseHandle
  now : ℕ
  deriving DecidableEq, Repr

/-- Where a process stands. -/
inductive Phase
  | idle
  /-- About to run the conditional update. -/
  | updating (call : AcquireCall)
  /-- The update matched the row; the commit is next. -/
  | updated (call : AcquireCall)
  /-- The update matched nothing and was rolled back; the insert is next. -/
  | inserting (call : AcquireCall)
  | inserted (call : AcquireCall)
  /-- In the body of `hold`. -/
  | working (index : ℕ) (handle : OperationLeaseHandle)
  | releasing (call : ReleaseCall)
  /-- The update of a release is done, with the number of rows it matched; the commit is next. -/
  | released (call : ReleaseCall) (matched : Bool)
  deriving DecidableEq, Repr

structure State where
  clock : ℕ
  table : String → Option LeaseRow
  /-- The process whose open transaction wrote the row of a name. -/
  lock : String → Option ℕ
  phase : ℕ → Phase
  handles : List Returned

def State.init (clock : ℕ) : State := ⟨clock, fun _ => none, fun _ => none, fun _ => .idle, []⟩

/-- `current_owner` of a normalized name. -/
def currentOwner (s : State) (name : String) : Option String :=
  ((s.table name).filter fun row => s.clock < row.leaseUntil).map LeaseRow.leaseOwner

/-! ## Steps -/

inductive CommitOutcome
  | done
  /-- The commit took effect, but the process never learns of it. -/
  | lost
  /-- The commit failed and the transaction was rolled back. -/
  | failed
  deriving DecidableEq, Repr

inductive Label
  | tick (elapsed : ℕ)
  /-- A call of `acquire`, or the entry of `hold`. -/
  | acquire (process : ℕ) (operationName owner : String) (ttlSeconds : ℤ) (hold : Bool)
  /-- The update statement of the call a process is in. -/
  | update (process : ℕ)
  | insert (process : ℕ)
  | commit (process : ℕ) (outcome : CommitOutcome)
  /-- A call of `release` with a returned handle. -/
  | release (process index : ℕ)
  /-- The body of a `hold` ends or raises. -/
  | leave (process : ℕ)
  | crash (process : ℕ)
  deriving DecidableEq, Repr

namespace State

def setPhase (s : State) (process : ℕ) (phase : Phase) : State :=
  { s with phase := Function.update s.phase process phase }

/-- The process writes the row of `name` and keeps its lock. -/
def takeLock (s : State) (process : ℕ) (name : String) : State :=
  { s with lock := Function.update s.lock name (some process) }

def dropLock (s : State) (name : String) : State :=
  { s with lock := Function.update s.lock name none }

def setRow (s : State) (name : String) (row : LeaseRow) : State :=
  { s with table := Function.update s.table name (some row) }

/-- The commit of an acquisition; its handle is returned unless the reply was lost. -/
def commitAcquire (s : State) (process : ℕ) (call : AcquireCall) (returns : Bool) : State :=
  let s := (s.setRow call.name call.row).dropLock call.name
  let s := { s with handles := s.handles.map (Returned.replace call.name call.leaseOwner) }
  if returns then
    ({ s with handles := s.handles ++ [{ handle := call.handle }] } : State).setPhase process
      (if call.hold then .working s.handles.length call.handle else .idle)
  else s.setPhase process .idle

/-- Marks the handle of a release, and all handles of its owner when it matched the row. -/
def markReleased (call : ReleaseCall) (matched : Bool) (handles : List Returned) : List Returned :=
  let handles := handles.mapIdx fun i r => if i = call.index then { r with released := true } else r
  if matched then handles.map (Returned.finish call.handle.operationName call.handle.owner)
  else handles

def commitRelease (s : State) (process : ℕ) (call : ReleaseCall) (matched : Bool) : State :=
  let name := call.handle.operationName
  let s := if matched then
      { s with
        table := Function.update s.table name
          ((s.table name).map fun row => { row with leaseUntil := call.now })
        lock := Function.update s.lock name none }
    else s
  ({ s with handles := markReleased call matched s.handles } : State).setPhase process .idle

end State

/-- The name whose row the open transaction of a phase has written. -/
def Phase.writes : Phase → Option String
  | .updated call | .inserted call => some call.name
  | .released call true => some call.handle.operationName
  | _ => none

/-- The transaction of a process is rolled back, and its call ends. -/
def State.abort (s : State) (process : ℕ) : State :=
  match (s.phase process).writes with
  | some name => (s.dropLock name).setPhase process .idle
  | none => s.setPhase process .idle

/-- The update of an acquisition. It waits only for the lock of a row it matches. -/
def updateAcquire (s : State) (process : ℕ) (call : AcquireCall) : Option State :=
  if (s.table call.name).any call.takes then
    if s.lock call.name = none then
      some ((s.takeLock process call.name).setPhase process (.updated call))
    else none
  else some (s.setPhase process (.inserting call))

/-- The insert of an acquisition; a row with the name raises `IntegrityError`. -/
def insertAcquire (s : State) (process : ℕ) (call : AcquireCall) : Option State :=
  if (s.table call.name).isSome then some (s.setPhase process .idle)
  else if s.lock call.name = none then
    some ((s.takeLock process call.name).setPhase process (.inserted call))
  else none

/-- The update of a release, which matches the row by its owner only. -/
def updateRelease (s : State) (process : ℕ) (call : ReleaseCall) : Option State :=
  let name := call.handle.operationName
  if (s.table name).any fun row => row.leaseOwner = call.handle.owner then
    if s.lock name = none then
      some ((s.takeLock process name).setPhase process (.released call true))
    else none
  else some (s.setPhase process (.released call false))

def step (s : State) : Label → Option State
  | .tick elapsed => some { s with clock := s.clock + elapsed }
  | .acquire process operationName owner ttlSeconds hold =>
    let name := strip operationName
    if s.phase process = .idle ∧ name ≠ "" then
      let ttl := (max 15 ttlSeconds).toNat
      some (s.setPhase process (.updating ⟨name, owner, s.clock, s.clock + seconds ttl, hold⟩))
    else none
  | .update process =>
    match s.phase process with
    | .updating call => updateAcquire s process call
    | .releasing call => updateRelease s process call
    | _ => none
  | .insert process =>
    match s.phase process with
    | .inserting call => insertAcquire s process call
    | _ => none
  | .commit process outcome =>
    match s.phase process with
    | .updated call | .inserted call =>
      if outcome = .failed then some (s.abort process)
      else some (s.commitAcquire process call (outcome = .done))
    | .released call matched =>
      if outcome = .failed then some (s.abort process)
      else some (s.commitRelease process call matched)
    | _ => none
  | .release process index =>
    match s.phase process, s.handles[index]? with
    | .idle, some r => some (s.setPhase process (.releasing ⟨index, r.handle, s.clock⟩))
    | _, _ => none
  | .leave process =>
    match s.phase process with
    | .working index handle => some (s.setPhase process (.releasing ⟨index, handle, s.clock⟩))
    | _ => none
  | .crash process => some (s.abort process)

/-- The states of all runs on an empty table. -/
def Reachable (clock : ℕ) (s : State) : Prop := Reached step anyStep (State.init clock) s

end Leases
end BucketReef

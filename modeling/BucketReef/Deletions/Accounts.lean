import BucketReef.Effects.Transitions

/-!
# Deleting an account

`delete_account` on one account, one call of RGW or commit at a time. An attempt may fail at any call
and may die anywhere; the next one resumes at the first checkpoint that was not committed. What RGW
answers is arbitrary.
-/

namespace BucketReef
namespace AccountDeletion

open Transitions

/-- What names the account at RGW. -/
structure Target where
  rgwAccountId : ℕ
  rgwUserUid : ℕ
  rgwTenant : ℕ
  storageEndpointId : ℕ
  deriving DecidableEq, Repr

/-- `S3AccountDeletion` -/
structure Deletion where
  target : Target
  iamCleanupCompleted : Bool := false
  rootUserDeleted : Bool := false
  remoteAccountDeleted : Bool := false
  deriving DecidableEq, Repr

/-- The calls of `_load_remote_account`. -/
inductive Lookup
  | first | remote
  /-- After `delete_account` answered not found. -/
  | again
  deriving DecidableEq, Repr

/-- The calls of `_require_remote_account_empty`. -/
inductive Check
  | claim | iamCleanup | rootUser
  deriving DecidableEq, Repr

inductive Phase
  | idle | context
  | getAccount (lookup : Lookup) | listAccounts (lookup : Lookup)
  | requireEmpty (check : Check)
  | claim
  | iamInventory | removeGroups | iamCheckpoint
  | getRoot | confirmNoRoot | deleteRoot | rootCheckpoint
  | deleteAccount | accountCheckpoint
  | deleteLocal
  deriving DecidableEq, Repr

/-- A call of `delete_account`, and what its inventories found. -/
structure Attempt where
  deleteRgw : Bool := false
  endpointId : ℕ := 0
  iamEnabled : Bool := false
  /-- It resumes after the checkpoint of the IAM cleanup. -/
  resumed : Bool := false
  noBuckets : Bool := false
  /-- No user other than the root. -/
  noUsers : Bool := false
  deriving DecidableEq, Repr

inductive Event
  /-- With what the attempt found, and whether the checkpoint was committed before. -/
  | rootDeleted (attempt : Attempt) (checkpointed : Bool)
  /-- With what some attempt found before the IAM cleanup. -/
  | accountDeleted (attempt : Attempt) (inventoried checkpointed : Bool)
  | localDeleted (attempt : Attempt) (confirmed : Bool)
  deriving DecidableEq, Repr

structure State where
  account : Option Target
  deletion : Option Deletion := none
  phase : Phase := .idle
  attempt : Attempt := {}
  /-- The accounts RGW confirmed as deleted or absent. -/
  confirmed : List ℕ := []
  /-- An attempt found neither bucket nor user before the IAM cleanup. -/
  inventoried : Bool := false
  rootCheckpointed : Bool := false
  accountCheckpointed : Bool := false
  events : List Event := []

/-- `get_account`, or `get_user` of the root. -/
inductive Found
  | error
  /-- Somebody else, or no detail that proves who it is. -/
  | other
  | found
  | missing
  deriving DecidableEq, Repr

/-- What `delete_account` of RGW answers. -/
inductive Deleted
  | error | notImplemented | notFound | done
  deriving DecidableEq, Repr

structure Answer where
  failed : Bool := false
  /-- A failed commit took effect. -/
  effect : Bool := false
  found : Found := .found
  /-- The account is listed. -/
  listed : Bool := false
  bucketCount : Option ℕ := some 0
  userCount : Option ℕ := some 0
  topicCount : Option ℕ := some 0
  /-- IAM users, roles, groups that are not the Portal's, or members of groups. -/
  attached : Bool := false
  /-- The strict answer `NoSuchUser`. -/
  noSuchUser : Bool := true
  deleted : Deleted := .done
  deriving DecidableEq, Repr

namespace Deletion

def matchesTarget (deletion : Deletion) (account : Target) (endpointId : ℕ) : Bool :=
  deletion.target = account && deletion.target.storageEndpointId = endpointId

/-- The first step that is not checkpointed. -/
def resume (deletion : Deletion) : Phase :=
  if deletion.iamCleanupCompleted = false then .requireEmpty .iamCleanup
  else if deletion.rootUserDeleted = false then .getRoot
  else if deletion.remoteAccountDeleted = false then .getAccount .remote
  else .deleteLocal

end Deletion

namespace State

def goto (s : State) (phase : Phase) : State := { s with phase := phase }

def log (s : State) (event : Event) : State := { s with events := s.events ++ [event] }

/-- An exception of a commit ends the attempt. -/
def commit (s : State) (answer : Answer) (after : State) (next : Phase) : State :=
  settle answer.failed answer.effect s after (·.goto .idle) (·.goto next)

/-- RGW confirmed that the account is gone. -/
def confirm (s : State) : State :=
  { s with confirmed := s.confirmed ++ (s.account.map Target.rgwAccountId).toList }

/-- `_checkpoint` -/
def checkpoint (s : State) (answer : Answer) (ghosts : State → State) (set : Deletion → Deletion) :
    State :=
  match s.deletion with
  | none => s.goto .idle
  | some deletion =>
    s.commit answer { ghosts s with deletion := some (set deletion) } (set deletion).resume

def isConfirmed (s : State) : Bool :=
  s.account.any fun account => account.rgwAccountId ∈ s.confirmed

end State

/-- `_require_remote_account_empty` raises. -/
def blocked (attempt : Attempt) (answer : Answer) : Bool :=
  answer.bucketCount = none || (answer.userCount = none && !attempt.iamEnabled) ||
    answer.topicCount = none || answer.bucketCount ≠ some 0 || answer.userCount.getD 0 ≠ 0 ||
    answer.topicCount ≠ some 0

/-- The next call of `delete_account`. -/
def advance (s : State) (answer : Answer) : Phase → Option State
  | .idle => none
  | .context =>
    match s.account with
    | none => none
    | some account =>
      if answer.failed then some (s.goto .idle)
      else match s.deletion with
        | none => some (s.goto (if s.attempt.deleteRgw then .getAccount .first else .deleteLocal))
        | some deletion =>
          if s.attempt.deleteRgw = false ∨
              deletion.matchesTarget account s.attempt.endpointId = false then some (s.goto .idle)
          else some ({ s with attempt := { s.attempt with
            resumed := deletion.iamCleanupCompleted } }.goto deletion.resume)
  | .getAccount lookup =>
    some (s.goto (match answer.found with
      | .error | .other => .idle
      | .missing => .listAccounts lookup
      | .found =>
        match lookup with
        | .first => .requireEmpty .claim
        | .remote => .deleteAccount
        | .again => .idle))
  | .listAccounts lookup =>
    if answer.failed ∨ answer.listed then some (s.goto .idle)
    else some (s.confirm.goto (match lookup with
      | .first => .deleteLocal
      | .remote | .again => .accountCheckpoint))
  | .requireEmpty check =>
    if blocked s.attempt answer then some (s.goto .idle)
    else some ({ s with attempt := { s.attempt with
        noBuckets := true
        noUsers := s.attempt.noUsers || answer.userCount.isSome } }.goto (match check with
      | .claim => .claim
      | .iamCleanup => .iamInventory
      | .rootUser => .deleteRoot))
  | .claim =>
    s.account.map fun account =>
      let deletion : Deletion :=
        { target := { account with storageEndpointId := s.attempt.endpointId } }
      s.commit answer { s with deletion := some deletion } deletion.resume
  | .iamInventory =>
    if s.attempt.iamEnabled = false then some (s.goto .iamCheckpoint)
    else if answer.failed ∨ answer.attached then some (s.goto .idle)
    else some ({ s with attempt := { s.attempt with noUsers := true } }.goto .removeGroups)
  | .removeGroups => some (s.goto (if answer.failed then .idle else .iamCheckpoint))
  | .iamCheckpoint =>
    some (s.checkpoint answer (fun s => { s with
      inventoried := s.inventoried || (s.attempt.noBuckets && s.attempt.noUsers) })
      fun deletion => { deletion with iamCleanupCompleted := true })
  | .getRoot =>
    some (s.goto (match answer.found with
      | .error | .other => .idle
      | .missing => .confirmNoRoot
      | .found => .requireEmpty .rootUser))
  | .confirmNoRoot => some (s.goto (if answer.noSuchUser then .rootCheckpoint else .idle))
  | .deleteRoot =>
    some ((s.log (.rootDeleted s.attempt s.rootCheckpointed)).goto (
      if answer.failed then .idle else .rootCheckpoint))
  | .rootCheckpoint =>
    some (s.checkpoint answer (fun s => { s with rootCheckpointed := true }) fun deletion =>
      { deletion with rootUserDeleted := true })
  | .deleteAccount =>
    let called := s.log (.accountDeleted s.attempt s.inventoried s.accountCheckpointed)
    some (match answer.deleted with
      | .error | .notImplemented => called.goto .idle
      | .notFound => called.goto (.getAccount .again)
      | .done => called.confirm.goto .accountCheckpoint)
  | .accountCheckpoint =>
    some (s.checkpoint answer (fun s => { s with accountCheckpointed := true }) fun deletion =>
      { deletion with remoteAccountDeleted := true })
  | .deleteLocal =>
    some (s.commit answer ({ s with account := none, deletion := none }.log
      (.localDeleted s.attempt s.isConfirmed)) .idle)

inductive Label
  | delete (deleteRgw : Bool) (endpointId : ℕ) (iamEnabled : Bool)
  /-- The next call of the attempt. -/
  | advance (answer : Answer)
  /-- The process dies. -/
  | crash
  /-- The row of the account changes between two attempts. -/
  | edit (target : Target)
  deriving DecidableEq, Repr

def step (s : State) : Label → Option State
  | .delete deleteRgw endpointId iamEnabled =>
    if s.phase = .idle ∧ s.account.isSome then
      some { s with
        phase := .context
        attempt := { deleteRgw := deleteRgw, endpointId := endpointId, iamEnabled := iamEnabled } }
    else none
  | .advance answer => advance s answer s.phase
  | .crash => some (s.goto .idle)
  | .edit target =>
    if s.phase = .idle then some { s with account := s.account.map fun _ => target } else none

def State.init (account : Target) : State := { account := some account }

end AccountDeletion
end BucketReef

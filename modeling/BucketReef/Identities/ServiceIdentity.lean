import BucketReef.Effects.Transitions
import Mathlib.Data.List.Basic
import Mathlib.Logic.Function.Basic

/-!
# A managed service identity

`revoke`, `reconcile` and `rotate` on one managed identity of an endpoint, one RGW call or commit at a
time. They hold the lease of the endpoint, so one runs at a time, and each reads committed rows when it
starts. Any call may fail, with or without its effect, and the process may die anywhere. An access key
stands for the pair with its secret; a call for an identity without an RGW uid fails.
-/

namespace BucketReef
namespace ServiceIdentities

open Transitions

inductive Status
  | missing | notProvisioned | provisioning | ready | error | revocationPending | disabled
  deriving DecidableEq, Repr

/-- `EndpointServiceIdentity` in mode `managed`. -/
structure Identity where
  status : Status
  provenance : Option ℕ
  rgwUid : Option ℕ
  accessKey : Option ℕ
  /-- `last_reconciled_at` is set. -/
  reconciled : Bool
  deriving DecidableEq, Repr

/-- `KeyRotationIntent` -/
structure Intent where
  rgwUid : ℕ
  oldAccessKey : ℕ
  newAccessKey : ℕ
  activated : Bool := false
  deriving DecidableEq, Repr

/-- What RGW says about a user. -/
structure Payload where
  keys : List ℕ
  /-- Swift or temporary-URL keys. -/
  otherKeys : Bool := false
  deriving DecidableEq, Repr

/-- This installation: its provenance for the endpoint, and the uid it derives from it. -/
structure Installation where
  provenance : ℕ
  uid : ℕ

namespace Identity

def owns (identity : Identity) (payload : Payload) : Bool :=
  identity.accessKey.any fun key => key ∈ payload.keys

def validManagedKeys (identity : Identity) (intent : Option Intent) (payload : Payload) : Bool :=
  let allowed := identity.accessKey.toList ++
    intent.toList.flatMap fun intent => [intent.oldAccessKey, intent.newAccessKey]
  (payload.keys.all fun key => key ∈ allowed) && identity.owns payload && !payload.otherKeys

/-- Nothing was ever provisioned for the identity. -/
def unprovisioned (identity : Identity) : Bool :=
  identity.rgwUid = none && identity.accessKey = none && identity.provenance = none

end Identity

inductive Phase
  | idle
  | revokeStart | revokeAdmin | revokeRead (usersWrite : Bool) | revokeDelete (uid : ℕ)
  | revokeConfirm (uid : ℕ) | revokeCommit | revokeFailed
  | keyDrift
  | reconcileAdmin (provisionUnprovisioned : Bool)
  | reconcileAdminFailed (provisionUnprovisioned : Bool)
  | reconcileStart (usersWrite provisionUnprovisioned : Bool) (newKey : ℕ)
  | provisionCommit (usersWrite : Bool) (newKey : ℕ)
  | readRemote (usersWrite : Bool)
  | recreateCommit (uid key : ℕ) | createRemote (uid key : ℕ) | setCaps (uid : ℕ) | validate
  | readyCommit (uid : ℕ) | reconcileFailed (unavailable : Bool)
  | rotateStart | rotateAdmin | rotatePrepare | prepareCommit (intent : Intent) | rotateResume
  | createKey | checkReplacement | activateCommit | retireRead | deleteKey | retireCheck
  | completeCommit | rotateFailed (replacement : Bool)
  deriving DecidableEq, Repr

/-- The last `get_user` of a call, with its answer. -/
abbrev Seen := Option (ℕ × Option Payload)

/-- What a call did. -/
inductive Event
  | created (uid : ℕ) (seen : Seen)
  | capped (uid : ℕ) (identity : Identity) (seen : Seen)
  | deleted (uid : ℕ) (identity : Identity) (seen : Seen)
  | disabled (identity : Identity) (seen : Seen)
  deriving DecidableEq, Repr

structure State where
  identity : Identity
  intent : Option Intent
  /-- The users of RGW. -/
  remote : ℕ → Option Payload
  phase : Phase := .idle
  seen : Seen := none
  /-- A revocation was committed, and the identity was not disabled since. -/
  revoking : Bool := false
  events : List Event := []

/-- How a call ends. -/
structure Answer where
  failed : Bool := false
  /-- A failed call had its effect. -/
  effect : Bool := false
  usersWrite : Bool := true
  /-- The caps, flags and functional checks pass. -/
  accepted : Bool := true
  /-- A failure is a transient one. -/
  unavailable : Bool := false
  newKey : ℕ := 0
  /-- The user a lookup by access key finds. -/
  uid : ℕ := 0
  deriving DecidableEq, Repr

namespace State

def goto (s : State) (phase : Phase) : State := { s with phase := phase }

def setStatus (s : State) (status : Status) : State :=
  { s with identity := { s.identity with status := status } }

def setRemote (s : State) (uid : ℕ) (payload : Option Payload) : State :=
  { s with remote := Function.update s.remote uid payload }

/-- `get_user` of a uid. -/
def look (s : State) (uid : ℕ) : State := { s with seen := some (uid, s.remote uid) }

def log (s : State) (event : Event) : State := { s with events := s.events ++ [event] }

/-- A commit that leaves `after`. An exception of it ends the call. -/
def commit (s : State) (answer : Answer) (after : State) (next : Phase) : State :=
  if answer.failed then (if answer.effect then after else s).goto .idle else after.goto next

/-- A call of RGW that leaves `after`. -/
def write (s : State) (answer : Answer) (after : State) (next failed : Phase) : State :=
  if answer.failed then (if answer.effect then after else s).goto failed else after.goto next

/-- An error does not hide a pending revocation. -/
def errorStatus (s : State) : State :=
  if s.identity.status = .revocationPending then s else s.setStatus .error

/-- `identity.status = "disabled"` -/
def disable (s : State) (identity : Identity) : State :=
  { s with identity := { identity with status := .disabled }, revoking := false }

end State

section Calls

variable (installation : Installation)

/-- The next call of `revoke`. -/
def advanceRevoke (s : State) (answer : Answer) : Phase → State
  | .revokeStart =>
    if s.identity.status = .disabled || s.identity.unprovisioned then
      s.commit answer ((s.disable s.identity).log (.disabled s.identity s.seen)) .idle
    else
      s.commit answer { s.setStatus .revocationPending with revoking := true } .revokeAdmin
  | .revokeAdmin => s.goto (if answer.failed then .revokeFailed else .revokeRead answer.usersWrite)
  | .revokeRead usersWrite =>
    match s.identity.rgwUid with
    | none => s.goto .revokeFailed
    | some uid =>
      if answer.failed then s.goto .revokeFailed
      else match s.remote uid with
        | none => (s.look uid).goto .revokeCommit
        | some payload =>
          (s.look uid).goto (
            if s.identity.provenance ≠ some installation.provenance ∨ s.identity.owns payload = false
            then .revokeFailed
            else if s.identity.validManagedKeys s.intent payload = false then .keyDrift
            else if usersWrite = false then .revokeFailed
            else .revokeDelete uid)
  | .revokeDelete uid =>
    s.write answer ((s.setRemote uid none).log (.deleted uid s.identity s.seen)) (.revokeConfirm uid)
      .revokeFailed
  | .revokeConfirm uid =>
    if answer.failed then s.goto .revokeFailed
    else (s.look uid).goto (if s.remote uid = none then .revokeCommit else .revokeFailed)
  | .revokeCommit =>
    s.commit answer ({ s.disable { s.identity with accessKey := none, reconciled := true } with
      intent := none }.log (.disabled s.identity s.seen)) .idle
  | .revokeFailed => s.commit answer (s.setStatus .revocationPending) .idle
  | phase => s.goto phase

/-- The next call of `reconcile`. -/
def advanceReconcile (s : State) (answer : Answer) : Phase → State
  | .reconcileAdmin provisionUnprovisioned =>
    s.goto (if answer.failed then .reconcileAdminFailed provisionUnprovisioned
      else .reconcileStart answer.usersWrite provisionUnprovisioned answer.newKey)
  | .reconcileAdminFailed provisionUnprovisioned =>
    if (provisionUnprovisioned = false ∧ s.identity.status = .notProvisioned) ∨
        s.identity.status ∈ [Status.ready, .revocationPending, .disabled] then
      s.goto .idle
    else s.commit answer (s.setStatus .error) .idle
  | .reconcileStart usersWrite provisionUnprovisioned newKey =>
    s.goto (
      if provisionUnprovisioned = false ∧ s.identity.status = .notProvisioned then .idle
      else if s.identity.status = .revocationPending then .revokeStart
      else if s.identity.rgwUid.isSome ∧ s.identity.accessKey.isSome then .readRemote usersWrite
      else if usersWrite = false ∨
          (s.identity.provenance ≠ none ∧ s.identity.provenance ≠ some installation.provenance)
        then .reconcileFailed false
      else .provisionCommit usersWrite newKey)
  | .provisionCommit usersWrite newKey =>
    s.commit answer { s with identity := { s.identity with
      provenance := some installation.provenance
      rgwUid := some installation.uid
      accessKey := some (s.identity.accessKey.getD newKey)
      status := .provisioning } } (.readRemote usersWrite)
  | .readRemote usersWrite =>
    if s.identity.provenance ≠ some installation.provenance then s.goto (.reconcileFailed false)
    else match s.identity.rgwUid, s.identity.accessKey with
      | some uid, some key =>
        if answer.failed then s.goto (.reconcileFailed answer.unavailable)
        else (s.look uid).goto (match s.remote uid with
          | some payload =>
            if s.identity.owns payload = false then .reconcileFailed false
            else if s.identity.validManagedKeys s.intent payload = false then .keyDrift
            else if s.identity.reconciled = false ∧ usersWrite = true then .setCaps uid
            else .validate
          | none =>
            if usersWrite = false then .reconcileFailed false else .recreateCommit uid key)
      | _, _ => s.goto (.reconcileFailed false)
  | .recreateCommit uid key => s.commit answer (s.setStatus .provisioning) (.createRemote uid key)
  | .createRemote uid key =>
    -- RGW refuses a uid that exists
    if s.remote uid ≠ none then s.goto (.reconcileFailed false)
    else
      let created := ((s.setRemote uid (some { keys := [key] })).log (.created uid s.seen)).look uid
      s.write answer { created with seen := some (uid, some { keys := [key] }) } (
        if s.identity.validManagedKeys s.intent { keys := [key] } = false then .keyDrift
        else .setCaps uid) (.reconcileFailed answer.unavailable)
  | .setCaps uid =>
    s.write answer (s.log (.capped uid s.identity s.seen)) .validate
      (.reconcileFailed answer.unavailable)
  | .validate =>
    if answer.failed then s.goto (.reconcileFailed answer.unavailable)
    else s.goto (match s.remote answer.uid with
      | none => .reconcileFailed false
      | some payload =>
        if s.identity.owns payload = false ∨ answer.accepted = false then .reconcileFailed false
        else if s.identity.validManagedKeys s.intent payload = false then .keyDrift
        else .readyCommit answer.uid)
  | .readyCommit uid =>
    s.commit answer { s with identity := { s.identity with
      rgwUid := some uid, status := .ready, reconciled := true } } .idle
  | .reconcileFailed unavailable =>
    if unavailable = true ∧ s.identity.status = .ready then s.goto .idle
    else s.commit answer s.errorStatus .idle
  | phase => s.goto phase

/-- `_validate` of a payload; a key drift, and a replacement key that RGW does not list, are a failed
validation here. -/
def checked (s : State) (intent : Intent) (answer : Answer) (payload : Option Payload)
    (next : Payload → Phase) : Phase :=
  match payload with
  | none => .rotateFailed false
  | some payload =>
    if intent.newAccessKey ∉ payload.keys then .rotateFailed true
    else if answer.accepted = false ∨ s.identity.validManagedKeys s.intent payload = false then
      .rotateFailed true
    else next payload

/-- The next call of `rotate`. -/
def advanceRotate (s : State) (answer : Answer) : Phase → State
  | .rotateStart =>
    s.goto (if s.identity.status ≠ .ready ∧ s.intent = none then .rotateFailed false else .rotateAdmin)
  | .rotateAdmin =>
    s.goto (if answer.failed ∨ answer.usersWrite = false then .rotateFailed false
      else if s.intent = none then .rotatePrepare else .rotateResume)
  | .rotatePrepare =>
    match s.identity.rgwUid, s.identity.accessKey with
    | some uid, some key =>
      if answer.failed then s.goto (.rotateFailed false)
      else (s.look uid).goto (match s.remote uid with
        | none => .rotateFailed true
        | some payload =>
          if s.identity.provenance ≠ some installation.provenance ∨ s.identity.owns payload = false
          then .rotateFailed true
          else if s.identity.validManagedKeys s.intent payload = false then .keyDrift
          else .prepareCommit { rgwUid := uid, oldAccessKey := key, newAccessKey := answer.newKey })
    | _, _ => s.goto (.rotateFailed false)
  | .prepareCommit intent => s.commit answer { s with intent := some intent } .rotateResume
  | .rotateResume =>
    match s.intent with
    | none => s.goto (.rotateFailed false)
    | some intent =>
      let expected := if intent.activated then intent.newAccessKey else intent.oldAccessKey
      if s.identity.accessKey ≠ some expected then s.goto (.rotateFailed false)
      else if s.identity.provenance ≠ some installation.provenance ∨
          s.identity.rgwUid ≠ some intent.rgwUid then s.goto (.rotateFailed true)
      else if answer.failed then s.goto (.rotateFailed false)
      else (s.look intent.rgwUid).goto (match s.remote intent.rgwUid with
        | none => .rotateFailed false
        | some payload =>
          if s.identity.owns payload = false then .rotateFailed true
          else if s.identity.validManagedKeys s.intent payload = false then .keyDrift
          else if intent.activated then .retireRead
          else if intent.newAccessKey ∈ payload.keys then .checkReplacement
          else .createKey)
  | .createKey =>
    match s.intent with
    | none => s.goto (.rotateFailed false)
    | some intent =>
      let payload := (s.remote intent.rgwUid).map fun payload =>
        { payload with keys := payload.keys ++ [intent.newAccessKey] }
      s.write answer (s.setRemote intent.rgwUid payload) .checkReplacement (.rotateFailed false)
  | .checkReplacement =>
    match s.intent with
    | none => s.goto (.rotateFailed false)
    | some intent =>
      if answer.failed then s.goto (.rotateFailed false)
      else (s.look intent.rgwUid).goto (checked s intent answer (s.remote intent.rgwUid) fun _ =>
        .activateCommit)
  | .activateCommit =>
    match s.intent with
    | none => s.goto (.rotateFailed false)
    | some intent =>
      s.commit answer { s with
        identity := { s.identity with accessKey := some intent.newAccessKey }
        intent := some { intent with activated := true } } .retireRead
  | .retireRead =>
    match s.intent with
    | none => s.goto (.rotateFailed false)
    | some intent =>
      if answer.failed then s.goto (.rotateFailed false)
      else (s.look intent.rgwUid).goto (checked s intent answer (s.remote intent.rgwUid) fun payload =>
        if intent.oldAccessKey ∈ payload.keys then .deleteKey else .retireCheck)
  | .deleteKey =>
    match s.intent with
    | none => s.goto (.rotateFailed false)
    | some intent =>
      let payload := (s.remote intent.rgwUid).map fun payload =>
        { payload with keys := payload.keys.filter fun key => key ≠ intent.oldAccessKey }
      s.write answer (s.setRemote intent.rgwUid payload) .retireCheck (.rotateFailed false)
  | .retireCheck =>
    match s.intent with
    | none => s.goto (.rotateFailed false)
    | some intent =>
      if answer.failed then s.goto (.rotateFailed false)
      else (s.look intent.rgwUid).goto (checked s intent answer (s.remote intent.rgwUid) fun payload =>
        if intent.oldAccessKey ∈ payload.keys then .rotateFailed false else .completeCommit)
  | .completeCommit =>
    s.commit answer { s with
      intent := none, identity := { s.identity with status := .ready, reconciled := true } } .idle
  | .rotateFailed replacement =>
    if replacement then s.commit answer (s.setStatus .error) .idle else s.goto .idle
  | phase => s.goto phase

inductive Label
  | revoke
  | reconcile (provisionUnprovisioned : Bool)
  | rotate
  /-- The next call of the running operation. -/
  | advance (answer : Answer)
  /-- The process dies, and its lease expires. -/
  | crash
  /-- Somebody else changes a user of RGW. -/
  | setRemote (uid : ℕ) (payload : Option Payload)
  deriving DecidableEq, Repr

/-- The lease is free. -/
def start (s : State) (phase : Phase) : Option State :=
  if s.phase = .idle then some { s with phase := phase, seen := none } else none

def advance (s : State) (answer : Answer) : Option State :=
  match s.phase with
  | .idle => none
  | .revokeStart | .revokeAdmin | .revokeRead _ | .revokeDelete _ | .revokeConfirm _ | .revokeCommit
  | .revokeFailed => some (advanceRevoke installation s answer s.phase)
  | .keyDrift => some (s.commit answer { s.errorStatus with
      identity := { s.errorStatus.identity with reconciled := true } } .idle)
  | .rotateStart | .rotateAdmin | .rotatePrepare | .prepareCommit _ | .rotateResume | .createKey
  | .checkReplacement | .activateCommit | .retireRead | .deleteKey | .retireCheck | .completeCommit
  | .rotateFailed _ => some (advanceRotate installation s answer s.phase)
  | _ => some (advanceReconcile installation s answer s.phase)

def step (s : State) : Label → Option State
  | .revoke => start s .revokeStart
  | .reconcile provisionUnprovisioned => start s (.reconcileAdmin provisionUnprovisioned)
  | .rotate => start s .rotateStart
  | .advance answer => advance installation s answer
  | .crash => some (s.goto .idle)
  | .setRemote uid payload => some (s.setRemote uid payload)

end Calls

/-- A rotation writes a status over `revocation_pending` neither at its end nor when it rejects the
replacement. -/
def keepsRevocation (s : State) : Label → Bool
  | .advance _ =>
    match s.phase with
    | .completeCommit | .rotateFailed true => s.identity.status ≠ .revocationPending
    | _ => true
  | _ => true

end ServiceIdentities
end BucketReef

import BucketReef.Effects.System
import Mathlib

/-!
# Managed private access

A user gets a private connection with credentials of its own: an IAM user is created at RGW, joins
groups, gets policies and an access key, and a row records what was created. Every remote change has a
checkpoint of its own. When a step fails, the recorded resources are deleted again.
-/

namespace BucketReef
namespace ManagedAccess

open Effects

/-! ## The row and the remote user -/

/-- The list columns of a row. -/
inductive ListField
  | iamGroups | iamManagedPolicies | iamInlinePolicyNames
  deriving DecidableEq, Repr

/-- What RGW holds under the deterministic user name: the user, its groups and policies, its keys. -/
inductive Resource
  | principal
  | listed (field : ListField) (value : String)
  | accessKey (id : String)
  deriving DecidableEq, Repr

inductive RowState
  | provisioning | active | deleting | cleanupPending | failed
  deriving DecidableEq, Repr

/-- `ManagedPrivateAccess`; of its connection only whether it is active. -/
structure Row where
  state : RowState := .provisioning
  connection : Option Bool := none
  iamGroups : List String := []
  iamManagedPolicies : List String := []
  iamInlinePolicyNames : List String := []
  accessKeyId : Option String := none
  createdRemotePrincipal : Bool := false
  createdAccessKey : Bool := false
  deriving DecidableEq, Repr

namespace Row

def list (row : Row) : ListField → List String
  | .iamGroups => row.iamGroups
  | .iamManagedPolicies => row.iamManagedPolicies
  | .iamInlinePolicyNames => row.iamInlinePolicyNames

def setList (row : Row) (values : List String) : ListField → Row
  | .iamGroups => { row with iamGroups := values }
  | .iamManagedPolicies => { row with iamManagedPolicies := values }
  | .iamInlinePolicyNames => { row with iamInlinePolicyNames := values }

/-- `string_list`; `none` stands for the `ValueError`. -/
def stringList (row : Row) (field : ListField) : Option (List String) :=
  if row.list field |>.any fun value => value = "" then none else some (row.list field)

def appendListValue (field : ListField) (value : String) (row : Row) : Option Row :=
  (row.stringList field).map fun values =>
    row.setList (if value ∈ values then values else values ++ [value]) field

def removeListValue (field : ListField) (value : String) (row : Row) : Option Row :=
  (row.stringList field).map fun values =>
    row.setList (values.filter fun item => item != value) field

/-- The key a cleanup deletes. -/
def recordedKey (row : Row) : Option String :=
  if row.createdAccessKey then row.accessKeyId.filter fun id => id != "" else none

/-- A cleanup of the row deletes the resource. -/
def records (row : Row) : Resource → Prop
  | .principal => row.createdRemotePrincipal = true
  | .listed field value => value ∈ row.list field
  | .accessKey id => row.recordedKey = some id

end Row

/-! ## Operations -/

inductive Error
  /-- The user or the row exists already. -/
  | conflict
  | notFound
  /-- A remote cleanup is left to a later call. -/
  | cleanupPending
  | failed
  deriving DecidableEq, Repr

structure AccessKey where
  accessKeyId : Option String
  secretAccessKey : Option String

inductive Op
  | getUser
  /-- `create_user`, `add_user_to_group`, `attach_user_policy`, `put_user_inline_policy`. -/
  | create (resource : Resource)
  | createAccessKey
  /-- `delete_access_key`, `delete_user_inline_policy`, `detach_user_policy`,
  `remove_user_from_group`, `delete_user`. -/
  | remove (resource : Resource)
  /-- The insert of a new row; the index allows one that is not failed. -/
  | claim
  | getRow
  /-- An update of the row and its commit; the update may raise. -/
  | checkpoint (update : Row → Option Row)
  | deleteRow
  /-- A read, a check or an audit entry. -/
  | effectless

abbrev Reply : Op → Type
  | .getUser => Bool
  | .createAccessKey => AccessKey
  | .getRow => Option Row
  | _ => Unit

structure World where
  remote : Finset Resource := ∅
  row : Option Row := none

/-- A call takes effect and answers, or raises without an effect, or raises after its effect. -/
inductive Fate
  | done | refused | lost
  deriving DecidableEq, Repr

structure Choice where
  fate : Fate
  /-- The key RGW makes, and what its response carries. -/
  keyId : String
  hasKeyId : Bool
  secret : Option String

def World.setRow (w : World) (row : Option Row) : World := { w with row := row }

def World.setRemote (w : World) (remote : Finset Resource) : World := { w with remote := remote }

/-- RGW does not create a user twice, and gives nothing to a user that does not exist. -/
def World.create (w : World) (resource : Resource) : World × Except Error Unit :=
  if resource = .principal ↔ .principal ∈ w.remote then (w, .error .failed)
  else (w.setRemote (insert resource w.remote), .ok ())

/-- RGW does not delete a user that has anything; what is missing counts as deleted. -/
def World.remove (w : World) (resource : Resource) : World × Except Error Unit :=
  if resource = .principal ∧ ¬ w.remote ⊆ {.principal} then (w, .error .failed)
  else (w.setRemote (w.remote.erase resource), .ok ())

def World.claim (w : World) : World × Except Error Unit :=
  if w.row.all fun row => row.state = .failed then (w.setRow (some {}), .ok ())
  else (w, .error .conflict)

def World.save (w : World) (update : Row → Option Row) : World × Except Error Unit :=
  match w.row.bind update with
  | some row => (w.setRow (some row), .ok ())
  | none => (w, .error .failed)

/-- What a call does when it takes effect. -/
def apply : (op : Op) → Choice → World → World × Except Error (Reply op)
  | .getUser, _, w => (w, .ok (decide (Resource.principal ∈ w.remote)))
  | .create resource, _, w => w.create resource
  | .createAccessKey, choice, w =>
    let (w, reply) := w.create (.accessKey choice.keyId)
    (w, reply.map fun _ => ⟨if choice.hasKeyId then some choice.keyId else none, choice.secret⟩)
  | .remove resource, _, w => w.remove resource
  | .claim, _, w => w.claim
  | .getRow, _, w => (w, .ok w.row)
  | .checkpoint update, _, w => w.save update
  | .deleteRow, _, w => (w.setRow none, .ok ())
  | .effectless, _, w => (w, .ok ())

def machine : Machine Op Reply Error World Unit Choice where
  exec op choice w s :=
    match choice.fate with
    | .done => ((apply op choice w).1, s, (apply op choice w).2)
    | .refused => (w, s, .error .failed)
    | .lost => ((apply op choice w).1, s, .error .failed)

abbrev Service := Prog Op Reply Error

abbrev perform (op : Op) : Service (Reply op) := Prog.perform op

def getRow : Service (Option Row) := perform .getRow

/-! ## The state of the saga -/

def checkpoint (update : Row → Row) : Service Unit :=
  perform (.checkpoint fun row => some (update row))

def markFailed : Service Unit := checkpoint fun row => { row with state := .failed }

def markCleanupPending : Service Unit := checkpoint fun row => { row with state := .cleanupPending }

def audit : Service Unit := perform .effectless

/-- An attribute of the row, as the session shows it. -/
def rowAttribute {α : Type} (get : Row → Option α) : Service α := do
  match (← getRow).bind get with
  | some value => return value
  | none => Prog.raise .failed

/-! ## Provisioning -/

structure InlinePolicy where
  name : String

/-- `ManagedIAMPrivateAccessRequest`. -/
structure Payload where
  groups : List String
  managedPolicies : List String
  inlinePolicies : List InlinePolicy

/-- Creates every value of a list and records it. -/
def provisionList (field : ListField) (values : List String) : Service Unit :=
  Prog.forEach values fun value => do
    perform (.create (.listed field value))
    perform (.checkpoint (Row.appendListValue field value))

/-- `not value` of an optional text. -/
def blank (value : Option String) : Bool := value.getD "" = ""

/-- `ManagedPrivateAccessCredentialService.provision_iam`. -/
def provisionCredentials (payload : Payload) : Service AccessKey := do
  let found ← perform .getUser
  if found then
    markFailed
    Prog.raise .conflict
  else
    perform (.create .principal)
    checkpoint fun row => { row with createdRemotePrincipal := true }
    provisionList .iamGroups payload.groups
    provisionList .iamManagedPolicies payload.managedPolicies
    provisionList .iamInlinePolicyNames (payload.inlinePolicies.map InlinePolicy.name)
    let key ← perform .createAccessKey
    if blank key.accessKeyId || blank key.secretAccessKey then Prog.raise .failed
    else
      checkpoint fun row => { row with accessKeyId := key.accessKeyId, createdAccessKey := true }
      return key

/-- `activate`: what is read before the commit of the connection may raise, and what is written after
it. -/
def activate : Service Unit := do
  perform .effectless
  checkpoint fun row => { row with state := .active, connection := some true }
  perform .effectless
  audit

/-! ## Cleanup -/

/-- `attempt`: whether it failed. -/
def attemptRemoval (resource : Resource) (onSuccess : Row → Option Row) : Service Bool :=
  Prog.fails do
    perform (.remove resource)
    perform (.checkpoint onSuccess)

def cleanupList (field : ListField) : Service Bool := do
  let values ← rowAttribute fun row => row.stringList field
  Prog.foldM values.reverse (fun failed value => do
    let now ← attemptRemoval (.listed field value) (Row.removeListValue field value)
    return failed || now) false

def cleanupAccessKey : Service Bool := do
  match ← rowAttribute fun row => some row.recordedKey with
  | some id =>
    attemptRemoval (.accessKey id) fun row => some { row with createdAccessKey := false }
  | none => return false

def cleanupPrincipal : Service Bool := do
  if ← rowAttribute fun row => some row.createdRemotePrincipal then
    attemptRemoval .principal fun row => some { row with createdRemotePrincipal := false }
  else return false

def cleanupIamResources : Service Unit := do
  let key ← cleanupAccessKey
  let inlinePolicies ← cleanupList .iamInlinePolicyNames
  let managedPolicies ← cleanupList .iamManagedPolicies
  let groups ← cleanupList .iamGroups
  let principal ← cleanupPrincipal
  Prog.when (key || inlinePolicies || managedPolicies || groups || principal) (Prog.raise .failed)

/-! ## Compensation -/

def compensate : Service Unit := do
  match ← getRow with
  | none => return ()
  | some _ =>
    match ← cleanupIamResources.attempt with
    | .error _ =>
      audit
      markCleanupPending
      audit
    | .ok () =>
      markFailed
      audit

def handleProvisioningFailure : Service Unit := do
  let failed ← getRow
  Prog.when failed.isSome audit
  compensate
  let pending ← getRow
  Prog.when (pending.any fun row => row.state = .cleanupPending) (Prog.raise .cleanupPending)

/-- `provision_iam`, once the request is found valid. -/
def provisionIam (payload : Payload) : Service Unit := do
  perform .claim
  audit
  Prog.tryCatch
    (do
      let _ ← provisionCredentials payload
      activate)
    fun error =>
      if error = .conflict then do
        audit
        Prog.raise .conflict
      else do
        handleProvisioningFailure
        Prog.raise .failed

/-! ## Deletion -/

/-- `_cleanup_remote_or_pending`; a connection is deactivated in the same commit. -/
def cleanupRemoteOrPending : Service Unit := do
  checkpoint fun row => { row with state := .deleting, connection := row.connection.map fun _ => false }
  match ← Prog.attempt (do
    perform .effectless
    cleanupIamResources) with
  | .error _ =>
    markCleanupPending
    audit
    Prog.raise .cleanupPending
  | .ok () => return ()

/-- The row that `select` finds, if it meets the condition. -/
def requireRow (condition : Row → Bool) : Service Unit := do
  let row ← getRow
  Prog.when (!row.any condition) (Prog.raise .notFound)

def deleteOwnedConnection : Service Unit := do
  requireRow fun row => row.connection.isSome
  perform .effectless
  cleanupRemoteOrPending
  perform .effectless
  perform .deleteRow
  audit

def retryCleanup : Service Unit := do
  requireRow fun row => row.connection.isSome && row.state = .cleanupPending
  deleteOwnedConnection

def retryProvisioningCleanup : Service Unit := do
  requireRow fun row => row.connection.isNone && row.state = .cleanupPending
  cleanupRemoteOrPending
  perform .deleteRow
  audit

/-! ## Runs -/

inductive Call
  | provisionIam (payload : Payload)
  | deleteOwnedConnection
  | retryCleanup
  | retryProvisioningCleanup

def Call.prog : Call → Service Unit
  | .provisionIam payload => ManagedAccess.provisionIam payload
  | .deleteOwnedConnection => ManagedAccess.deleteOwnedConnection
  | .retryCleanup => ManagedAccess.retryCleanup
  | .retryProvisioningCleanup => ManagedAccess.retryProvisioningCleanup

def system : System Op Reply Error World Unit Choice Empty Call where
  toMachine := machine
  apply := Empty.elim
  start call w := some (w, (), call.prog)

/-- The calls of a user for one source follow one another; each may crash anywhere. -/
def oneAtATime (st : State Op Reply Error World Unit) : Label Choice Empty Call → Bool
  | .start _ => st.threads.isEmpty
  | _ => st.threads.length ≤ 1

end ManagedAccess
end BucketReef

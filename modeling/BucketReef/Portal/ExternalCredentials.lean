import BucketReef.Effects.System

/-!
# External credentials

An external credential of a Storage Space is a row, an IAM user with one access key and an inline
policy, and an exemption from the Deny of the bucket policy while it is active. Deleting it commits
`RevocationPending` first, and only then cleans up the remote side. Every call reads the row once, at
its start, and computes the bucket policy from its own view of the row.
-/

namespace BucketReef
namespace ExternalCredentials

open Effects

inductive CredentialStatus
  | active | inactive | revocationPending
  deriving DecidableEq, Repr

/-- The columns of `portal_external_access_credentials` that change. -/
structure Credential where
  status : CredentialStatus := .active
  /-- `revoked_at` is set. -/
  revokedAt : Bool := false
  deriving DecidableEq, Repr

attribute [ext] Credential

inductive KeyStatus
  | active | inactive
  deriving DecidableEq, Repr

def KeyStatus.stored : KeyStatus → CredentialStatus
  | .active => .active
  | .inactive => .inactive

structure World where
  row : Credential := {}
  /-- The Storage Space is archived: its bucket policy exempts nobody. -/
  archived : Bool := false
  key : Option KeyStatus := some .active
  inlinePolicy : Bool := true
  iamUser : Bool := true
  /-- The bucket policy exempts the principal of the credential from its Deny. -/
  exempted : Bool := true
  /-- A commit of `RevocationPending` happened; not stored anywhere. -/
  revocationCommitted : Bool := false
  deriving DecidableEq, Repr

/-- The object of the row: what was loaded and what it is now. -/
structure Loaded where
  base : Credential
  current : Credential
  deriving DecidableEq, Repr

structure Session where
  object : Option Loaded := none
  /-- The object has been flushed in this transaction. -/
  flushed : Bool := false
  /-- The row behind the last read of the session. -/
  read : Credential := {}
  /-- The exemption it put in this transaction. -/
  put : Option Bool := none
  deriving DecidableEq, Repr

def pick {α : Type} [DecidableEq α] (base current row : α) : α :=
  if current = base then row else current

/-- The row after the update of a flush: only changed columns are written. -/
def Loaded.written (object : Loaded) (row : Credential) : Credential where
  status := pick object.base.status object.current.status row.status
  revokedAt := pick object.base.revokedAt object.current.revokedAt row.revokedAt

/-- The object has a new status to write. -/
def Loaded.changes (object : Loaded) : Bool := object.current.status ≠ object.base.status

namespace World

/-- `_portal_policy_principals_for_external_credentials` includes the credential. -/
def principal (archived : Bool) (row : Credential) : Bool :=
  !archived && row.status = .active && !row.revokedAt

/-- The row the session sees: the committed one with what it flushed. -/
def view (w : World) (s : Session) : Credential :=
  match s.object, s.flushed with
  | some object, true => object.written w.row
  | _, _ => w.row

def committed (w : World) (s : Session) : World :=
  match s.object with
  | none => w
  | some object =>
    { w with
      row := object.written w.row
      revocationCommitted := w.revocationCommitted ||
        (object.changes && object.current.status = .revocationPending) }

end World

inductive Error
  | conflict (message : String) | failure (message : String)
  deriving DecidableEq, Repr

inductive Fault
  | none | before | after
  deriving DecidableEq, Repr

inductive Op
  /-- `_find_external_credential`: none once it is revoked. -/
  | findExternalCredential
  | refresh
  | assign (row : Credential → Credential)
  | flush
  | commit
  | rollback
  | updateAccessKeyStatus (status : KeyStatus)
  | deleteAccessKey
  | deleteUserInlinePolicy
  | deleteUser
  | getBucketPolicy
  /-- The query for the external principals of the Storage Space. -/
  | queryPrincipals
  | putBucketPolicy (exempted : Bool)

def Reply : Op → Type
  | .findExternalCredential => Option Credential
  | .queryPrincipals => Bool
  | _ => Unit

abbrev Service (α : Type) : Type := Prog Op Reply Error α

def faulty {α : Type} (fault : Fault) (before after : World × Session) (a : α) :
    World × Session × Except Error α :=
  match fault with
  | .none => (after.1, after.2, .ok a)
  | .before => (before.1, before.2, .error (.failure "call failed"))
  | .after => (after.1, after.2, .error (.failure "call failed"))

def exec : (op : Op) → Fault → World → Session → World × Session × Except Error (Reply op)
  | .findExternalCredential, fault, w, s =>
    if w.row.revokedAt then faulty fault (w, s) (w, s) none
    else
      let object := s.object.getD ⟨w.row, w.row⟩
      let read := if s.object.isSome then s.read else w.row
      faulty fault (w, s) (w, { s with object := some object, read := read }) (some object.current)
  | .refresh, fault, w, s =>
    faulty fault (w, s) (w, { s with object := some ⟨w.row, w.row⟩, read := w.row }) ()
  | .assign f, fault, w, s =>
    let object := s.object.getD ⟨w.row, w.row⟩
    let read := if s.object.isSome then s.read else w.row
    faulty fault (w, s)
      (w, { s with object := some { object with current := f object.current }, read := read }) ()
  | .flush, fault, w, s => faulty fault (w, s) (w, { s with flushed := true }) ()
  | .commit, fault, w, s =>
    faulty fault (w, s) (w.committed s, { s with object := none, flushed := false, put := none }) ()
  | .rollback, fault, w, s =>
    faulty fault (w, s) (w, { s with object := none, flushed := false, put := none }) ()
  | .updateAccessKeyStatus status, fault, w, s =>
    if w.key.isSome then faulty fault (w, s) ({ w with key := some status }, s) ()
    else (w, s, .error (.failure "Access key not found"))
  | .deleteAccessKey, fault, w, s => faulty fault (w, s) ({ w with key := none }, s) ()
  | .deleteUserInlinePolicy, fault, w, s => faulty fault (w, s) ({ w with inlinePolicy := false }, s) ()
  | .deleteUser, fault, w, s =>
    if w.key.isSome ∨ w.inlinePolicy = true then
      (w, s, .error (.failure "IAM user still has a key or a policy"))
    else faulty fault (w, s) ({ w with iamUser := false }, s) ()
  | .getBucketPolicy, fault, w, s => faulty fault (w, s) (w, s) ()
  | .queryPrincipals, fault, w, s =>
    -- a flushed change of the status hides the status of the row
    let changed := s.flushed && s.object.any Loaded.changes
    let read := if changed then s.read else w.row
    faulty fault (w, s) (w, { s with read := read }) (World.principal w.archived (w.view s))
  | .putBucketPolicy exempted, fault, w, s =>
    faulty fault (w, s) ({ w with exempted := exempted }, { s with put := some exempted }) ()

/-! ## The service -/

/-- `_sync_storage_space_access_projection` without participants. -/
def syncStorageSpaceAccessProjection : Service Unit := do
  Prog.perform Op.getBucketPolicy
  let exempted ← Prog.perform Op.queryPrincipals
  Prog.perform (Op.putBucketPolicy exempted)

/-- The compensation of `_persist_external_access_key_status`. -/
def restoreExternalAccessKeyStatus (previous : KeyStatus) (remoteUpdated projected : Bool) (e : Error)
    (action : String) : Service Unit := do
  let rollbackFailed ← Prog.fails (Prog.perform Op.rollback)
  let remoteFailed ← Prog.failsWhen remoteUpdated (Prog.perform (Op.updateAccessKeyStatus previous))
  let projectionFailed ← Prog.failsWhen (projected && !rollbackFailed) syncStorageSpaceAccessProjection
  Prog.when (rollbackFailed || remoteFailed || projectionFailed)
    (Prog.raise (.failure ("Unable to " ++ action ++ ". Local or remote rollback also failed.")))
  Prog.raise e

/-- `_persist_external_access_key_status`, for a credential whose status is `previous`. -/
def persistExternalAccessKeyStatus (previous remoteStatus : KeyStatus)
    (persistedStatus : CredentialStatus) (action : String) : Service Unit := do
  Prog.when (previous ≠ remoteStatus)
    ((Prog.perform (Op.updateAccessKeyStatus remoteStatus)).tryCatch fun e =>
      restoreExternalAccessKeyStatus previous false false e action)
  (do
    Prog.perform (Op.assign fun row => { row with status := persistedStatus })
    Prog.perform Op.flush : Service Unit).tryCatch fun e =>
      restoreExternalAccessKeyStatus previous (previous ≠ remoteStatus) false e action
  (do
    syncStorageSpaceAccessProjection
    Prog.perform Op.commit : Service Unit).tryCatch fun e =>
      restoreExternalAccessKeyStatus previous (previous ≠ remoteStatus) true e action

/-- The status of a credential that is not pending, as a key status. -/
def Credential.keyStatus (row : Credential) : Option KeyStatus :=
  match row.status with
  | .active => some .active
  | .inactive => some .inactive
  | .revocationPending => none

def updateAccessKeyStatus (active : Bool) : Service Unit := do
  match ← Prog.perform Op.findExternalCredential with
  | none => Prog.raise (.failure "not an external credential")
  | some external =>
    match external.keyStatus with
    | none => Prog.raise (.conflict "External Portal access revocation is pending.")
    | some previous => (do
      let status : KeyStatus := if active then .active else .inactive
      persistExternalAccessKeyStatus previous status status.stored "update external Portal access key"
      Prog.perform Op.refresh)

/-- `_cleanup_external_iam_resources`: every step is tried; true when one failed. -/
def cleanupExternalCredentialRemote : Service Bool := do
  let keyFailed ← Prog.fails (Prog.perform Op.deleteAccessKey)
  let policyFailed ← Prog.fails (Prog.perform Op.deleteUserInlinePolicy)
  let userFailed ← Prog.fails (Prog.perform Op.deleteUser)
  pure (keyFailed || policyFailed || userFailed)

/-- The last phase of a deletion. -/
def completeRevocation : Service Unit := do
  let failed ← cleanupExternalCredentialRemote
  Prog.when failed
    (Prog.raise (.failure "External Portal access revocation is pending because remote cleanup failed."))
  Prog.perform (Op.assign fun _ => { status := .inactive, revokedAt := true })
  (Prog.perform Op.commit).tryCatch fun _ => do
    Prog.perform Op.rollback
    Prog.raise (.failure "External Portal access was removed remotely, but local revocation is pending.")

def deleteAccessKey : Service Unit := do
  match ← Prog.perform Op.findExternalCredential with
  | none => Prog.raise (.failure "not an external credential")
  | some external =>
    match external.keyStatus with
    | none => completeRevocation
    | some previous => (do
      persistExternalAccessKeyStatus previous .inactive .revocationPending
        "start external Portal access revocation"
      Prog.perform Op.refresh
      completeRevocation)

inductive Job
  | updateAccessKeyStatus (active : Bool)
  | deleteAccessKey
  deriving DecidableEq, Repr

def Job.service : Job → Service Unit
  | .updateAccessKeyStatus active => ExternalCredentials.updateAccessKeyStatus active
  | .deleteAccessKey => ExternalCredentials.deleteAccessKey

def system : System Op Reply Error World Session Fault Empty Job where
  exec := exec
  apply event _ := event.elim
  start job w := some (w, {}, job.service)

abbrev SystemState : Type := State Op Reply Error World Session
abbrev SystemLabel : Type := Label Fault Empty Job

end ExternalCredentials
end BucketReef

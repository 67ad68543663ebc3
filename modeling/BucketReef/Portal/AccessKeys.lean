import BucketReef.Effects.System
import Mathlib.Logic.Function.Basic

/-!
# The access keys of a Portal user

A Portal user has one IAM user on an account. Its link stores the runtime key, with which the Portal
works for the user; the user creates personal keys on the same IAM user. `_ensure_active_key` takes
every key but the runtime key for a stale one.
-/

namespace BucketReef
namespace PortalKeys

open Effects

inductive KeyStatus
  | active | inactive
  deriving DecidableEq, Repr

/-- A row of `account_iam_users`. -/
structure AccountIAMUser where
  iamUsername : Option String
  activeAccessKey : Option ℕ := none
  /-- `active_secret_key` is set. -/
  activeSecretKey : Bool := false
  deriving DecidableEq, Repr

structure Settings where
  allowPortalUserAccessKeyCreate : Bool := true
  maxPortalUserAccessKeys : ℕ := 2
  deriving DecidableEq, Repr

/-- One user on one account. -/
structure World where
  /-- `portal_iam_username` -/
  expectedUsername : String
  settings : Settings := {}
  link : Option AccountIAMUser := none
  /-- A row of `portal_iam_revocations`. -/
  revocation : Bool := false
  /-- The IAM user exists. -/
  iamUser : Bool := false
  /-- The access keys of the IAM user. -/
  keys : ℕ → Option KeyStatus := fun _ => none
  nextKey : ℕ := 0
  /-- The personal keys the user has neither deleted nor disabled, while it has a role; not stored
  anywhere. -/
  personal : ℕ → Bool := fun _ => false

namespace World

def keyIds (w : World) : List ℕ := (List.range w.nextKey).filter fun k => (w.keys k).isSome

def listed (w : World) : List (ℕ × KeyStatus) :=
  w.keyIds.filterMap fun k => (w.keys k).map fun status => (k, status)

def setKey (w : World) (k : ℕ) (status : Option KeyStatus) : World :=
  { w with keys := Function.update w.keys k status }

/-- The user asked for it, or lost its role. -/
def released (w : World) (k : ℕ) : World := { w with personal := Function.update w.personal k false }

def keyCreated (w : World) (isPersonal : Bool) : World :=
  { w.setKey w.nextKey (some .active) with
    nextKey := w.nextKey + 1
    personal := if isPersonal then Function.update w.personal w.nextKey true else w.personal }

@[simp] theorem setKey_keys (w : World) (k : ℕ) (status : Option KeyStatus) :
    (w.setKey k status).keys = Function.update w.keys k status := rfl

@[simp] theorem setKey_personal (w : World) (k : ℕ) (status : Option KeyStatus) :
    (w.setKey k status).personal = w.personal := rfl

@[simp] theorem released_keys (w : World) (k : ℕ) : (w.released k).keys = w.keys := rfl

@[simp] theorem released_personal (w : World) (k : ℕ) :
    (w.released k).personal = Function.update w.personal k false := rfl

end World

/-- What a session has loaded and not committed yet. -/
structure Session where
  link : Option (Option AccountIAMUser) := none
  inserting : Bool := false
  revocation : Option Bool := none

inductive Error
  | integrity | conflict (message : String) | failure (message : String)
  deriving DecidableEq, Repr

inductive Fault
  | none | before | after
  deriving DecidableEq, Repr

inductive Op
  | expectedUsername
  | settings
  | loadLink
  | setLink (link : Option AccountIAMUser)
  /-- `db.add` of a new link. -/
  | insertLink (link : AccountIAMUser)
  | loadRevocation
  | setRevocation (pending : Bool)
  | commit
  | rollback
  /-- A call that touches neither the IAM user nor its keys. -/
  | remote (call : String)
  | getUser
  | createUser
  | deleteUser
  | listAccessKeys
  /-- The listing of `_ensure_active_key`. -/
  | listRuntimeKeys
  /-- `create_access_key`, for the user or for the Portal. -/
  | createAccessKey (isPersonal : Bool)
  /-- `delete_access_key`, because the user asked or lost its role, or on the Portal's own account. -/
  | deleteAccessKey (released : Bool) (k : ℕ)
  | updateAccessKeyStatus (released : Bool) (k : ℕ) (status : KeyStatus)

def Reply : Op → Type
  | .expectedUsername => String
  | .settings => Settings
  | .loadLink => Option AccountIAMUser
  | .loadRevocation | .getUser => Bool
  | .listAccessKeys | .listRuntimeKeys => List (ℕ × KeyStatus)
  | .createAccessKey _ => ℕ
  | _ => Unit

abbrev Service (α : Type) : Type := Prog Op Reply Error α

def faulty {α : Type} (fault : Fault) (w after : World) (s : Session) (a : α) :
    World × Session × Except Error α :=
  match fault with
  | .none => (after, s, .ok a)
  | .before => (w, s, .error (.failure "call failed"))
  | .after => (after, s, .error (.failure "call failed"))

def reading {α : Type} (fault : Fault) (w : World) (s : Session) (a : α) :
    World × Session × Except Error α :=
  faulty fault w w s a

/-- The rows after a commit. -/
def World.committed (w : World) (s : Session) : World :=
  { w with link := s.link.getD w.link, revocation := s.revocation.getD w.revocation }

def exec : (op : Op) → Fault → World → Session → World × Session × Except Error (Reply op)
  | .expectedUsername, _, w, s => (w, s, .ok w.expectedUsername)
  | .settings, fault, w, s => reading fault w s w.settings
  | .loadLink, fault, w, s => reading fault w s (s.link.getD w.link)
  | .setLink link, _, w, s => (w, { s with link := some link }, .ok ())
  | .insertLink link, _, w, s => (w, { s with link := some (some link), inserting := true }, .ok ())
  | .loadRevocation, fault, w, s => reading fault w s (s.revocation.getD w.revocation)
  | .setRevocation pending, _, w, s => (w, { s with revocation := some pending }, .ok ())
  | .commit, fault, w, s =>
    if s.inserting = true ∧ w.link.isSome = true then (w, s, .error .integrity)
    else faulty fault w (w.committed s) {} ()
  | .rollback, _, w, _ => (w, {}, .ok ())
  | .remote _, fault, w, s => reading fault w s ()
  | .getUser, fault, w, s => reading fault w s w.iamUser
  | .createUser, fault, w, s =>
    if w.iamUser then (w, s, .error (.failure "IAM user already exists"))
    else faulty fault w { w with iamUser := true } s ()
  | .deleteUser, fault, w, s =>
    if w.keyIds = [] then faulty fault w { w with iamUser := false } s ()
    else (w, s, .error (.failure "IAM user still has access keys"))
  | .listAccessKeys, fault, w, s => reading fault w s w.listed
  | .listRuntimeKeys, fault, w, s => reading fault w s w.listed
  | .createAccessKey isPersonal, fault, w, s =>
    if w.iamUser then
      faulty fault w (w.keyCreated (isPersonal && fault = .none)) s w.nextKey
    else (w, s, .error (.failure "no such user"))
  | .deleteAccessKey released k, fault, w, s =>
    faulty fault w (if released then (w.setKey k none).released k else w.setKey k none) s ()
  | .updateAccessKeyStatus released k status, fault, w, s =>
    match w.keys k with
    | none => (w, s, .error (.failure "Access key not found"))
    | some _ =>
      faulty fault w (if released = true ∧ status = .inactive then
        (w.setKey k (some status)).released k else w.setKey k (some status)) s ()

/-! ## Provisioning -/

def commitOrRollback : Service Unit :=
  (Prog.perform Op.commit).tryCatch fun e => do
    Prog.perform Op.rollback
    Prog.raise e

/-- `_persist_portal_key` -/
def persistPortalKey (link : AccountIAMUser) (k : ℕ) : Service AccountIAMUser := do
  let link := { link with activeAccessKey := some k, activeSecretKey := true }
  Prog.perform (Op.setLink (some link))
  commitOrRollback
  pure link

/-- `_persist_provisioned_portal_link`: another request may have inserted the link first. -/
def persistProvisionedPortalLink (existing : Bool) (link : AccountIAMUser) (k : ℕ) :
    Service AccountIAMUser := do
  let link := { link with activeAccessKey := some k, activeSecretKey := true }
  Prog.tryCatch
    (do
      (if existing then Prog.perform (Op.setLink (some link)) else Prog.perform (Op.insertLink link))
      commitOrRollback
      pure link)
    fun
      | .integrity => do
        match ← Prog.perform Op.loadLink with
        | none => Prog.raise .integrity
        | some concurrent =>
          if concurrent.activeAccessKey.isNone then persistPortalKey concurrent k
          else pure concurrent
      | e => Prog.raise e

/-- A call whose failure is only logged. -/
def attempted (op : Op) : Service Unit :=
  ((Prog.perform op).bind fun _ => .ret ()).tryCatch fun _ => .ret ()

/-- `create_user(create_key=True, allow_existing=False)` -/
def createUserWithKey : Service ℕ := do
  Prog.perform Op.createUser
  (Prog.perform (Op.createAccessKey false)).tryCatch fun e => do
    attempted Op.deleteUser
    Prog.raise e

/-- `_provision_portal_user` -/
def provisionLink (link : Option AccountIAMUser) : Service AccountIAMUser := do
  let expected : String ← Prog.perform Op.expectedUsername
  let k ← createUserWithKey
  (persistProvisionedPortalLink link.isSome { iamUsername := some expected } k).tryCatch fun e => do
    Prog.perform Op.rollback
    attempted (Op.deleteAccessKey false k)
    attempted Op.deleteUser
    Prog.raise e

/-- The IAM user of the link is there. -/
def iamUserPresent (link : AccountIAMUser) : Service Bool :=
  if link.iamUsername.isSome then Prog.perform Op.getUser else pure false

def ensurePortalUser : Service AccountIAMUser := do
  let link ← Prog.perform Op.loadLink
  let expected : String ← Prog.perform Op.expectedUsername
  let pending ← Prog.perform Op.loadRevocation
  Prog.when pending (Prog.raise (.conflict "Portal IAM revocation is pending."))
  match link with
  | none => provisionLink none
  | some link => (do
    Prog.when (link.iamUsername.any fun username => username ≠ expected)
      (Prog.raise (.failure "Stored Portal IAM identity does not match"))
    let present ← iamUserPresent link
    if present then pure link else provisionLink (some link))

/-! ## The runtime key -/

/-- `_delete_stale_portal_keys`: every listed key but one is deleted. -/
def deleteStalePortalKeys (keys : List (ℕ × KeyStatus)) (preserve : ℕ) : Service Unit :=
  Prog.forEach keys fun key =>
    if key.1 = preserve then pure () else attempted (Op.deleteAccessKey false key.1)

def activateReplacementPortalKey (link : AccountIAMUser) (k : ℕ) (previous : List (ℕ × KeyStatus)) :
    Service Unit := do
  let _ ← (persistPortalKey link k).tryCatch fun e => do
    Prog.perform Op.rollback
    attempted (Op.deleteAccessKey false k)
    Prog.raise e
  deleteStalePortalKeys previous k

/-- Keep the runtime key among the listed keys, or create a new one. -/
def keepRuntimeKey (link : AccountIAMUser) (keys : List (ℕ × KeyStatus)) : Service Unit :=
  match keys.find? fun key => some key.1 = link.activeAccessKey with
  | some runtime =>
    if link.activeSecretKey then deleteStalePortalKeys keys runtime.1
    else (do
      let k ← Prog.perform (Op.createAccessKey false)
      activateReplacementPortalKey link k keys)
  | none => (do
    let k ← Prog.perform (Op.createAccessKey false)
    activateReplacementPortalKey link k keys)

def ensureActiveKey (link : AccountIAMUser) : Service Unit := do
  Prog.when link.iamUsername.isNone (Prog.raise (.failure "IAM username missing"))
  let keys ← Prog.perform Op.listRuntimeKeys
  keepRuntimeKey link keys

/-- What every operation on the identity does first. -/
def ensureSynchronizedUser : Service AccountIAMUser := do
  let link ← ensurePortalUser
  Prog.perform (Op.remote "_sync_user_group_membership")
  pure link

/-! ## The operations of a user -/

def createPersonalAccessKey : Service Unit := do
  let settings ← Prog.perform Op.settings
  Prog.when (!settings.allowPortalUserAccessKeyCreate)
    (Prog.raise (.failure "Portal access-key management is disabled for this account."))
  let link ← ensureSynchronizedUser
  Prog.when link.iamUsername.isNone (Prog.raise (.failure "IAM username missing"))
  let keys ← Prog.perform Op.listAccessKeys
  let existing := keys.filter fun key => some key.1 ≠ link.activeAccessKey
  Prog.when (settings.maxPortalUserAccessKeys ≤ existing.length)
    (Prog.raise (.failure "Maximum IAM user keys reached"))
  let _ ← Prog.perform (Op.createAccessKey true)
  pure ()

def getPortalCredentials : Service Unit := do
  let link ← ensureSynchronizedUser
  Prog.perform (Op.remote "_sync_user_storage_space_projection")
  ensureActiveKey link

def createBucket : Service Unit := do
  Prog.perform (Op.remote "capabilities")
  let link ← ensureSynchronizedUser
  ensureActiveKey link
  Prog.perform (Op.remote "create_bucket")
  Prog.perform (Op.remote "_apply_bucket_creation_defaults")

def deleteBucket (useRoot : Bool) : Service Unit := do
  Prog.when (!useRoot) (do
    let link ← ensureSynchronizedUser
    ensureActiveKey link)
  Prog.perform (Op.remote "delete_bucket")

def provisionPortalUser : Service Unit := do
  let link ← ensureSynchronizedUser
  Prog.perform (Op.remote "_sync_user_storage_space_projection")
  ensureActiveKey link
  Prog.perform (Op.remote "_sync_account_storage_space_bucket_policies")

def createStorageSpace : Service Unit := do
  Prog.perform (Op.remote "_validate_storage_space_creation_access")
  let created ← createBucket.attempt
  match created with
  | .error e => (do
    Prog.perform Op.rollback
    Prog.raise e)
  | .ok _ =>
    Prog.tryCatch
      (do
        Prog.perform (Op.remote "_register_storage_space_metadata")
        Prog.perform Op.commit)
      fun e => do
        Prog.perform Op.rollback
        (deleteBucket true).tryCatch fun _ => .ret ()
        Prog.raise e

def importStorageSpace : Service Unit := do
  Prog.perform (Op.remote "_require_storage_space_import_bucket")
  let link ← ensureSynchronizedUser
  ensureActiveKey link
  Prog.tryCatch
    (do
      Prog.perform (Op.remote "_register_storage_space_metadata")
      Prog.perform Op.commit)
    fun e => do
      Prog.perform Op.rollback
      Prog.raise e

def ensureAccessKeyManagementAllowed : Service Unit := do
  let settings ← Prog.perform Op.settings
  Prog.when (!settings.allowPortalUserAccessKeyCreate)
    (Prog.raise (.failure "Portal access-key management is disabled for this account."))

/-- `update_access_key_status`, on a key of the user's IAM user. -/
def updateAccessKeyStatus (k : ℕ) (active : Bool) : Service Unit := do
  ensureAccessKeyManagementAllowed
  let link ← ensureSynchronizedUser
  Prog.when (link.iamUsername.isNone || some k = link.activeAccessKey)
    (Prog.raise (.failure "Cannot update the portal access key"))
  Prog.perform (Op.updateAccessKeyStatus true k (if active then .active else .inactive))
  let keys ← Prog.perform Op.listAccessKeys
  Prog.when (keys.all fun key => key.1 ≠ k) (Prog.raise (.failure "Key not found after the update"))

/-- `delete_access_key`, on a key of the user's IAM user. -/
def deleteAccessKey (k : ℕ) : Service Unit := do
  ensureAccessKeyManagementAllowed
  let link ← ensureSynchronizedUser
  Prog.when (link.iamUsername.isNone || some k = link.activeAccessKey)
    (Prog.raise (.failure "Cannot delete the portal access key"))
  Prog.perform (Op.deleteAccessKey true k)

/-! ## Losing the role -/

def restorePortalIamKeyStatuses (restored : List (ℕ × KeyStatus)) : Service Unit :=
  Prog.forEach restored.reverse fun key => attempted (Op.updateAccessKeyStatus true key.1 key.2)

/-- Disable the active keys, one after the other. -/
def disableKeys : List (ℕ × KeyStatus) → List (ℕ × KeyStatus) → Service (List (ℕ × KeyStatus))
  | [], restored => pure restored
  | key :: keys, restored =>
    if key.2 = .inactive then disableKeys keys restored
    else (do
      Prog.tryCatch (Prog.perform (Op.updateAccessKeyStatus true key.1 .inactive)) fun e => do
        restorePortalIamKeyStatuses restored
        Prog.raise e
      disableKeys keys (restored ++ [key]))

def disableListedKeys (present : Bool) : Service (List (ℕ × KeyStatus)) :=
  if present then (do
    let keys ← Prog.perform Op.listAccessKeys
    disableKeys keys [])
  else pure []

/-- `_prepare_portal_iam_revocation`; none when there is nothing to revoke. -/
def preparePortalIamRevocation : Service (Option (List (ℕ × KeyStatus))) := do
  let pending : Bool ← Prog.perform Op.loadRevocation
  if pending then pure (some [])
  else (do
    match ← Prog.perform Op.loadLink with
    | none => pure none
    | some link => (do
      let present ← iamUserPresent link
      let restored ← disableListedKeys present
      Prog.perform (Op.setRevocation true)
      Prog.perform (Op.setLink none)
      pure (some restored)))

/-- `_delete_portal_iam_user` -/
def deletePortalIamUser : Service Unit := do
  let present : Bool ← Prog.perform Op.getUser
  if present then (do
    let keys ← Prog.perform Op.listAccessKeys
    Prog.forEach keys fun key => Prog.perform (Op.deleteAccessKey true key.1)
    Prog.perform (Op.remote "policies and groups")
    Prog.perform Op.deleteUser)
  else Prog.perform Op.deleteUser

def finalizePortalIamRevocation : Service Unit := do
  let pending : Bool ← Prog.perform Op.loadRevocation
  if pending then
    Prog.tryCatch
      (do
        deletePortalIamUser
        Prog.perform (Op.remote "_sync_account_storage_space_bucket_policies")
        Prog.perform (Op.setRevocation false)
        Prog.perform Op.commit)
      fun e => do
        Prog.perform Op.rollback
        Prog.raise e
  else pure ()

def revokePortalUser : Service Unit := do
  Prog.perform (Op.remote "require_no_private_storage_space_ownership")
  match ← preparePortalIamRevocation with
  | none => pure ()
  | some restored => (do
    (Prog.perform Op.commit).tryCatch fun e => do
      Prog.perform Op.rollback
      restorePortalIamKeyStatuses restored
      Prog.raise e
    finalizePortalIamRevocation)

/-! ## The operations as threads -/

inductive Job
  | createPersonalAccessKey
  | getPortalCredentials
  | createBucket
  | deleteBucket (useRoot : Bool)
  | provisionPortalUser
  | createStorageSpace
  | importStorageSpace
  | updateAccessKeyStatus (k : ℕ) (active : Bool)
  | deleteAccessKey (k : ℕ)
  | revokePortalUser
  deriving DecidableEq, Repr

def Job.service : Job → Service Unit
  | .createPersonalAccessKey => PortalKeys.createPersonalAccessKey
  | .getPortalCredentials => PortalKeys.getPortalCredentials
  | .createBucket => PortalKeys.createBucket
  | .deleteBucket useRoot => PortalKeys.deleteBucket useRoot
  | .provisionPortalUser => PortalKeys.provisionPortalUser
  | .createStorageSpace => PortalKeys.createStorageSpace
  | .importStorageSpace => PortalKeys.importStorageSpace
  | .updateAccessKeyStatus k active => PortalKeys.updateAccessKeyStatus k active
  | .deleteAccessKey k => PortalKeys.deleteAccessKey k
  | .revokePortalUser => PortalKeys.revokePortalUser

def system : System Op Reply Error World Session Fault Empty Job where
  exec := exec
  apply event _ := event.elim
  start job w := some (w, {}, job.service)

abbrev SystemState : Type := State Op Reply Error World Session
abbrev SystemLabel : Type := Label Fault Empty Job

end PortalKeys
end BucketReef

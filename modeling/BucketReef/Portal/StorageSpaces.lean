import BucketReef.Effects.Derived
import BucketReef.Effects.System
import BucketReef.Portal.StorageSpaceRoles

/-!
# Storage Spaces and their projection

Who may use a Storage Space is stored in rows and projected to the endpoint: the inline policy of
every participant allows its buckets, and the policy of the bucket denies everybody else. An operation
flushes its change, rewrites the projection from what its transaction sees, and commits; a failed one
rolls back, and some of them rewrite the projection once more.
-/

namespace BucketReef
namespace StorageSpaces

open Effects Portal

/-- The columns of `portal_storage_space_metadata` that change. -/
structure SpaceRow where
  sharing : Sharing
  archived : Bool := false
  deriving DecidableEq, Repr

inductive Key
  | grant (space user : ℕ)
  | space (bucketName : String)
  deriving DecidableEq, Repr

@[reducible] def Row : Key → Type
  | .grant _ _ => Option MemberRole
  | .space _ => Option SpaceRow

abbrev Rows : Type := (k : Key) → Row k

abbrev Change : Type := Sigma Row

def Key.present : (k : Key) → Row k → Bool
  | .grant _ _, row => row.isSome
  | .space _, row => row.isSome

/-- What the operations read and do not change: users, their links and their IAM users. -/
structure Directory where
  database : Database
  accountId : ℕ
  /-- The id of the row of a bucket. -/
  spaceId : String → ℕ
  distinctSpaces : Function.Injective spaceId
  /-- The IAM usernames of the active external credentials of a Storage Space. -/
  externalCredentials : String → List String := fun _ => []

/-- The Sids `_sync_user_storage_space_policy_projection` manages, and the other statements. -/
structure InlinePolicy where
  unmanaged : List String := []
  roles : String → Option StorageSpaceRole := fun _ => none

inductive Principal
  | user (id : ℕ) | external (iamUsername : String) | root | technical
  deriving DecidableEq, Repr

/-- The statement the Portal puts into the policy of a bucket. -/
inductive Deny
  | everyone | notPrincipal (principals : List Principal)
  deriving DecidableEq, Repr

structure BucketPolicy where
  unmanaged : List String := []
  deny : Option Deny := none
  deriving DecidableEq, Repr

inductive Item
  | inlinePolicy (user : ℕ)
  | bucketPolicy (bucketName : String)
  deriving DecidableEq, Repr

@[reducible] def Policy : Item → Type
  | .inlinePolicy _ => InlinePolicy
  | .bucketPolicy _ => BucketPolicy

/-! ## What is projected -/

namespace Directory

variable (d : Directory)

/-- The database with the rows a transaction sees. -/
def view (rows : Rows) : Database :=
  { d.database with
    storageSpaces := fun accountId bucketName =>
      if accountId = d.accountId then
        Option.map (fun row : SpaceRow => ⟨d.spaceId bucketName, bucketName, row.sharing, row.archived⟩)
          (rows (.space bucketName))
      else none
    storageSpaceGrants := fun space user => rows (.grant space user) }

def metadata (rows : Rows) (bucketName : String) : Option StorageSpaceMetadata :=
  (d.view rows).storageSpaces d.accountId bucketName

/-- The role in `_portal_account_member_map`. -/
def memberRole (userId : ℕ) : Option PortalAccountRole :=
  ((d.database.portalAccountMemberMap d.accountId).find? fun entry => entry.1 = userId).map Prod.snd

def hasIamUser (userId : ℕ) : Bool :=
  (d.database.accountIamUsers userId d.accountId).any fun link => link.iamUsername.isSome

/-- The role of a user whose projection `_sync_storage_space_user_projections` writes. -/
def projectedRole (userId : ℕ) : Option PortalAccountRole :=
  if d.hasIamUser userId then d.memberRole userId else none

/-- `_storage_space_participant_user_ids` -/
def participantUserIds (rows : Rows) (bucketName : String) : List ℕ :=
  match d.metadata rows bucketName with
  | none => []
  | some metadata =>
    metadata.ownerUserId.toList ++ (d.view rows).grantUserIds metadata ++
      d.database.membersWith d.accountId .portalManager ++
        if metadata.accountMemberRole.isSome then (d.database.portalAccountMemberMap d.accountId).map Prod.fst
        else []

/-- The Allow statements of a user: none for a manager. -/
def allowedBuckets (rows : Rows) (userId : ℕ) : PortalAccountRole → String → Option StorageSpaceRole
  | .portalManager => fun _ => none
  | .portalUser =>
    (d.view rows).storageSpaceRolesByBucket userId d.accountId (some .portalUser) false

/-- `_portal_policy_principals_for_space` -/
def principalsForSpace (rows : Rows) (metadata : StorageSpaceMetadata) : List Principal :=
  let allowed := (d.view rows).portalStorageSpaceAllowedUserIds d.accountId metadata
  let users := (d.database.users.map User.id).filter fun userId =>
    userId ∈ allowed && d.hasIamUser userId
  let principals := users.map Principal.user ++ (d.externalCredentials metadata.bucketName).map .external
  if metadata.shared = false then principals ++ [.root]
  else if principals = [] then []
  else principals ++ [.root, .technical]

/-- The statement of `_storage_space_bucket_policy`. -/
def bucketDeny (rows : Rows) (bucketName : String) : Option Deny :=
  (d.metadata rows bucketName).map fun metadata =>
    if metadata.archived then .everyone
    else
      match d.principalsForSpace rows metadata with
      | [] => .everyone
      | principals => .notPrincipal principals

end Directory

/-! ## The machine -/

abbrev Store : Type := Derived.Store ℕ Key Row Item Policy

structure World where
  store : Store
  /-- How many sessions were opened. -/
  sessions : ℕ := 0
  openSessions : List ℕ := []

structure Session where
  me : ℕ
  /-- How many changes were committed at its last query. -/
  readAt : ℕ := 0
  deriving DecidableEq, Repr

inductive Error
  | failure (message : String)
  /-- The error that reports a failed rollback. -/
  | rollbackFailed (message : String)
  deriving DecidableEq, Repr

inductive Fault
  | none | before | after
  deriving DecidableEq, Repr

inductive Op
  | query
  /-- A call that touches neither these rows nor these policies. -/
  | remote (call : String)
  | getPolicy (x : Item)
  /-- A put, or the delete of an inline policy without statements. -/
  | putPolicy (x : Item) (policy : Policy x)
  /-- A flush of one change; `expected` is whether the row has to be there. -/
  | flush (change : Change) (expected : Option Bool)
  /-- A flush that only writes `updated_at`. -/
  | touch (key : Key)
  | commit
  | rollback
  /-- The end of the request closes its session. -/
  | close

@[reducible] def Reply : Op → Type
  | .query => Rows
  | .getPolicy x => Policy x
  | _ => Unit

abbrev Service (α : Type) : Type := Prog Op Reply Error α

def faulty {α : Type} (fault : Fault) (before after : World × Session) (a : α) :
    World × Session × Except Error α :=
  match fault with
  | .none => (after.1, after.2, .ok a)
  | .before => (before.1, before.2, .error (.failure "call failed"))
  | .after => (after.1, after.2, .error (.failure "call failed"))

/-- Another transaction has an open change of the row. -/
def World.locked (w : World) (me : ℕ) (key : Key) : Bool :=
  w.openSessions.any fun i => i ≠ me && (w.store.flushed i).any fun change => change.1 = key

def exec : (op : Op) → Fault → World → Session → World × Session × Except Error (Reply op)
  | .query, fault, w, s =>
    faulty fault (w, s) (w, { s with readAt := w.store.history.length }) (w.store.view s.me)
  | .remote _, fault, w, s => faulty fault (w, s) (w, s) ()
  | .getPolicy x, fault, w, s => faulty fault (w, s) (w, s) (w.store.values x)
  | .putPolicy x policy, fault, w, s =>
    faulty fault (w, s) ({ w with store := w.store.write s.me x policy }, s) ()
  | .flush change expected, fault, w, s =>
    if w.locked s.me change.1 then (w, s, .error (.failure "lock timeout"))
    else if expected.any (· ≠ change.1.present (w.store.view s.me change.1)) then
      (w, s, .error (.failure "integrity error"))
    else faulty fault (w, s) ({ w with store := w.store.flush s.me change }, s) ()
  | .touch key, fault, w, s =>
    if w.locked s.me key then (w, s, .error (.failure "lock timeout"))
    else if key.present (w.store.view s.me key) then faulty fault (w, s) (w, s) ()
    else (w, s, .error (.failure "stale data"))
  | .commit, fault, w, s => faulty fault (w, s) ({ w with store := w.store.commit s.me }, s) ()
  | .rollback, fault, w, s => faulty fault (w, s) ({ w with store := w.store.rollback s.me }, s) ()
  | .close, _, w, s =>
    ({ w with store := w.store.rollback s.me, openSessions := w.openSessions.filter (· ≠ s.me) }, s, .ok ())

/-! ## The projection -/

section Services

variable (d : Directory)

def fail {α : Type} (message : String) : Service α := Prog.raise (.failure message)

/-- The role lookup of `_sync_user_storage_space_projection`: a manager needs no query. -/
def accessByBucket (userId : ℕ) : PortalAccountRole → Service (String → Option StorageSpaceRole)
  | .portalManager => return fun _ => none
  | .portalUser => do
    let rows : Rows ← Prog.perform Op.query
    return d.allowedBuckets rows userId .portalUser

def syncUserStorageSpaceProjection (userId : ℕ) (portalRole : PortalAccountRole) : Service Unit := do
  let roles ← accessByBucket d userId portalRole
  let policy : InlinePolicy ← Prog.perform (Op.getPolicy (.inlinePolicy userId))
  Prog.perform (Op.putPolicy (.inlinePolicy userId) { policy with roles := roles })

/-- The projection of a participant, if it has an IAM user and a Portal role. -/
def syncParticipant (userId : ℕ) : Service Unit :=
  match d.projectedRole userId with
  | none => return ()
  | some portalRole => do
    Prog.perform (Op.remote "_sync_user_group_membership")
    syncUserStorageSpaceProjection d userId portalRole

def syncStorageSpaceUserProjections (userIds : List ℕ) : Service Unit := do
  Prog.perform (Op.remote "select the users, their links and their roles")
  Prog.forEach ((d.database.users.map User.id).filter fun userId => userId ∈ userIds) (syncParticipant d)

def syncStorageSpaceBucketPolicy (bucketName : String) : Service Unit := do
  let policy : BucketPolicy ← Prog.perform (Op.getPolicy (.bucketPolicy bucketName))
  let rows : Rows ← Prog.perform Op.query
  Prog.perform (Op.putPolicy (.bucketPolicy bucketName) { policy with deny := d.bucketDeny rows bucketName })

def syncStorageSpaceAccessProjection (bucketName : String) (extraUserIds : List ℕ) : Service Unit := do
  let rows : Rows ← Prog.perform Op.query
  syncStorageSpaceUserProjections d (d.participantUserIds rows bucketName ++ extraUserIds)
  syncStorageSpaceBucketPolicy d bucketName

/-- The handler of a change whose projection may have been attempted. -/
def restoreProjection (bucketName : String) (extraUserIds : List ℕ) (attempted : Bool) (message : String)
    (e : Error) : Service Unit := do
  let rollbackFailed ← Prog.fails (Prog.perform Op.rollback)
  let projectionFailed ← Prog.failsWhen (attempted && !rollbackFailed)
    (syncStorageSpaceAccessProjection d bucketName extraUserIds)
  Prog.when (rollbackFailed || projectionFailed) (Prog.raise (.rollbackFailed message))
  Prog.raise e

/-- Flush a change, project it and commit; undo all of it when a step fails. -/
def project (flushed : Service Unit) (bucketName : String) (extraUserIds : List ℕ) (message : String) :
    Service Unit := do
  flushed.tryCatch (restoreProjection d bucketName extraUserIds false message)
  (do
    syncStorageSpaceAccessProjection d bucketName extraUserIds
    Prog.perform Op.commit : Service Unit).tryCatch
      (restoreProjection d bucketName extraUserIds true message)

/-! ## The share mutations -/

/-- The user behind a request and its Portal role. -/
structure Access where
  user : ℕ
  portalRole : Option PortalAccountRole
  deriving DecidableEq, Repr

/-- `_user_storage_space_role` -/
def userStorageSpaceRole (rows : Rows) (access : Access) (bucketName : String) (includeArchived : Bool) :
    Option StorageSpaceRole :=
  Database.storageSpaceEffectiveRole access.user access.portalRole (d.metadata rows bucketName)
    ((d.view rows).storageSpaceRolesByBucket access.user d.accountId access.portalRole includeArchived
      bucketName) includeArchived

/-- `_resolve_storage_space_bucket_name` and `_require_storage_space_manager`: the row of the space. -/
def requireStorageSpaceManager (rows : Rows) (access : Access) (bucketName : String)
    (includeArchived : Bool) : Service StorageSpaceMetadata :=
  match d.metadata rows bucketName, userStorageSpaceRole d rows access bucketName includeArchived with
  | some metadata, some .owner | some metadata, some .manager => return metadata
  | _, some _ => fail "Full management access required for this storage space."
  | _, none => fail "Storage space not found or not allowed."

/-- The flush of `set_storage_space_share`: a role that is set already is not written. -/
def flushGrant (space target : ℕ) (grant : Option MemberRole) (role : MemberRole) : Service Unit :=
  match grant with
  | none => Prog.perform (Op.flush ⟨.grant space target, some role⟩ (some false))
  | some current =>
    if current = role then Prog.perform (Op.touch (.grant space target))
    else Prog.perform (Op.flush ⟨.grant space target, some role⟩ (some true))

def setStorageSpaceShare (access : Access) (target : ℕ) (bucketName : String) (role : MemberRole) :
    Service Unit := do
  let rows : Rows ← Prog.perform Op.query
  let metadata ← requireStorageSpaceManager d rows access bucketName false
  Prog.when (!metadata.shared) (fail "Private storage spaces cannot be shared.")
  Prog.when (d.memberRole target ≠ some .portalUser)
    (fail "Only Portal users can receive an explicit team Storage Space role.")
  let rows : Rows ← Prog.perform Op.query
  project d (flushGrant metadata.id target (rows (.grant metadata.id target)) role) bucketName [target]
    "Unable to update Storage Space share. Local or remote rollback also failed."

/-- Without a grant there is only the commit. -/
def commitOrRollback (message : String) : Service Unit :=
  (Prog.perform Op.commit : Service Unit).tryCatch fun e => do
    let rollbackFailed ← Prog.fails (Prog.perform Op.rollback)
    Prog.when rollbackFailed (Prog.raise (.rollbackFailed message))
    Prog.raise e

def revokeStorageSpaceShare (access : Access) (target : ℕ) (bucketName : String) : Service Unit := do
  let rows : Rows ← Prog.perform Op.query
  let metadata ← requireStorageSpaceManager d rows access bucketName false
  let rows : Rows ← Prog.perform Op.query
  let message := "Unable to revoke Storage Space share. Local or remote rollback also failed."
  if rows (.grant metadata.id target) = none then commitOrRollback message
  else
    project d (Prog.perform (Op.flush ⟨.grant metadata.id target, none⟩ none)) bucketName [target] message

end Services

end StorageSpaces
end BucketReef

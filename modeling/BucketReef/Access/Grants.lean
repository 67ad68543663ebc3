import BucketReef.Effects.Dicts
import BucketReef.Portal.EffectiveAccess
import Mathlib

/-!
# Effective access of many users

`EffectiveAccessLoader.load` and `EffectiveAccessService.resolve_users`: the direct grants of all users
and the grants of their groups come from one query each, and are attributed to the users row by row. A
query without `ORDER BY` returns the rows in the order of the table. `lower` stands for `str.lower`.
-/

namespace BucketReef
namespace Access

open Portal (UserRole PortalAccountRole maxPortalAccountRole)

/-! ## Tables -/

/-- `ManagerToolAccess` -/
inductive ManagerTool
  | bucketCompare | bucketIntegrityCheck | bucketMigration | featureRules | bucketPurge
  deriving DecidableEq, Repr

/-- The feature columns of users and groups. -/
inductive Feature
  | cephAdmin | storageOps | manualPrivateConnections | managedPrivateConnections
  | multisiteEndpointSwitching | browserAdvancedFeatures
  | managerTool (tool : ManagerTool)
  deriving DecidableEq, Repr

structure User where
  id : ℕ
  isActive : Bool := true
  role : UserRole := .uiUser
  features : Feature → Bool := fun _ => false

structure UiGroup where
  id : ℕ
  name : String
  systemKey : Option String := none
  features : Feature → Bool := fun _ => false

def allUsersSystemKey : String := "all_users"

/-- The roles of a row of `user_s3_accounts` or `ui_group_s3_accounts`, under its check constraints. -/
structure AccountGrant where
  /-- `manager_role` is `account_administrator`. -/
  accountAdministrator : Bool
  portalRole : Option PortalAccountRole
  allowManagerBrowserDataAccess : Bool := false
  hasRole : accountAdministrator = true ∨ portalRole.isSome = true := by decide
  browserRole : allowManagerBrowserDataAccess = true → accountAdministrator = true := by decide
  deriving Repr

instance : DecidableEq AccountGrant := fun a b =>
  decidable_of_iff (a.accountAdministrator = b.accountAdministrator ∧ a.portalRole = b.portalRole ∧
    a.allowManagerBrowserDataAccess = b.allowManagerBrowserDataAccess) (by cases a; cases b; simp)

/-- A row that links a user or a group to a target. -/
structure Link (α : Type) where
  owner : ℕ
  target : ℕ
  grant : α
  deriving DecidableEq, Repr

def Link.key {α : Type} (link : Link α) : ℕ × ℕ := (link.owner, link.target)

/-- A link table with its unique constraint. -/
structure Table (α : Type) where
  rows : List (Link α) := []
  unique : (rows.map Link.key).Nodup := by decide

/-- `INSERT`; `none` when the unique constraint fails. -/
def Table.insert {α : Type} (table : Table α) (link : Link α) : Option (Table α) :=
  if h : link.key ∈ table.rows.map Link.key then none
  else some {
    rows := table.rows ++ [link]
    unique := by
      rw [List.map_append]
      refine List.nodup_append.mpr ⟨table.unique, List.nodup_singleton _, ?_⟩
      rintro key hkey key' hkey' rfl
      rw [List.map_singleton, List.mem_singleton] at hkey'
      exact h (hkey' ▸ hkey) }

structure S3Connection where
  id : ℕ
  isShared : Bool
  createdByUserId : Option ℕ := none
  deriving DecidableEq, Repr

structure Database where
  uiGroups : List UiGroup := []
  groupIds : (uiGroups.map UiGroup.id).Nodup := by decide
  systemKeys : (uiGroups.filterMap UiGroup.systemKey).Nodup := by decide
  s3Connections : List S3Connection := []
  userUiGroups : Table Unit := {}
  userS3Accounts : Table AccountGrant := {}
  uiGroupS3Accounts : Table AccountGrant := {}
  /-- With `allow_manager_browser_data_access`. -/
  userS3Users : Table Bool := {}
  uiGroupS3Users : Table Bool := {}
  userS3Connections : Table Unit := {}
  uiGroupS3Connections : Table Unit := {}

/-! ## Contracts -/

inductive SourceKind
  | direct | group | platform
  deriving DecidableEq, Repr

/-- `EffectiveAccessSource` -/
structure Source where
  kind : SourceKind
  groupId : Option ℕ := none
  groupName : Option String := none
  deriving DecidableEq, Repr

/-- `EffectiveAccountGroupRole` -/
structure EffectiveAccountGroupRole where
  groupId : ℕ
  groupName : String
  managerRole : Bool
  portalRole : Option PortalAccountRole
  determinesEffectiveManagerRole : Bool
  determinesEffectivePortalRole : Bool
  allowManagerBrowserDataAccess : Bool
  deriving DecidableEq, Repr

/-- `EffectiveAccountLink` -/
structure EffectiveAccountLink where
  accountId : ℕ
  managerRole : Bool
  portalRole : Option PortalAccountRole
  directManagerRole : Bool
  directPortalRole : Option PortalAccountRole
  directDeterminesEffectiveManagerRole : Bool
  directDeterminesEffectivePortalRole : Bool
  directAllowManagerBrowserDataAccess : Bool
  groupSources : List EffectiveAccountGroupRole
  deriving DecidableEq, Repr

def EffectiveAccountLink.managerBrowserAllowed (link : EffectiveAccountLink) : Bool :=
  (link.directManagerRole && link.directAllowManagerBrowserDataAccess) ||
    link.groupSources.any fun source => source.managerRole && source.allowManagerBrowserDataAccess

/-! ## Accumulators -/

/-- An entry of `group_roles`. -/
structure GroupRole where
  groupId : ℕ
  groupName : String
  managerRole : Bool
  portalRole : Option PortalAccountRole
  allowManagerBrowserDataAccess : Bool
  deriving DecidableEq, Repr

structure AccountRoleAccumulator where
  accountId : ℕ
  directManagerRole : Bool := false
  directPortalRole : Option PortalAccountRole := none
  directAllowManagerBrowserDataAccess : Bool := false
  groupRoles : List GroupRole := []
  deriving DecidableEq, Repr

section Lower

variable (lower : String → String)

/-- The order of names, then of ids. -/
def nameLe (name : String) (id : ℕ) (name' : String) (id' : ℕ) : Bool :=
  toLex (name, id) ≤ toLex (name', id')

/-- `build`; `none` for its `ValueError`. -/
def AccountRoleAccumulator.build (accumulator : AccountRoleAccumulator) :
    Option EffectiveAccountLink :=
  let managerRole := accumulator.directManagerRole ||
    accumulator.groupRoles.any GroupRole.managerRole
  let portalRole := maxPortalAccountRole
    (accumulator.directPortalRole :: accumulator.groupRoles.map GroupRole.portalRole)
  if managerRole = false ∧ portalRole = none then none
  else some {
    accountId := accumulator.accountId
    managerRole := managerRole
    portalRole := portalRole
    directManagerRole := accumulator.directManagerRole
    directPortalRole := accumulator.directPortalRole
    directDeterminesEffectiveManagerRole := accumulator.directManagerRole
    directDeterminesEffectivePortalRole :=
      accumulator.directPortalRole.isSome && accumulator.directPortalRole = portalRole
    directAllowManagerBrowserDataAccess := accumulator.directAllowManagerBrowserDataAccess
    groupSources := (accumulator.groupRoles.mergeSort fun a b =>
        nameLe (lower a.groupName) a.groupId (lower b.groupName) b.groupId).map fun source => {
      groupId := source.groupId
      groupName := source.groupName
      managerRole := source.managerRole
      portalRole := source.portalRole
      determinesEffectiveManagerRole := source.managerRole
      determinesEffectivePortalRole :=
        source.portalRole.isSome && source.portalRole = portalRole
      allowManagerBrowserDataAccess := source.allowManagerBrowserDataAccess } }

/-- The targets granted to one user, and where each comes from. -/
structure UserGrants where
  ids : List ℕ := []
  sources : Dict ℕ (List Source) := []
  deriving DecidableEq, Repr

def UserGrants.add (grants : UserGrants) (target : ℕ) (source : Source) : UserGrants where
  ids := grants.ids.insert target
  sources := Dict.modify grants.sources target [] (· ++ [source])

/-- The S3 users granted to one user, and those with browser access. -/
structure S3UserGrants where
  all : UserGrants := {}
  browser : UserGrants := {}
  deriving DecidableEq, Repr

def S3UserGrants.add (grants : S3UserGrants) (link : Link Bool) (source : Source) : S3UserGrants where
  all := grants.all.add link.target source
  browser := if link.grant then grants.browser.add link.target source else grants.browser

/-! ## The loader -/

/-- `_GroupMembershipIndex` -/
structure GroupMembershipIndex where
  groupsByUser : Dict ℕ (List UiGroup)
  userIdsByGroup : Dict ℕ (List ℕ)
  groupNames : Dict ℕ String

def GroupMembershipIndex.groupIds (groups : GroupMembershipIndex) : List ℕ :=
  Dict.keys groups.groupNames

/-- The users who are members of the system group of all users. -/
def User.eligible (user : User) : Bool :=
  user.isActive && user.role ∈ [UserRole.uiUser, .uiAdmin, .uiSuperadmin]

namespace Database

def findGroup (db : Database) (groupId : ℕ) : Option UiGroup :=
  db.uiGroups.find? fun group => group.id = groupId

def allUsersGroup (db : Database) : Option UiGroup :=
  db.uiGroups.find? fun group => group.systemKey = some allUsersSystemKey

/-- The memberships with their groups. -/
def membershipRows (db : Database) : List (ℕ × UiGroup) :=
  db.userUiGroups.rows.filterMap fun link => (db.findGroup link.target).map fun group =>
    (link.owner, group)

/-- `ORDER BY user_id, name, id` -/
def membershipLe (a b : ℕ × UiGroup) : Bool :=
  toLex (a.1, toLex (a.2.name, a.2.id)) ≤ toLex (b.1, toLex (b.2.name, b.2.id))

def loadGroupMemberships (db : Database) (users : List User) : GroupMembershipIndex :=
  let userIds := users.map User.id
  let rows := (db.membershipRows.filter fun row => row.1 ∈ userIds).mergeSort membershipLe
  let explicit : GroupMembershipIndex := {
    groupsByUser := Dict.group Prod.fst (fun _ => []) (fun row groups => groups ++ [row.2]) rows
      (userIds.map fun userId => (userId, []))
    userIdsByGroup := Dict.group (fun row => row.2.id) (fun _ => []) (fun row ids => ids ++ [row.1]) rows []
    groupNames := Dict.group (fun row => row.2.id) (fun _ => "") (fun row _ => row.2.name) rows [] }
  match db.allUsersGroup with
  | none => explicit
  | some group =>
    let eligibleUserIds := (users.filter User.eligible).map User.id
    let groupsByUser := Dict.group (fun userId => userId) (fun _ => [])
      (fun _ groups => if groups.all fun other => other.id ≠ group.id then groups ++ [group] else groups)
      eligibleUserIds explicit.groupsByUser
    if eligibleUserIds = [] then { explicit with groupsByUser }
    else {
      groupsByUser := groupsByUser
      userIdsByGroup := Dict.modify explicit.userIdsByGroup group.id [] fun _ => eligibleUserIds
      groupNames := Dict.modify explicit.groupNames group.id "" fun _ => group.name }

/-- The loop that attributes direct rows and group rows to users. -/
def attributeRows {α β : Type} (default : β) (direct : Link α → β → β) (group : String → Link α → β → β)
    (directRows groupRows : List (Link α)) (userIds : List ℕ) (groups : GroupMembershipIndex) :
    Dict ℕ β :=
  let grants := Dict.group Link.owner (fun _ => default) direct
    (directRows.filter fun link => link.owner ∈ userIds) (userIds.map fun userId => (userId, default))
  if groups.groupIds = [] then grants
  else Dict.groupAll default (fun link => group (Dict.getD groups.groupNames link.owner "") link)
    (fun link => Dict.getD groups.userIdsByGroup link.owner [])
    (groupRows.filter fun link => link.owner ∈ groups.groupIds) grants

def addDirectRole (link : Link AccountGrant) :
    Dict ℕ AccountRoleAccumulator → Dict ℕ AccountRoleAccumulator := fun accumulators =>
  Dict.modify accumulators link.target { accountId := link.target } fun accumulator => { accumulator with
    directManagerRole := link.grant.accountAdministrator
    directPortalRole := link.grant.portalRole
    directAllowManagerBrowserDataAccess := link.grant.allowManagerBrowserDataAccess }

def addGroupRole (groupName : String) (link : Link AccountGrant) :
    Dict ℕ AccountRoleAccumulator → Dict ℕ AccountRoleAccumulator := fun accumulators =>
  Dict.modify accumulators link.target { accountId := link.target } fun accumulator =>
    { accumulator with groupRoles := accumulator.groupRoles ++ [{
      groupId := link.owner
      groupName := groupName
      managerRole := link.grant.accountAdministrator
      portalRole := link.grant.portalRole
      allowManagerBrowserDataAccess := link.grant.allowManagerBrowserDataAccess }] }

def loadAccountRoles (db : Database) (userIds : List ℕ) (groups : GroupMembershipIndex) :
    Dict ℕ (Dict ℕ AccountRoleAccumulator) :=
  attributeRows [] addDirectRole addGroupRole db.userS3Accounts.rows db.uiGroupS3Accounts.rows userIds
    groups

def groupSource (groupName : String) (groupId : ℕ) : Source :=
  { kind := .group, groupId := some groupId, groupName := some groupName }

def loadS3UserGrants (db : Database) (userIds : List ℕ) (groups : GroupMembershipIndex) :
    Dict ℕ S3UserGrants :=
  attributeRows {} (fun link grants => grants.add link { kind := .direct })
    (fun groupName link grants => grants.add link (groupSource groupName link.owner))
    db.userS3Users.rows db.uiGroupS3Users.rows userIds groups

def isShared (db : Database) (link : Link Unit) : Bool :=
  db.s3Connections.any fun connection => connection.id = link.target && connection.isShared

def loadSharedConnectionGrants (db : Database) (userIds : List ℕ) (groups : GroupMembershipIndex) :
    Dict ℕ UserGrants :=
  attributeRows {} (fun link grants => grants.add link.target { kind := .direct })
    (fun groupName link grants => grants.add link.target (groupSource groupName link.owner))
    (db.userS3Connections.rows.filter db.isShared) (db.uiGroupS3Connections.rows.filter db.isShared)
    userIds groups

def loadOwnedPrivateUserIds (db : Database) (userIds : List ℕ) : List ℕ :=
  userIds.filter fun userId => db.s3Connections.any fun connection =>
    connection.createdByUserId = some userId && !connection.isShared

end Database

/-! ## Features -/

inductive FeaturePolicy
  | disabled | targeted | defaultOn
  deriving DecidableEq, Repr

/-- `resolve_feature_policy(policy, override).enabled` -/
def resolveFeaturePolicy (policy : FeaturePolicy) (override : Option Bool) : Bool :=
  match policy with
  | .disabled => false
  | _ => override.getD (policy = .defaultOn)

structure ManagerFeaturePolicies where
  managedPrivateConnectionProvisioning : FeaturePolicy
  tool : ManagerTool → FeaturePolicy

def userOrGroupFlag (user : User) (groups : List UiGroup) (feature : Feature) : Bool :=
  user.features feature || groups.any fun group => group.features feature

variable (policies : ManagerFeaturePolicies)

/-- `_resolve_feature_access` -/
def resolveFeatureAccess (user : User) (groups : List UiGroup) (feature : Feature) : Bool :=
  let flag := userOrGroupFlag user groups feature
  let roleSupportsTools := decide (user.role ∈ [UserRole.uiSuperadmin, .uiAdmin, .uiUser])
  match feature with
  | .cephAdmin => flag && user.role ∈ [UserRole.uiSuperadmin, .uiAdmin]
  | .storageOps => flag && roleSupportsTools
  | .managerTool tool => roleSupportsTools &&
      resolveFeaturePolicy (policies.tool tool) (if flag then some true else none)
  | .browserAdvancedFeatures => flag
  | .manualPrivateConnections => roleSupportsTools && flag
  | .managedPrivateConnections => roleSupportsTools &&
      resolveFeaturePolicy policies.managedPrivateConnectionProvisioning
        (if flag then some true else none)
  | .multisiteEndpointSwitching => roleSupportsTools && flag

/-- `_ordered_sources` -/
def orderedSources (sources : List Source) : List Source :=
  let deduplicated : Dict (SourceKind × Option ℕ) Source :=
    Dict.group (fun source => (source.kind, source.groupId)) (fun _ => { kind := .direct })
      (fun source _ => source) sources []
  (Dict.values deduplicated).mergeSort fun a b =>
    toLex (if a.kind = .direct then 0 else 1, toLex (lower (a.groupName.getD ""), a.groupId.getD 0)) ≤
      toLex (if b.kind = .direct then 0 else 1, toLex (lower (b.groupName.getD ""), b.groupId.getD 0))

def flagSources (user : User) (groups : List UiGroup) (feature : Feature) : List Source :=
  orderedSources lower ((if user.features feature then [{ kind := .direct }] else []) ++
    (groups.filter fun group => group.features feature).map fun group =>
      { kind := .group, groupId := some group.id, groupName := some group.name })

/-- `_build_feature_sources`, for one feature. -/
def featureSources (user : User) (groups : List UiGroup) (feature : Feature) : Option (List Source) :=
  if resolveFeatureAccess policies user groups feature then
    let platform : Bool := match feature with
      | .managedPrivateConnections => policies.managedPrivateConnectionProvisioning = .defaultOn
      | .managerTool tool => policies.tool tool = .defaultOn
      | _ => false
    let sources := flagSources lower user groups feature
    some (if platform then { kind := .platform } :: sources else sources)
  else none

/-! ## The service -/

structure ResolvedUserAccess where
  groupDetails : List (ℕ × String)
  accountLinks : List EffectiveAccountLink
  s3UserIds : List ℕ
  managerBrowserS3UserIds : List ℕ
  s3ConnectionIds : List ℕ
  features : Feature → Bool
  hasOwnedPrivateConnections : Bool
  featureSources : Feature → Option (List Source)
  s3UserSources : Dict ℕ (List Source)
  s3UserBrowserSources : Dict ℕ (List Source)
  s3ConnectionSources : Dict ℕ (List Source)

def sorted (ids : List ℕ) : List ℕ := ids.mergeSort (· ≤ ·)

def orderedSourceDict (sources : Dict ℕ (List Source)) : Dict ℕ (List Source) :=
  sources.map fun entry => (entry.1, orderedSources lower entry.2)

/-- What `resolve_users` builds for a user from what was loaded for it. -/
def resolveLoaded (user : User) (groups : List UiGroup)
    (accumulators : Dict ℕ AccountRoleAccumulator) (s3Users : S3UserGrants) (connections : UserGrants)
    (ownsPrivate : Bool) : Option ResolvedUserAccess :=
  ((Dict.values accumulators).mapM (AccountRoleAccumulator.build lower)).map fun links => {
    groupDetails := groups.map fun group => (group.id, group.name)
    accountLinks := links.mergeSort fun a b => a.accountId ≤ b.accountId
    s3UserIds := sorted s3Users.all.ids
    managerBrowserS3UserIds := sorted s3Users.browser.ids
    s3ConnectionIds := sorted connections.ids
    features := resolveFeatureAccess policies user groups
    hasOwnedPrivateConnections := ownsPrivate
    featureSources := featureSources lower policies user groups
    s3UserSources := orderedSourceDict lower s3Users.all.sources
    s3UserBrowserSources := orderedSourceDict lower s3Users.browser.sources
    s3ConnectionSources := orderedSourceDict lower connections.sources }

/-- `none` when an account association has no role. -/
def resolveUsers (db : Database) (users : List User) : Option (Dict ℕ ResolvedUserAccess) :=
  let userById : Dict ℕ User := users.foldl (fun byId user => Dict.set byId user.id user) []
  let userIds := Dict.keys userById
  let groups := db.loadGroupMemberships (Dict.values userById)
  let accounts := db.loadAccountRoles userIds groups
  let s3Users := db.loadS3UserGrants userIds groups
  let connections := db.loadSharedConnectionGrants userIds groups
  let owners := db.loadOwnedPrivateUserIds userIds
  userById.mapM fun entry =>
    (resolveLoaded lower policies entry.2 (Dict.getD groups.groupsByUser entry.1 [])
      (Dict.getD accounts entry.1 []) (Dict.getD s3Users entry.1 {})
      (Dict.getD connections entry.1 {}) (entry.1 ∈ owners)).map fun resolved => (entry.1, resolved)

/-- `resolve_user` -/
def resolveUser (db : Database) (user : User) : Option ResolvedUserAccess :=
  (resolveUsers lower policies db [user]).bind fun resolved => Dict.get? resolved user.id

end Lower

end Access
end BucketReef

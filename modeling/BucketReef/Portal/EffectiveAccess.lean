import BucketReef.Portal.Rows
import Mathlib.Data.List.ReduceOption

/-!
# Effective access

The Portal role of a user on an account is the highest one its direct link and its groups give it.
`EffectiveAccessLoader` counts every active UI user as a member of the system group of all users;
`_portal_account_member_map` only knows the memberships that are stored.
-/

namespace BucketReef
namespace Portal

def PortalAccountRole.rank : PortalAccountRole → ℕ
  | .portalUser => 1
  | .portalManager => 2

def maxPortalAccountRole (roles : List (Option PortalAccountRole)) : Option PortalAccountRole :=
  match roles.reduceOption with
  | [] => none
  | role :: roles =>
    some (roles.foldl (fun best role => if best.rank < role.rank then role else best) role)

namespace Database

def allUsersGroup (db : Database) : Option UiGroup := db.uiGroups.find? UiGroup.allUsers

/-- The users the system group of all users stands for. -/
def eligibleUserIds (users : List User) : List ℕ :=
  (users.filter fun user =>
    user.isActive && user.role ∈ [UserRole.uiUser, .uiAdmin, .uiSuperadmin]).map User.id

/-- `_load_group_memberships` for the users being resolved. -/
def userIdsByGroup (db : Database) (users : List User) (groupId : ℕ) : List ℕ :=
  let explicit := (users.map User.id).filter fun userId => db.userUiGroups userId groupId
  match db.allUsersGroup with
  | none => explicit
  | some group =>
    if groupId = group.id ∧ eligibleUserIds users ≠ [] then eligibleUserIds users else explicit

/-- The group sources of a user on an account, as `_load_account_roles` collects them. -/
def groupPortalRoles (db : Database) (users : List User) (userId accountId : ℕ) :
    List (Option PortalAccountRole) :=
  db.uiGroups.filterMap fun group =>
    if userId ∈ db.userIdsByGroup users group.id then
      (db.uiGroupS3Accounts group.id accountId).map AccountLink.portalRole
    else none

def directPortalRole (db : Database) (userId accountId : ℕ) : Option PortalAccountRole :=
  (db.userS3Accounts userId accountId).bind AccountLink.portalRole

/-- `resolve_users`, for one of the users. -/
def resolveUsers (db : Database) (users : List User) (userId accountId : ℕ) :
    Option PortalAccountRole :=
  maxPortalAccountRole
    (db.directPortalRole userId accountId :: db.groupPortalRoles users userId accountId)

/-- `resolve_user` -/
def effectivePortalRole (db : Database) (user : User) (accountId : ℕ) : Option PortalAccountRole :=
  db.resolveUsers [user] user.id accountId

/-- The roles of the groups the user is stored as a member of. -/
def memberGroupRoles (db : Database) (userId accountId : ℕ) : List (Option PortalAccountRole) :=
  db.uiGroups.filterMap fun group =>
    if db.userUiGroups userId group.id = true then
      (db.uiGroupS3Accounts group.id accountId).map AccountLink.portalRole
    else none

/-- The role of a user in `_portal_account_member_map`, if it has an entry. -/
def memberPortalRole (db : Database) (user : User) (accountId : ℕ) : Option PortalAccountRole :=
  if user.isActive then
    maxPortalAccountRole
      (db.directPortalRole user.id accountId :: db.memberGroupRoles user.id accountId)
  else none

def portalAccountMemberMap (db : Database) (accountId : ℕ) : List (ℕ × PortalAccountRole) :=
  db.users.filterMap fun user => (db.memberPortalRole user accountId).map fun role => (user.id, role)

end Database

/-! ## The highest role -/

theorem foldl_rank_eq_manager_iff (role : PortalAccountRole) (roles : List PortalAccountRole) :
    roles.foldl (fun best role => if best.rank < role.rank then role else best) role =
        .portalManager ↔ .portalManager ∈ role :: roles := by
  induction roles generalizing role with
  | nil => simp [eq_comm]
  | cons next roles ih =>
    rw [List.foldl_cons, ih]
    cases role with
    | portalUser =>
      cases next with
      | portalUser => simp [PortalAccountRole.rank]
      | portalManager => simp [PortalAccountRole.rank]
    | portalManager =>
      cases next with
      | portalUser => simp [PortalAccountRole.rank]
      | portalManager => simp [PortalAccountRole.rank]

theorem maxPortalAccountRole_eq_manager_iff (roles : List (Option PortalAccountRole)) :
    maxPortalAccountRole roles = some .portalManager ↔ some .portalManager ∈ roles := by
  rw [← List.reduceOption_mem_iff]
  unfold maxPortalAccountRole
  split
  · rename_i h
    rw [h]
    simp
  · rename_i role rest h
    rw [h, Option.some.injEq, foldl_rank_eq_manager_iff]

theorem maxPortalAccountRole_isSome_iff (roles : List (Option PortalAccountRole)) :
    (maxPortalAccountRole roles).isSome = true ↔ ∃ role, some role ∈ roles := by
  simp only [← List.reduceOption_mem_iff]
  unfold maxPortalAccountRole
  split
  · rename_i h
    rw [h]
    simp
  · rename_i role rest h
    rw [h]
    exact ⟨fun _ => ⟨role, List.mem_cons_self⟩, fun _ => rfl⟩

end Portal
end BucketReef

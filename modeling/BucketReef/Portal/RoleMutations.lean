import BucketReef.Portal.StorageSpaceRoles
import Mathlib.Data.List.Dedup
import Mathlib.Data.List.Sort

/-!
# The mutations that change Portal roles

A mutation checks its input, collects the users and accounts it takes to be affected, whose effective
roles are captured, and flushes its rows. Which pairs it affects is read off the stored links; the group
of all users gives a role without one.
-/

namespace BucketReef
namespace RoleSync

open Portal

/-! ## Rows -/

structure Tables where
  database : Database
  distinctGroups : (database.uiGroups.map UiGroup.id).Nodup
  /-- The ids of the accounts. -/
  s3Accounts : List ℕ

/-- A user and an account. -/
abbrev Pair : Type := ℕ × ℕ

def portalAccountRoleRank : Option PortalAccountRole → ℕ
  | none => 0
  | some role => role.rank

/-- The role `capture_effective_portal_roles` finds. -/
def capturedPortalRole (db : Database) (user : User) (accountId : ℕ) : Option PortalAccountRole :=
  if user.isActive then db.effectivePortalRole user accountId else none

/-- An active UI user: the group of all users stands for it. -/
def eligible (user : User) : Bool := user.isActive && user.role ≠ .uiNone

/-- Links give a `ui_none` user the role `ui_user`. -/
def asUiUser (user : User) : User := if user.role = .uiNone then { user with role := .uiUser } else user

@[simp] theorem asUiUser_id (user : User) : (asUiUser user).id = user.id := by
  unfold asUiUser
  split <;> rfl

@[simp] theorem asUiUser_isActive (user : User) : (asUiUser user).isActive = user.isActive := by
  unfold asUiUser
  split <;> rfl

/-- `cleaned`: the last membership of an account counts. -/
def desiredLink (links : List (ℕ × AccountLink)) (accountId : ℕ) : Option AccountLink :=
  (links.reverse.find? fun link => link.1 = accountId).map Prod.snd

namespace Tables

variable (t : Tables)

def user (userId : ℕ) : Option User := t.database.users.find? fun user => user.id = userId

def group (groupId : ℕ) : Option UiGroup := t.database.uiGroups.find? fun group => group.id = groupId

def userIds : List ℕ := t.database.users.map User.id

def groupIds : List ℕ := t.database.uiGroups.map UiGroup.id

def modifyUser (userId : ℕ) (change : User → User) (hid : ∀ user, (change user).id = user.id) : Tables :=
  { t with
    database := { t.database with
      users := t.database.users.map fun user => if user.id = userId then change user else user
      distinctUsers := by
        rw [List.map_map]
        convert t.database.distinctUsers using 2
        funext user
        rw [Function.comp_apply]
        split
        · exact hid user
        · rfl } }

def setUserAccountLink (userId accountId : ℕ) (link : Option AccountLink) : Tables :=
  { t with
    database := { t.database with
      userS3Accounts := fun user account =>
        if user = userId ∧ account = accountId then link else t.database.userS3Accounts user account } }

def setUserAccountLinks (userId : ℕ) (links : List (ℕ × AccountLink)) : Tables :=
  { t with
    database := { t.database with
      userS3Accounts := fun user account =>
        if user = userId then desiredLink links account else t.database.userS3Accounts user account } }

def setUserGroups (userId : ℕ) (groupIds : List ℕ) : Tables :=
  { t with
    database := { t.database with
      userUiGroups := fun user group =>
        if user = userId then group ∈ groupIds else t.database.userUiGroups user group } }

def setGroupUsers (groupId : ℕ) (userIds : List ℕ) : Tables :=
  { t with
    database := { t.database with
      userUiGroups := fun user group =>
        if group = groupId then user ∈ userIds else t.database.userUiGroups user group } }

def setGroupAccountLinks (groupId : ℕ) (links : List (ℕ × AccountLink)) : Tables :=
  { t with
    database := { t.database with
      uiGroupS3Accounts := fun group account =>
        if group = groupId then desiredLink links account
        else t.database.uiGroupS3Accounts group account } }

end Tables

/-- What a mutation captures and flushes. -/
structure Plan where
  userIds : List ℕ
  accountIds : List ℕ
  tables : Tables
  syncPromotions : Bool := true

def Plan.scope (plan : Plan) (pair : Pair) : Prop := pair.1 ∈ plan.userIds ∧ pair.2 ∈ plan.accountIds

/-- The ids that `ensure_association_ids_exist` misses. -/
def missingIds (known ids : List ℕ) : List ℕ := (ids.filter fun id => id ∉ known).dedup.insertionSort (· ≤ ·)

def ensureAssociationIdsExist (known ids : List ℕ) (entityLabel : String) : Except String Unit :=
  match missingIds known ids with
  | [] => .ok ()
  | missing => .error (entityLabel ++ " not found: " ++ ", ".intercalate (missing.map toString))

/-! ## Users -/

/-- A link with one role at least, or none. -/
def membership (accountAdministrator : Bool) (portalRole : Option PortalAccountRole) : Option AccountLink :=
  if h : accountAdministrator = true ∨ portalRole.isSome = true then
    some ⟨accountAdministrator, portalRole, h⟩
  else none

/-- The link of the user becomes the membership, or is deleted. -/
def Tables.upsertDirectAccountLink (t : Tables) (userId accountId : ℕ) (link : Option AccountLink) :
    Tables :=
  (t.modifyUser userId asUiUser asUiUser_id).setUserAccountLink userId accountId link

def assignAccount (t : Tables) (userId accountId : ℕ) (accountAdministrator : Bool)
    (portalRole : Option PortalAccountRole) : Except String Plan :=
  match t.user userId with
  | none => .error "User not found"
  | some _ =>
    if accountId ∈ t.s3Accounts then
      .ok
        { userIds := [userId]
          accountIds := [accountId]
          tables := t.upsertDirectAccountLink userId accountId
            (membership accountAdministrator portalRole) }
    else .error "S3Account not found"

structure UserUpdate where
  role : Option UserRole := none
  isActive : Option Bool := none
  accountLinks : Option (List (ℕ × AccountLink)) := none
  groupIds : Option (List ℕ) := none
  deriving DecidableEq, Repr

/-- `_apply_role_updates`, and the role that links give. -/
def UserUpdate.apply (payload : UserUpdate) (user : User) : User :=
  let user :=
    { user with role := payload.role.getD user.role, isActive := payload.isActive.getD user.isActive }
  match payload.accountLinks with
  | none | some [] => user
  | some (_ :: _) => asUiUser user

@[simp] theorem UserUpdate.apply_id (payload : UserUpdate) (user : User) :
    (payload.apply user).id = user.id := by
  unfold UserUpdate.apply
  split
  · rfl
  · rfl
  · rw [asUiUser_id]

@[simp] theorem UserUpdate.apply_isActive (payload : UserUpdate) (user : User) :
    (payload.apply user).isActive = payload.isActive.getD user.isActive := by
  unfold UserUpdate.apply
  split
  · rfl
  · rfl
  · rw [asUiUser_isActive]

namespace Tables

variable (t : Tables)

/-- The accounts some group of a list is linked to. -/
def groupAccountIds (groupIds : List ℕ) : List ℕ :=
  t.s3Accounts.filter fun account =>
    groupIds.any fun group => (t.database.uiGroupS3Accounts group account).isSome

def affectedPortalAccountIds (userId : ℕ) (payload : UserUpdate) : List ℕ :=
  if payload.accountLinks = none ∧ payload.groupIds = none then []
  else
    let linked := t.s3Accounts.filter fun account => (t.database.userS3Accounts userId account).isSome
    linked ++ (payload.accountLinks.getD []).map Prod.fst ++
      match payload.groupIds with
      | none => []
      | some groupIds =>
        t.groupAccountIds ((t.groupIds.filter fun group => t.database.userUiGroups userId group) ++ groupIds)

def effectivePortalAccountIds (user : User) : List ℕ :=
  t.s3Accounts.filter fun account => (t.database.effectivePortalRole user account).isSome

/-- The accounts `update_user` captures. -/
def capturedAccountIds (user : User) (payload : UserUpdate) : List ℕ :=
  t.affectedPortalAccountIds user.id payload ++
    if payload.isActive.any (· ≠ user.isActive) then t.effectivePortalAccountIds user else []

def applyUserUpdate (userId : ℕ) (payload : UserUpdate) : Tables :=
  let t := t.modifyUser userId payload.apply payload.apply_id
  let t := match payload.accountLinks with
    | none => t
    | some links => t.setUserAccountLinks userId links
  match payload.groupIds with
  | none => t
  | some groupIds => t.setUserGroups userId groupIds

end Tables

def updateUser (t : Tables) (userId : ℕ) (payload : UserUpdate) : Except String Plan :=
  match t.user userId with
  | none => .error "User not found"
  | some user => do
    ensureAssociationIdsExist t.s3Accounts ((payload.accountLinks.getD []).map Prod.fst) "S3 accounts"
    ensureAssociationIdsExist t.groupIds (payload.groupIds.getD []) "UI groups"
    if t.database.uiGroups.any fun group => group.allUsers && group.id ∈ payload.groupIds.getD [] then
      .error "System groups use implicit membership"
    else
      .ok
        { userIds := [userId]
          accountIds := t.capturedAccountIds user payload
          tables := t.applyUserUpdate userId payload }

/-! ## Groups -/

/-- `_available_name` -/
def availableName (t : Tables) (value : String) (excludeId : Option ℕ) : Except String String :=
  let name := value.trimAscii.toString
  if name = "" then .error "UI group name is required"
  else if t.database.uiGroups.any fun group =>
      group.name.toLower = name.toLower && some group.id ≠ excludeId then
    .error "UI group already exists"
  else .ok name

structure UiGroupCreate where
  name : String
  userIds : List ℕ := []
  accountLinks : List (ℕ × AccountLink) := []
  deriving DecidableEq, Repr

/-- The new row has the id the database gives it. -/
def Tables.addGroup (t : Tables) (group : UiGroup) (hnew : group.id ∉ t.groupIds) : Tables :=
  { t with
    database := { t.database with uiGroups := t.database.uiGroups ++ [group] }
    distinctGroups := by
      rw [List.map_append, List.nodup_append]
      refine ⟨t.distinctGroups, List.nodup_singleton _, ?_⟩
      rintro id hid _ hsingle rfl
      rw [List.map_singleton, List.mem_singleton] at hsingle
      exact hnew (hsingle ▸ hid) }

def createGroup (t : Tables) (groupId : ℕ) (payload : UiGroupCreate) : Except String Plan := do
  let name ← availableName t payload.name none
  ensureAssociationIdsExist t.userIds payload.userIds "Users"
  ensureAssociationIdsExist t.s3Accounts (payload.accountLinks.map Prod.fst) "S3 accounts"
  if hnew : groupId ∈ t.groupIds then .error "duplicate key"
  else
    .ok
      { userIds := payload.userIds
        accountIds := payload.accountLinks.map Prod.fst
        tables := ((t.addGroup ⟨groupId, name, false⟩ hnew).setGroupUsers groupId
          payload.userIds).setGroupAccountLinks groupId payload.accountLinks }

structure UiGroupUpdate where
  name : Option String := none
  userIds : Option (List ℕ) := none
  accountLinks : Option (List (ℕ × AccountLink)) := none
  deriving DecidableEq, Repr

namespace Tables

variable (t : Tables)

def existingUserIds (groupId : ℕ) : List ℕ := t.userIds.filter fun user => t.database.userUiGroups user groupId

def existingAccountIds (groupId : ℕ) : List ℕ :=
  t.s3Accounts.filter fun account => (t.database.uiGroupS3Accounts groupId account).isSome

def renameGroup (groupId : ℕ) (name : String) : Tables :=
  { t with
    database := { t.database with
      uiGroups := t.database.uiGroups.map fun group =>
        if group.id = groupId then { group with name := name } else group }
    distinctGroups := by
      rw [List.map_map]
      convert t.distinctGroups using 2
      funext group
      rw [Function.comp_apply]
      split <;> rfl }

def applyGroupUpdate (groupId : ℕ) (name : Option String) (payload : UiGroupUpdate) : Tables :=
  let t := match name with
    | none => t
    | some name => t.renameGroup groupId name
  let t := match payload.userIds with
    | none => t
    | some userIds => t.setGroupUsers groupId userIds
  match payload.accountLinks with
  | none => t
  | some links => t.setGroupAccountLinks groupId links

end Tables

/-- The new name of a group, if the payload has one. -/
def updatedName (t : Tables) (group : UiGroup) (payload : UiGroupUpdate) : Except String (Option String) :=
  match payload.name with
  | none => .ok none
  | some name =>
    if group.allUsers ∧ name.trimAscii.toString ≠ group.name then .error "System groups cannot be renamed"
    else (availableName t name (some group.id)).map some

def updateGroup (t : Tables) (groupId : ℕ) (payload : UiGroupUpdate) : Except String Plan :=
  match t.group groupId with
  | none => .error "UI group not found"
  | some group => do
    let name ← updatedName t group payload
    if group.allUsers ∧ payload.userIds.isSome then .error "System groups use implicit membership"
    else do
      ensureAssociationIdsExist t.userIds (payload.userIds.getD []) "Users"
      ensureAssociationIdsExist t.s3Accounts ((payload.accountLinks.getD []).map Prod.fst) "S3 accounts"
      .ok
        { userIds := t.existingUserIds groupId ++ payload.userIds.getD []
          accountIds := t.existingAccountIds groupId ++ (payload.accountLinks.getD []).map Prod.fst
          tables := t.applyGroupUpdate groupId name payload }

/-- The row and what belongs to it. -/
def Tables.removeGroup (t : Tables) (groupId : ℕ) : Tables :=
  { t with
    database := { t.database with
      uiGroups := t.database.uiGroups.filter fun group => group.id ≠ groupId
      userUiGroups := fun user group => t.database.userUiGroups user group && group ≠ groupId
      uiGroupS3Accounts := fun group account =>
        if group = groupId then none else t.database.uiGroupS3Accounts group account }
    distinctGroups := t.distinctGroups.sublist (List.filter_sublist.map _) }

def deleteGroup (t : Tables) (groupId : ℕ) : Except String Plan :=
  match t.group groupId with
  | none => .error "UI group not found"
  | some group =>
    if group.allUsers then .error "System groups cannot be deleted"
    else
      .ok
        { userIds := t.existingUserIds groupId
          accountIds := t.existingAccountIds groupId
          tables := t.removeGroup groupId
          syncPromotions := false }

/-! ## Mutations -/

inductive Mutation
  | assignAccount (userId accountId : ℕ) (accountAdministrator : Bool)
      (portalRole : Option PortalAccountRole)
  | updateUser (userId : ℕ) (payload : UserUpdate)
  | createGroup (groupId : ℕ) (payload : UiGroupCreate)
  | updateGroup (groupId : ℕ) (payload : UiGroupUpdate)
  | deleteGroup (groupId : ℕ)
  deriving DecidableEq, Repr

def Mutation.plan (t : Tables) : Mutation → Except String Plan
  | .assignAccount userId accountId accountAdministrator portalRole =>
    RoleSync.assignAccount t userId accountId accountAdministrator portalRole
  | .updateUser userId payload => RoleSync.updateUser t userId payload
  | .createGroup groupId payload => RoleSync.createGroup t groupId payload
  | .updateGroup groupId payload => RoleSync.updateGroup t groupId payload
  | .deleteGroup groupId => RoleSync.deleteGroup t groupId

end RoleSync
end BucketReef

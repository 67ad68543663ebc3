import Mathlib.Logic.Function.Basic
import Mathlib.Data.List.Nodup

/-!
# The rows behind the Portal

Users, the groups they belong to, what links users and groups to accounts, and the Storage Spaces of
an account with the grants on them. A table with a unique key is a function of that key.
-/

namespace BucketReef
namespace Portal

inductive UserRole
  | uiSuperadmin | uiAdmin | uiUser | uiNone
  deriving DecidableEq, Repr

inductive PortalAccountRole
  | portalUser | portalManager
  deriving DecidableEq, Repr

structure User where
  id : ℕ
  isActive : Bool := true
  role : UserRole := .uiUser
  deriving DecidableEq, Repr

structure UiGroup where
  id : ℕ
  name : String
  /-- `system_key` is `all_users`. -/
  allUsers : Bool := false
  deriving DecidableEq, Repr

/-- A row of `user_s3_accounts` or `ui_group_s3_accounts`: it gives at least one role. -/
structure AccountLink where
  accountAdministrator : Bool := false
  portalRole : Option PortalAccountRole
  hasRole : accountAdministrator = true ∨ portalRole.isSome = true := by decide
  deriving DecidableEq, Repr

inductive MemberRole
  | viewer | editor
  deriving DecidableEq, Repr

/-- `visibility`, `share_scope`, `account_member_role` and `owner_user_id`, in the combinations the
table allows. -/
inductive Sharing
  | ownerOnly (owner : ℕ)
  | restricted
  | account (memberRole : MemberRole)
  deriving DecidableEq, Repr

structure StorageSpaceMetadata where
  id : ℕ
  bucketName : String
  sharing : Sharing
  archived : Bool := false
  deriving DecidableEq, Repr

namespace StorageSpaceMetadata

def ownerUserId (metadata : StorageSpaceMetadata) : Option ℕ :=
  match metadata.sharing with
  | .ownerOnly owner => some owner
  | _ => none

/-- `_metadata_visibility` is `shared`. -/
def shared (metadata : StorageSpaceMetadata) : Bool :=
  match metadata.sharing with
  | .ownerOnly _ => false
  | _ => true

/-- `_metadata_share_scope` is `account`. -/
def accountScope (metadata : StorageSpaceMetadata) : Bool :=
  match metadata.sharing with
  | .account _ => true
  | _ => false

def accountMemberRole (metadata : StorageSpaceMetadata) : Option MemberRole :=
  match metadata.sharing with
  | .account memberRole => some memberRole
  | _ => none

end StorageSpaceMetadata

structure AccountIAMUser where
  iamUserId : String
  iamUsername : Option String
  activeAccessKey : Option String := none
  deriving DecidableEq, Repr

structure Database where
  users : List User
  distinctUsers : (users.map User.id).Nodup
  uiGroups : List UiGroup
  /-- By user and group. -/
  userUiGroups : ℕ → ℕ → Bool := fun _ _ => false
  /-- By user and account. -/
  userS3Accounts : ℕ → ℕ → Option AccountLink := fun _ _ => none
  /-- By group and account. -/
  uiGroupS3Accounts : ℕ → ℕ → Option AccountLink := fun _ _ => none
  /-- By account and bucket name. -/
  storageSpaces : ℕ → String → Option StorageSpaceMetadata := fun _ _ => none
  /-- By Storage Space and user. -/
  storageSpaceGrants : ℕ → ℕ → Option MemberRole := fun _ _ => none
  /-- By user and account. -/
  accountIamUsers : ℕ → ℕ → Option AccountIAMUser := fun _ _ => none

theorem Database.user_eq {db : Database} {user user' : User} (h : user ∈ db.users) (h' : user' ∈ db.users)
    (hid : user.id = user'.id) : user = user' :=
  List.inj_on_of_nodup_map db.distinctUsers h h' hid

end Portal
end BucketReef

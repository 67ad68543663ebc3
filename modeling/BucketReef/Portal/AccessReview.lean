import BucketReef.Portal.StorageSpaceRoles
import Mathlib

/-!
# The access review of a collaborator

The review computes the role of a member on a Storage Space on its own: it looks for one source of the
role, in a fixed order, where the API takes the best role there is.
-/

namespace BucketReef
namespace Portal

inductive AccessSource
  | owner | projectManager | team | direct
  deriving DecidableEq, Repr

structure PortalCollaboratorStorageSpaceAccess where
  storageSpaceId : String
  role : StorageSpaceRole
  source : AccessSource
  canRevoke : Bool
  deriving DecidableEq, Repr

inductive ReviewError
  | notFound | forbidden
  deriving DecidableEq, Repr

/-- `_portal_collaborator_space_access` -/
def portalCollaboratorSpaceAccess (metadata : StorageSpaceMetadata) (grantRole : Option MemberRole)
    (targetUserId : ℕ) (portalRole : PortalAccountRole) (canManagePortalUsers : Bool) :
    Option PortalCollaboratorStorageSpaceAccess :=
  let roleAndSource : Option (StorageSpaceRole × AccessSource) :=
    if metadata.ownerUserId = some targetUserId then some (.owner, .owner)
    else if portalRole = .portalManager then some (.manager, .projectManager)
    else if metadata.shared = true ∧ metadata.accountScope = true then
      some ((metadata.accountMemberRole.map MemberRole.toStorageSpaceRole).getD .editor, .team)
    else if metadata.shared = true ∧ metadata.accountScope = false then
      grantRole.map fun role => (role.toStorageSpaceRole, .direct)
    else none
  roleAndSource.map fun (role, source) =>
    { storageSpaceId := metadata.bucketName
      role := role
      source := source
      canRevoke := source = .direct && canManagePortalUsers }

namespace Database

/-- The entry of a bucket in `_portal_collaborator_space_accesses`. -/
def portalCollaboratorSpaceAccesses (db : Database) (accountId targetUserId : ℕ)
    (portalRole : PortalAccountRole) (canManagePortalUsers : Bool) (bucketName : String) :
    Option PortalCollaboratorStorageSpaceAccess :=
  (db.storageSpaces accountId bucketName).bind fun metadata =>
    if metadata.archived then none
    else portalCollaboratorSpaceAccess metadata (db.storageSpaceGrants metadata.id targetUserId)
      targetUserId portalRole canManagePortalUsers

/-- The Storage Spaces of `get_portal_collaborator_access_review`, by bucket name. -/
def getPortalCollaboratorAccessReview (db : Database) (userId accountId : ℕ)
    (canManagePortalUsers : Bool) (targetUserId : ℕ) :
    Except ReviewError (String → Option PortalCollaboratorStorageSpaceAccess) :=
  match (db.portalAccountMemberMap accountId).find? fun entry => entry.1 = targetUserId with
  | none => .error .notFound
  | some (_, portalRole) =>
    if userId ≠ targetUserId ∧ canManagePortalUsers = false then .error .forbidden
    else .ok (db.portalCollaboratorSpaceAccesses accountId targetUserId portalRole canManagePortalUsers)

end Database

variable {db : Database} {user : User} {accountId : ℕ} {metadata : StorageSpaceMetadata}
  {portalRole : PortalAccountRole}

/-- What the two role functions of the API give a member with a project role. -/
def memberRoleOn (db : Database) (userId accountId : ℕ) (portalRole : Option PortalAccountRole)
    (bucketName : String) : Option StorageSpaceRole :=
  Database.storageSpaceEffectiveRole userId portalRole (db.storageSpaces accountId bucketName)
    (db.storageSpaceRolesByBucket userId accountId portalRole false bucketName) false

/-- The Storage Space is shared with everybody as viewers, and the user has a grant as editor on it. -/
def HiddenGrant (db : Database) (userId : ℕ) (metadata : StorageSpaceMetadata) : Prop :=
  metadata.sharing = .account .viewer ∧ db.storageSpaceGrants metadata.id userId = some .editor

theorem reviewed_role_owner (canManage : Bool) (grantRole : Option MemberRole)
    (howner : metadata.ownerUserId = some user.id) :
    (portalCollaboratorSpaceAccess metadata grantRole user.id portalRole canManage).map
      PortalCollaboratorStorageSpaceAccess.role = some .owner := by
  simp [portalCollaboratorSpaceAccess, howner]

theorem reviewed_role_manager (canManage : Bool) (grantRole : Option MemberRole)
    (howner : metadata.ownerUserId ≠ some user.id) :
    (portalCollaboratorSpaceAccess metadata grantRole user.id .portalManager canManage).map
      PortalCollaboratorStorageSpaceAccess.role = some .manager := by
  simp [portalCollaboratorSpaceAccess, howner]

/-- What the review reports for a member that is neither the owner nor a manager. -/
theorem reviewed_role_user (canManage : Bool) (grantRole : Option MemberRole)
    (howner : metadata.ownerUserId ≠ some user.id) :
    (portalCollaboratorSpaceAccess metadata grantRole user.id .portalUser canManage).map
      PortalCollaboratorStorageSpaceAccess.role =
        match metadata.sharing with
        | .ownerOnly _ => none
        | .restricted => grantRole.map MemberRole.toStorageSpaceRole
        | .account memberRole => some memberRole.toStorageSpaceRole := by
  unfold portalCollaboratorSpaceAccess
  rw [if_neg howner, if_neg (by decide)]
  cases hsharing : metadata.sharing with
  | ownerOnly owner => simp [StorageSpaceMetadata.shared, hsharing]
  | restricted =>
    simp [StorageSpaceMetadata.shared, StorageSpaceMetadata.accountScope, hsharing, Function.comp_def]
  | account memberRole =>
    simp [StorageSpaceMetadata.shared, StorageSpaceMetadata.accountScope,
      StorageSpaceMetadata.accountMemberRole, hsharing]

theorem memberRoleOn_owner (hspace : db.storageSpaces accountId metadata.bucketName = some metadata)
    (harchived : metadata.archived = false) (howner : metadata.ownerUserId = some user.id) :
    memberRoleOn db user.id accountId (some portalRole) metadata.bucketName = some .owner := by
  simp [memberRoleOn, Database.storageSpaceEffectiveRole, hspace, harchived, howner]

theorem memberRoleOn_manager (hspace : db.storageSpaces accountId metadata.bucketName = some metadata)
    (harchived : metadata.archived = false) (howner : metadata.ownerUserId ≠ some user.id) :
    memberRoleOn db user.id accountId (some .portalManager) metadata.bucketName = some .manager := by
  simp [memberRoleOn, Database.storageSpaceEffectiveRole, hspace, harchived, howner]

theorem memberRoleOn_user (hspace : db.storageSpaces accountId metadata.bucketName = some metadata)
    (harchived : metadata.archived = false) (howner : metadata.ownerUserId ≠ some user.id) :
    memberRoleOn db user.id accountId (some .portalUser) metadata.bucketName =
      match metadata.sharing with
      | .ownerOnly _ => none
      | .restricted =>
        (db.storageSpaceGrants metadata.id user.id).map MemberRole.toStorageSpaceRole
      | .account memberRole => bestStorageSpaceRole [some memberRole.toStorageSpaceRole,
          (db.storageSpaceGrants metadata.id user.id).map MemberRole.toStorageSpaceRole] := by
  cases hsharing : metadata.sharing with
  | ownerOnly owner =>
    simp [memberRoleOn, Database.storageSpaceEffectiveRole, hspace, harchived, howner,
      StorageSpaceMetadata.shared, hsharing]
  | restricted =>
    cases hgrant : db.storageSpaceGrants metadata.id user.id with
    | none =>
      simp [memberRoleOn, Database.storageSpaceEffectiveRole, Database.storageSpaceRolesByBucket, hspace,
        harchived, howner, StorageSpaceMetadata.shared, StorageSpaceMetadata.accountMemberRole, hsharing,
        hgrant, bestStorageSpaceRole]
    | some role =>
      simp [memberRoleOn, Database.storageSpaceEffectiveRole, Database.storageSpaceRolesByBucket, hspace,
        harchived, howner, StorageSpaceMetadata.shared, StorageSpaceMetadata.accountMemberRole, hsharing,
        hgrant, bestStorageSpaceRole]
  | account memberRole =>
    simp [memberRoleOn, Database.storageSpaceEffectiveRole, Database.storageSpaceRolesByBucket, hspace,
      harchived, howner, StorageSpaceMetadata.shared, StorageSpaceMetadata.accountMemberRole, hsharing]

theorem best_eq_memberRole_iff (memberRole : MemberRole) (grantRole : Option MemberRole) :
    bestStorageSpaceRole [some memberRole.toStorageSpaceRole, grantRole.map MemberRole.toStorageSpaceRole] =
        some memberRole.toStorageSpaceRole ↔ ¬(memberRole = .viewer ∧ grantRole = some .editor) := by
  cases memberRole <;> rcases grantRole with _ | _ | _ <;> decide

/-- For one project role, the review and the API agree unless a grant is hidden. -/
theorem reviewed_role_eq_iff (canManage : Bool)
    (hspace : db.storageSpaces accountId metadata.bucketName = some metadata)
    (harchived : metadata.archived = false) :
    (portalCollaboratorSpaceAccess metadata (db.storageSpaceGrants metadata.id user.id) user.id portalRole
        canManage).map PortalCollaboratorStorageSpaceAccess.role =
      memberRoleOn db user.id accountId (some portalRole) metadata.bucketName ↔
      portalRole = .portalManager ∨ ¬HiddenGrant db user.id metadata := by
  by_cases howner : metadata.ownerUserId = some user.id
  · rw [reviewed_role_owner canManage _ howner, memberRoleOn_owner hspace harchived howner]
    refine iff_of_true rfl (.inr ?_)
    rintro ⟨hsharing, -⟩
    simp [StorageSpaceMetadata.ownerUserId, hsharing] at howner
  · cases portalRole with
    | portalManager =>
      rw [reviewed_role_manager canManage _ howner, memberRoleOn_manager hspace harchived howner]
      exact iff_of_true rfl (.inl rfl)
    | portalUser =>
      rw [reviewed_role_user canManage _ howner, memberRoleOn_user hspace harchived howner]
      unfold HiddenGrant
      cases hsharing : metadata.sharing with
      | ownerOnly owner => simp
      | restricted => simp
      | account memberRole =>
        dsimp only
        rw [eq_comm, best_eq_memberRole_iff]
        simp

/-! ## The review of a member -/

theorem member_active (hmember : db.memberPortalRole user accountId = some portalRole) :
    user.isActive = true := by
  unfold Database.memberPortalRole at hmember
  split at hmember
  · assumption
  · cases hmember

theorem find_memberMap (huser : user ∈ db.users)
    (hmember : db.memberPortalRole user accountId = some portalRole) :
    (db.portalAccountMemberMap accountId).find? (fun entry => entry.1 = user.id) =
      some (user.id, portalRole) := by
  cases hfind : (db.portalAccountMemberMap accountId).find? (fun entry => entry.1 = user.id) with
  | none =>
    have hentry := (mem_memberMap_iff huser).mpr hmember
    exact absurd (decide_eq_true rfl) (List.find?_eq_none.mp hfind _ hentry)
  | some entry =>
    obtain ⟨userId, role⟩ := entry
    have hid : userId = user.id := by simpa using List.find?_some hfind
    subst hid
    have hrole := (mem_memberMap_iff huser).mp (List.mem_of_find?_eq_some hfind)
    rw [hmember] at hrole
    cases hrole
    rfl

/-- The project role of a member is at most its effective one. -/
theorem effectivePortalRole_of_member (hmember : db.memberPortalRole user accountId = some portalRole) :
    db.effectivePortalRole user accountId = some portalRole ∨
      portalRole = .portalUser ∧ db.effectivePortalRole user accountId = some .portalManager := by
  have hactive := member_active hmember
  cases portalRole with
  | portalManager =>
    have hstored := (memberPortalRole_eq_manager_iff hactive).mp hmember
    exact .inl (effectivePortalRole_eq_manager_iff.mpr (.inl hstored))
  | portalUser =>
    obtain ⟨role, hstored⟩ : ∃ role, StoredRole db user accountId role :=
      (memberPortalRole_isSome_iff hactive).mp (by rw [hmember]; rfl)
    have hsome : (db.effectivePortalRole user accountId).isSome = true :=
      (maxPortalAccountRole_isSome_iff _).mpr ⟨role, mem_effectiveRoles_iff.mpr (.inl hstored)⟩
    obtain ⟨role, hrole⟩ := Option.isSome_iff_exists.mp hsome
    cases role with
    | portalUser => exact .inl hrole
    | portalManager => exact .inr ⟨rfl, hrole⟩

/-- The review gives a mere member no manager's role. -/
theorem reviewed_role_ne_manager (canManage : Bool) (grantRole : Option MemberRole)
    (howner : metadata.ownerUserId ≠ some user.id) :
    (portalCollaboratorSpaceAccess metadata grantRole user.id .portalUser canManage).map
      PortalCollaboratorStorageSpaceAccess.role ≠ some .manager := by
  rw [reviewed_role_user canManage grantRole howner]
  cases metadata.sharing with
  | ownerOnly owner => nofun
  | restricted => rcases grantRole with _ | _ | _ <;> nofun
  | account memberRole => cases memberRole <;> nofun

/-- The review agrees with what the API lets the member do exactly if the member owns the Storage Space
or is a manager of the project, or the group of all users does not make it one and no grant is hidden. -/
theorem reviewed_role_eq_user_iff (canManage : Bool)
    (hmember : db.memberPortalRole user accountId = some portalRole)
    (hspace : db.storageSpaces accountId metadata.bucketName = some metadata)
    (harchived : metadata.archived = false) :
    (portalCollaboratorSpaceAccess metadata (db.storageSpaceGrants metadata.id user.id) user.id portalRole
        canManage).map PortalCollaboratorStorageSpaceAccess.role =
      db.userStorageSpaceRole user accountId metadata.bucketName false ↔
      metadata.ownerUserId = some user.id ∨ portalRole = .portalManager ∨
        db.effectivePortalRole user accountId ≠ some .portalManager ∧
          ¬HiddenGrant db user.id metadata := by
  show _ = memberRoleOn db user.id accountId (db.effectivePortalRole user accountId) _ ↔ _
  by_cases howner : metadata.ownerUserId = some user.id
  · refine iff_of_true ?_ (.inl howner)
    rw [reviewed_role_owner canManage _ howner]
    rcases effectivePortalRole_of_member hmember with heffective | ⟨-, heffective⟩ <;>
      rw [heffective, memberRoleOn_owner hspace harchived howner]
  · rcases effectivePortalRole_of_member hmember with heffective | ⟨rfl, heffective⟩
    · rw [heffective, reviewed_role_eq_iff canManage hspace harchived]
      cases portalRole with
      | portalManager => simp
      | portalUser => simp [howner]
    · rw [heffective, memberRoleOn_manager hspace harchived howner]
      refine iff_of_false (reviewed_role_ne_manager canManage _ howner) ?_
      simp [howner]

/-- The review of a member reports the role the API gives for the project role exactly if no grant is
hidden from it, and the role the member really has exactly if, besides, the group of all users does not
make it a manager. -/
theorem access_review_truthful_iff {userId : ℕ} (canManage : Bool) (huser : user ∈ db.users)
    (hmember : db.memberPortalRole user accountId = some portalRole)
    (hallowed : userId = user.id ∨ canManage = true)
    (hspace : db.storageSpaces accountId metadata.bucketName = some metadata)
    (harchived : metadata.archived = false) :
    ∃ review, db.getPortalCollaboratorAccessReview userId accountId canManage user.id = .ok review ∧
      ((review metadata.bucketName).map PortalCollaboratorStorageSpaceAccess.role =
          memberRoleOn db user.id accountId (some portalRole) metadata.bucketName ↔
        portalRole = .portalManager ∨ ¬HiddenGrant db user.id metadata) ∧
      ((review metadata.bucketName).map PortalCollaboratorStorageSpaceAccess.role =
          db.userStorageSpaceRole user accountId metadata.bucketName false ↔
        metadata.ownerUserId = some user.id ∨ portalRole = .portalManager ∨
          db.effectivePortalRole user accountId ≠ some .portalManager ∧
            ¬HiddenGrant db user.id metadata) := by
  have hreview : db.portalCollaboratorSpaceAccesses accountId user.id portalRole canManage
      metadata.bucketName = portalCollaboratorSpaceAccess metadata
        (db.storageSpaceGrants metadata.id user.id) user.id portalRole canManage := by
    simp [Database.portalCollaboratorSpaceAccesses, hspace, harchived]
  refine ⟨db.portalCollaboratorSpaceAccesses accountId user.id portalRole canManage, ?_, ?_, ?_⟩
  · have hok : ¬(userId ≠ user.id ∧ canManage = false) := by
      rintro ⟨hne, hmanage⟩
      rcases hallowed with hsame | hcan
      · exact hne hsame
      · rw [hmanage] at hcan
        cases hcan
    simp only [Database.getPortalCollaboratorAccessReview, find_memberMap huser hmember]
    rw [if_neg hok]
  · rw [hreview]
    exact reviewed_role_eq_iff canManage hspace harchived
  · rw [hreview]
    exact reviewed_role_eq_user_iff canManage hmember hspace harchived

theorem hasRole_portalUser :
    false = true ∨ (some PortalAccountRole.portalUser).isSome = true := .inr rfl

/-- A Storage Space open to all members as viewers, with a grant of user 7 as editor. -/
def grantedDatabase (grant : Option MemberRole) : Database :=
  { sharedDatabase (some ⟨false, some .portalUser, hasRole_portalUser⟩) none with
    storageSpaceGrants := fun _ _ => grant }

theorem access_review_truthful_iff_granted :
    ∃ review, (grantedDatabase (some .viewer)).getPortalCollaboratorAccessReview 7 3 false 7 =
        .ok review ∧
      (review "photos").map PortalCollaboratorStorageSpaceAccess.role =
        memberRoleOn (grantedDatabase (some .viewer)) 7 3 (some .portalUser) "photos" ∧
      (review "photos").map PortalCollaboratorStorageSpaceAccess.role =
        (grantedDatabase (some .viewer)).userStorageSpaceRole ⟨7, true, .uiUser⟩ 3 "photos" false := by
  have huser : (⟨7, true, .uiUser⟩ : User) ∈ (grantedDatabase (some .viewer)).users := by decide
  have hmember : (grantedDatabase (some .viewer)).memberPortalRole ⟨7, true, .uiUser⟩ 3 =
      some .portalUser := by decide
  have heffective : (grantedDatabase (some .viewer)).effectivePortalRole ⟨7, true, .uiUser⟩ 3 ≠
      some .portalManager := by decide
  have hspace : (grantedDatabase (some .viewer)).storageSpaces 3 "photos" =
      some ⟨5, "photos", .account .viewer, false⟩ := rfl
  have hgrant : ¬HiddenGrant (grantedDatabase (some .viewer)) 7
      ⟨5, "photos", .account .viewer, false⟩ := by
    rintro ⟨-, hgrant⟩
    cases hgrant
  obtain ⟨review, hreview, hmemberRole, huserRole⟩ :=
    access_review_truthful_iff false huser hmember (.inl rfl) hspace rfl
  exact ⟨review, hreview, hmemberRole.mpr (.inr hgrant),
    huserRole.mpr (.inr (.inr ⟨heffective, hgrant⟩))⟩

/-- The member is an editor, and the review reports a viewer. -/
theorem access_review_hides_grant :
    ∃ (db : Database) (user : User) (metadata : StorageSpaceMetadata),
      user ∈ db.users ∧ db.memberPortalRole user 3 = some .portalUser ∧
        db.effectivePortalRole user 3 = some .portalUser ∧
        db.storageSpaces 3 metadata.bucketName = some metadata ∧ metadata.archived = false ∧
        (db.portalCollaboratorSpaceAccesses 3 user.id .portalUser false metadata.bucketName).map
            PortalCollaboratorStorageSpaceAccess.role = some .viewer ∧
        memberRoleOn db user.id 3 (some .portalUser) metadata.bucketName = some .editor ∧
        db.userStorageSpaceRole user 3 metadata.bucketName false = some .editor := by
  refine ⟨grantedDatabase (some .editor), ⟨7, true, .uiUser⟩,
    ⟨5, "photos", .account .viewer, false⟩, ?_⟩
  decide

end Portal
end BucketReef

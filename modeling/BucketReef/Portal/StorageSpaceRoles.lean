import BucketReef.Portal.EffectiveAccess

/-!
# Who has access to a Storage Space

The API decides from the effective Portal role of a user whether a Storage Space is open to it. The
bucket policy and the access count decide from `_portal_account_member_map`, which knows nothing of the
group of all users.
-/

namespace BucketReef
namespace Portal

inductive StorageSpaceRole
  | viewer | editor | owner | manager
  deriving DecidableEq, Repr

/-- `_role_precedence` -/
def StorageSpaceRole.precedence : StorageSpaceRole → ℕ
  | .viewer => 1
  | .editor => 2
  | .owner => 3
  | .manager => 4

def MemberRole.toStorageSpaceRole : MemberRole → StorageSpaceRole
  | .viewer => .viewer
  | .editor => .editor

def bestStorageSpaceRole (roles : List (Option StorageSpaceRole)) : Option StorageSpaceRole :=
  roles.foldl (fun best role =>
    match best, role with
    | best, none => best
    | none, some role => some role
    | some best, some role => some (if best.precedence < role.precedence then role else best)) none

namespace Database

/-- `_storage_space_effective_role`, for the Portal role of the user's access. -/
def storageSpaceEffectiveRole (userId : ℕ) (portalRole : Option PortalAccountRole)
    (metadata : Option StorageSpaceMetadata) (role : Option StorageSpaceRole)
    (includeArchived : Bool) : Option StorageSpaceRole :=
  match metadata with
  | none => none
  | some metadata =>
    if metadata.archived = true ∧ includeArchived = false then none
    else if metadata.ownerUserId = some userId then some .owner
    else if portalRole = some .portalManager then some .manager
    else if metadata.archived then
      if includeArchived = true ∧ (role = some .owner ∨ role = some .manager) then role else none
    else if metadata.shared then role
    else none

/-- The entry of a bucket in `_storage_space_roles_by_bucket`. -/
def storageSpaceRolesByBucket (db : Database) (targetId accountId : ℕ)
    (portalRole : Option PortalAccountRole) (includeArchived : Bool) (bucketName : String) :
    Option StorageSpaceRole :=
  match portalRole, db.storageSpaces accountId bucketName with
  | none, _ | _, none => none
  | some portalRole, some metadata =>
    if metadata.archived = true ∧ includeArchived = false then none
    else if portalRole = .portalManager then some .manager
    else if metadata.ownerUserId = some targetId then some .owner
    else if metadata.shared then
      bestStorageSpaceRole
        [metadata.accountMemberRole.map MemberRole.toStorageSpaceRole,
          (db.storageSpaceGrants metadata.id targetId).map MemberRole.toStorageSpaceRole]
    else none

/-- `_user_storage_space_role`: what the API grants the user on a bucket. -/
def userStorageSpaceRole (db : Database) (user : User) (accountId : ℕ) (bucketName : String)
    (includeArchived : Bool) : Option StorageSpaceRole :=
  let portalRole := db.effectivePortalRole user accountId
  storageSpaceEffectiveRole user.id portalRole (db.storageSpaces accountId bucketName)
    (db.storageSpaceRolesByBucket user.id accountId portalRole includeArchived bucketName)
    includeArchived

/-- The users with a grant on the Storage Space. -/
def grantUserIds (db : Database) (metadata : StorageSpaceMetadata) : List ℕ :=
  (db.users.map User.id).filter fun userId => (db.storageSpaceGrants metadata.id userId).isSome

def membersWith (db : Database) (accountId : ℕ) (role : PortalAccountRole) : List ℕ :=
  (db.portalAccountMemberMap accountId).filterMap fun entry =>
    if entry.2 = role then some entry.1 else none

/-- `_portal_storage_space_allowed_user_ids`: who is exempted from the bucket Deny. -/
def portalStorageSpaceAllowedUserIds (db : Database) (accountId : ℕ) (metadata : StorageSpaceMetadata) :
    List ℕ :=
  if metadata.archived then []
  else
    let allowed := db.membersWith accountId .portalManager ++ metadata.ownerUserId.toList
    if metadata.shared = false then allowed
    else if metadata.accountScope then
      allowed ++ (db.portalAccountMemberMap accountId).map Prod.fst
    else allowed ++ db.grantUserIds metadata

/-- `_storage_space_effective_access_user_ids`: whom the access count includes. -/
def storageSpaceEffectiveAccessUserIds (db : Database) (accountId : ℕ)
    (metadata : StorageSpaceMetadata) : List ℕ :=
  if metadata.archived then []
  else
    let users := metadata.ownerUserId.toList ++ db.membersWith accountId .portalManager
    if metadata.shared = false then users
    else if metadata.accountScope then users ++ db.membersWith accountId .portalUser
    else users ++ db.grantUserIds metadata

end Database

/-! ## Stored and implied roles -/

/-- A stored link gives the user the role: its own, or one of a group it is stored as a member of. -/
def StoredRole (db : Database) (user : User) (accountId : ℕ) (role : PortalAccountRole) : Prop :=
  db.directPortalRole user.id accountId = some role ∨
    ∃ group ∈ db.uiGroups, db.userUiGroups user.id group.id = true ∧
      ∃ link, db.uiGroupS3Accounts group.id accountId = some link ∧ link.portalRole = some role

/-- The group of all users gives the user the role. -/
def ImpliedRole (db : Database) (user : User) (accountId : ℕ) (role : PortalAccountRole) : Prop :=
  user.id ∈ Database.eligibleUserIds [user] ∧ ∃ group, db.allUsersGroup = some group ∧
    ∃ link, db.uiGroupS3Accounts group.id accountId = some link ∧ link.portalRole = some role

variable {db : Database} {user : User} {accountId : ℕ} {role : PortalAccountRole}

theorem mem_memberRoles_iff :
    some role ∈ db.directPortalRole user.id accountId :: db.memberGroupRoles user.id accountId ↔
      StoredRole db user accountId role := by
  rw [List.mem_cons, Database.memberGroupRoles, List.mem_filterMap]
  unfold StoredRole
  refine or_congr eq_comm (exists_congr fun group => and_congr_right fun _ => ?_)
  by_cases hmember : db.userUiGroups user.id group.id = true
  · rw [if_pos hmember, Option.map_eq_some_iff]
    exact ⟨fun h => ⟨hmember, h⟩, fun h => h.2⟩
  · rw [if_neg hmember]
    exact ⟨nofun, fun h => absurd h.1 hmember⟩

theorem memberPortalRole_eq_manager_iff (hactive : user.isActive = true) :
    db.memberPortalRole user accountId = some .portalManager ↔
      StoredRole db user accountId .portalManager := by
  rw [Database.memberPortalRole, if_pos hactive, maxPortalAccountRole_eq_manager_iff,
    mem_memberRoles_iff]

theorem memberPortalRole_isSome_iff (hactive : user.isActive = true) :
    (db.memberPortalRole user accountId).isSome = true ↔ ∃ role, StoredRole db user accountId role := by
  rw [Database.memberPortalRole, if_pos hactive, maxPortalAccountRole_isSome_iff]
  exact exists_congr fun role => mem_memberRoles_iff

/-- Whom the loader counts as a member of a group, when it resolves one user. -/
theorem mem_userIdsByGroup_iff {groupId : ℕ} :
    user.id ∈ db.userIdsByGroup [user] groupId ↔ db.userUiGroups user.id groupId = true ∨
      (user.id ∈ Database.eligibleUserIds [user] ∧
        ∃ group, db.allUsersGroup = some group ∧ groupId = group.id) := by
  have hexplicit : user.id ∈ ([user].map User.id).filter (fun userId => db.userUiGroups userId groupId) ↔
      db.userUiGroups user.id groupId = true := by
    simp
  have heligible : Database.eligibleUserIds [user] ≠ [] ↔ user.id ∈ Database.eligibleUserIds [user] := by
    simp only [Database.eligibleUserIds, List.filter_cons, List.filter_nil]
    split <;> simp
  unfold Database.userIdsByGroup
  dsimp only
  cases hgroup : db.allUsersGroup with
  | none => simp
  | some group =>
    dsimp only
    by_cases hsame : groupId = group.id ∧ Database.eligibleUserIds [user] ≠ []
    · have hmem := heligible.mp hsame.2
      rw [if_pos hsame]
      exact ⟨fun _ => .inr ⟨hmem, group, rfl, hsame.1⟩, fun _ => hmem⟩
    · rw [if_neg hsame, hexplicit]
      refine ⟨.inl, fun h => h.resolve_right ?_⟩
      rintro ⟨hmem, group', hgroup', hid⟩
      cases hgroup'
      exact hsame ⟨hid, heligible.mpr hmem⟩

theorem mem_effectiveRoles_iff :
    some role ∈ db.directPortalRole user.id accountId :: db.groupPortalRoles [user] user.id accountId ↔
      StoredRole db user accountId role ∨ ImpliedRole db user accountId role := by
  have hmember (group : UiGroup) : (if user.id ∈ db.userIdsByGroup [user] group.id then
      (db.uiGroupS3Accounts group.id accountId).map AccountLink.portalRole else none) =
        some (some role) ↔ user.id ∈ db.userIdsByGroup [user] group.id ∧
          ∃ link, db.uiGroupS3Accounts group.id accountId = some link ∧ link.portalRole = some role := by
    by_cases h : user.id ∈ db.userIdsByGroup [user] group.id
    · rw [if_pos h, Option.map_eq_some_iff]
      exact ⟨fun hlink => ⟨h, hlink⟩, fun hlink => hlink.2⟩
    · rw [if_neg h]
      exact ⟨nofun, fun hlink => absurd hlink.1 h⟩
  rw [List.mem_cons, Database.groupPortalRoles, List.mem_filterMap]
  simp only [hmember]
  simp only [mem_userIdsByGroup_iff]
  constructor
  · rintro (hdirect | ⟨group, hgroup, hcounted | ⟨heligible, all, hall, hid⟩, hlink⟩)
    · exact .inl (.inl hdirect.symm)
    · exact .inl (.inr ⟨group, hgroup, hcounted, hlink⟩)
    · exact .inr ⟨heligible, all, hall, hid ▸ hlink⟩
  · rintro ((hdirect | ⟨group, hgroup, hcounted, hlink⟩) | ⟨heligible, all, hall, hlink⟩)
    · exact .inl hdirect.symm
    · exact .inr ⟨group, hgroup, .inl hcounted, hlink⟩
    · exact .inr ⟨all, List.mem_of_find?_eq_some hall, .inr ⟨heligible, all, hall, rfl⟩, hlink⟩

theorem effectivePortalRole_eq_manager_iff :
    db.effectivePortalRole user accountId = some .portalManager ↔
      StoredRole db user accountId .portalManager ∨ ImpliedRole db user accountId .portalManager := by
  rw [Database.effectivePortalRole, Database.resolveUsers, maxPortalAccountRole_eq_manager_iff,
    mem_effectiveRoles_iff]

/-! ## Who is allowed -/

theorem mem_memberMap_iff (huser : user ∈ db.users) :
    (user.id, role) ∈ db.portalAccountMemberMap accountId ↔
      db.memberPortalRole user accountId = some role := by
  rw [Database.portalAccountMemberMap, List.mem_filterMap]
  constructor
  · rintro ⟨user', huser', h⟩
    obtain ⟨role', hrole', heq⟩ := Option.map_eq_some_iff.mp h
    obtain ⟨hid, rfl⟩ := Prod.mk.injEq .. ▸ heq
    rw [← db.user_eq huser' huser hid]
    exact hrole'
  · intro h
    exact ⟨user, huser, by rw [h]; rfl⟩

theorem mem_membersWith_iff {userId : ℕ} :
    userId ∈ db.membersWith accountId role ↔ (userId, role) ∈ db.portalAccountMemberMap accountId := by
  rw [Database.membersWith, List.mem_filterMap]
  constructor
  · rintro ⟨⟨userId', role'⟩, hentry, h⟩
    split at h
    · rename_i hrole
      cases h
      exact hrole ▸ hentry
    · cases h
  · intro hentry
    exact ⟨(userId, role), hentry, if_pos rfl⟩

theorem mem_membersWith_user_iff (huser : user ∈ db.users) :
    user.id ∈ db.membersWith accountId role ↔ db.memberPortalRole user accountId = some role := by
  rw [mem_membersWith_iff, mem_memberMap_iff huser]

theorem mem_memberMap_keys_iff {userId : ℕ} :
    userId ∈ (db.portalAccountMemberMap accountId).map Prod.fst ↔
      userId ∈ db.membersWith accountId .portalManager ∨
        userId ∈ db.membersWith accountId .portalUser := by
  simp only [mem_membersWith_iff, List.mem_map, Prod.exists, exists_and_right, exists_eq_right]
  constructor
  · rintro ⟨role, h⟩
    cases role with
    | portalUser => exact .inr h
    | portalManager => exact .inl h
  · rintro (h | h)
    · exact ⟨_, h⟩
    · exact ⟨_, h⟩

variable {metadata : StorageSpaceMetadata}

/-- The access count and the bucket policy agree, whatever the rows are. -/
theorem mem_effectiveAccess_iff {userId : ℕ} :
    userId ∈ db.storageSpaceEffectiveAccessUserIds accountId metadata ↔
      userId ∈ db.portalStorageSpaceAllowedUserIds accountId metadata := by
  unfold Database.storageSpaceEffectiveAccessUserIds Database.portalStorageSpaceAllowedUserIds
  split
  · exact Iff.rfl
  · dsimp only
    split
    · rw [List.mem_append, List.mem_append]
      exact or_comm
    · split
      · simp only [List.mem_append, mem_memberMap_keys_iff]
        constructor
        · rintro ((howner | hmanager) | hmember)
          · exact .inl (.inr howner)
          · exact .inl (.inl hmanager)
          · exact .inr (.inr hmember)
        · rintro ((hmanager | howner) | hmanager | hmember)
          · exact .inl (.inr hmanager)
          · exact .inl (.inl howner)
          · exact .inl (.inr hmanager)
          · exact .inr hmember
      · simp only [List.mem_append]
        exact or_congr_left or_comm

theorem mem_grantUserIds_iff (huser : user ∈ db.users) :
    user.id ∈ db.grantUserIds metadata ↔ (db.storageSpaceGrants metadata.id user.id).isSome = true := by
  rw [Database.grantUserIds, List.mem_filter]
  exact ⟨And.right, fun h => ⟨List.mem_map_of_mem huser, h⟩⟩

/-- Who is exempted from the Deny, by the sharing of the Storage Space. -/
theorem mem_allowed_iff (huser : user ∈ db.users) (hactive : user.isActive = true)
    (harchived : metadata.archived = false) :
    user.id ∈ db.portalStorageSpaceAllowedUserIds accountId metadata ↔
      match metadata.sharing with
      | .ownerOnly owner => owner = user.id ∨ StoredRole db user accountId .portalManager
      | .restricted => (db.storageSpaceGrants metadata.id user.id).isSome = true ∨
          StoredRole db user accountId .portalManager
      | .account _ => ∃ role, StoredRole db user accountId role := by
  have hmanager : user.id ∈ db.membersWith accountId .portalManager ↔
      StoredRole db user accountId .portalManager := by
    rw [mem_membersWith_user_iff huser, memberPortalRole_eq_manager_iff hactive]
  have hmember : user.id ∈ (db.portalAccountMemberMap accountId).map Prod.fst ↔
      ∃ role, StoredRole db user accountId role := by
    rw [← memberPortalRole_isSome_iff hactive, mem_memberMap_keys_iff, mem_membersWith_user_iff huser,
      mem_membersWith_user_iff huser, Option.isSome_iff_exists]
    constructor
    · rintro (h | h)
      · exact ⟨_, h⟩
      · exact ⟨_, h⟩
    · rintro ⟨role, h⟩
      cases role with
      | portalUser => exact .inr h
      | portalManager => exact .inl h
  unfold Database.portalStorageSpaceAllowedUserIds
  rw [if_neg (by rw [harchived]; simp)]
  cases hsharing : metadata.sharing with
  | ownerOnly owner =>
    simp only [StorageSpaceMetadata.shared, StorageSpaceMetadata.ownerUserId, hsharing, if_true,
      List.mem_append, Option.toList_some, List.mem_singleton, hmanager]
    rw [or_comm, eq_comm]
  | restricted =>
    simp only [StorageSpaceMetadata.shared, StorageSpaceMetadata.ownerUserId,
      StorageSpaceMetadata.accountScope, hsharing, Bool.true_eq_false, Bool.false_eq_true, if_false,
      Option.toList_none, List.append_nil, List.mem_append, hmanager, mem_grantUserIds_iff huser]
    exact or_comm
  | account memberRole =>
    simp only [StorageSpaceMetadata.shared, StorageSpaceMetadata.ownerUserId,
      StorageSpaceMetadata.accountScope, hsharing, Bool.true_eq_false, if_true, if_false,
      Option.toList_none, List.append_nil, List.mem_append, hmanager, hmember]
    exact ⟨fun h => h.elim (fun h => ⟨_, h⟩) id, .inr⟩

theorem bestStorageSpaceRole_isSome_iff (role role' : Option StorageSpaceRole) :
    (bestStorageSpaceRole [role, role']).isSome = true ↔ role.isSome = true ∨ role'.isSome = true := by
  cases role with
  | none => cases role' <;> simp [bestStorageSpaceRole]
  | some role => cases role' <;> simp [bestStorageSpaceRole]

/-- To whom the API opens the Storage Space, by its sharing. -/
theorem userStorageSpaceRole_isSome_iff
    (hspace : db.storageSpaces accountId metadata.bucketName = some metadata)
    (harchived : metadata.archived = false) (hrole : db.effectivePortalRole user accountId ≠ none) :
    (db.userStorageSpaceRole user accountId metadata.bucketName false).isSome = true ↔
      match metadata.sharing with
      | .ownerOnly owner => owner = user.id ∨
          db.effectivePortalRole user accountId = some .portalManager
      | .restricted => (db.storageSpaceGrants metadata.id user.id).isSome = true ∨
          db.effectivePortalRole user accountId = some .portalManager
      | .account _ => True := by
  obtain ⟨role, hrole⟩ := Option.ne_none_iff_exists'.mp hrole
  simp only [Database.userStorageSpaceRole, Database.storageSpaceRolesByBucket,
    Database.storageSpaceEffectiveRole, hspace, hrole, harchived]
  cases hsharing : metadata.sharing with
  | ownerOnly owner =>
    by_cases howner : owner = user.id
    · simp [StorageSpaceMetadata.ownerUserId, hsharing, howner]
    · cases role with
      | portalUser => simp [StorageSpaceMetadata.ownerUserId, StorageSpaceMetadata.shared, hsharing, howner]
      | portalManager => simp [StorageSpaceMetadata.ownerUserId, hsharing, howner]
  | restricted =>
    cases role with
    | portalUser =>
      simp [StorageSpaceMetadata.ownerUserId, StorageSpaceMetadata.shared,
        StorageSpaceMetadata.accountMemberRole, hsharing, bestStorageSpaceRole_isSome_iff]
    | portalManager => simp [StorageSpaceMetadata.ownerUserId, hsharing]
  | account memberRole =>
    cases role with
    | portalUser =>
      simp [StorageSpaceMetadata.ownerUserId, StorageSpaceMetadata.shared,
        StorageSpaceMetadata.accountMemberRole, hsharing, bestStorageSpaceRole_isSome_iff]
    | portalManager => simp [StorageSpaceMetadata.ownerUserId, hsharing]

/-- The group of all users makes no difference to what the user may do here. -/
def Settled (db : Database) (user : User) (accountId : ℕ) (metadata : StorageSpaceMetadata) : Prop :=
  let manager := ImpliedRole db user accountId .portalManager → StoredRole db user accountId .portalManager
  match metadata.sharing with
  | .ownerOnly owner => owner = user.id ∨ manager
  | .restricted => (db.storageSpaceGrants metadata.id user.id).isSome = true ∨ manager
  | .account _ => ∃ role, StoredRole db user accountId role

/-- The bucket policy, the access count and the API agree on the user. -/
def PolicyAgrees (db : Database) (user : User) (accountId : ℕ) (metadata : StorageSpaceMetadata) :
    Prop :=
  (user.id ∈ db.portalStorageSpaceAllowedUserIds accountId metadata ↔
      (db.userStorageSpaceRole user accountId metadata.bucketName false).isSome = true) ∧
    ∀ userId, userId ∈ db.storageSpaceEffectiveAccessUserIds accountId metadata ↔
      userId ∈ db.portalStorageSpaceAllowedUserIds accountId metadata

theorem or_iff_or_or_iff {p a b : Prop} : (p ∨ a ↔ p ∨ a ∨ b) ↔ p ∨ (b → a) := by
  by_cases hp : p
  · simp [hp]
  · by_cases ha : a
    · simp [ha]
    · simp [hp, ha]

/-- They agree exactly where the group of all users makes no difference. -/
theorem policyAgrees_iff (huser : user ∈ db.users) (hactive : user.isActive = true)
    (hrole : db.effectivePortalRole user accountId ≠ none)
    (hspace : db.storageSpaces accountId metadata.bucketName = some metadata)
    (harchived : metadata.archived = false) :
    PolicyAgrees db user accountId metadata ↔ Settled db user accountId metadata := by
  unfold PolicyAgrees Settled
  rw [mem_allowed_iff huser hactive harchived, userStorageSpaceRole_isSome_iff hspace harchived hrole,
    and_iff_left fun _ => mem_effectiveAccess_iff, effectivePortalRole_eq_manager_iff]
  cases metadata.sharing with
  | ownerOnly owner => exact or_iff_or_or_iff
  | restricted => exact or_iff_or_or_iff
  | account memberRole => exact ⟨fun h => h.mpr trivial, fun h => iff_of_true h trivial⟩

/-- One user, the group of all users, and a Storage Space shared with a whole account. -/
def sharedDatabase (userLink groupLink : Option AccountLink) : Database where
  users := [⟨7, true, .uiUser⟩]
  distinctUsers := by decide
  uiGroups := [⟨1, "All users", true⟩]
  userS3Accounts _ _ := userLink
  uiGroupS3Accounts _ _ := groupLink
  storageSpaces _ _ := some ⟨5, "photos", .account .viewer, false⟩
  accountIamUsers _ _ := some ⟨"arn:aws:iam::RGW3:user/portal-7", some "portal-7", none⟩

theorem policyAgrees_iff_linked :
    PolicyAgrees (sharedDatabase (some { portalRole := some .portalUser }) none) ⟨7, true, .uiUser⟩ 3
      ⟨5, "photos", .account .viewer, false⟩ :=
  (policyAgrees_iff (by decide) rfl (by decide) rfl rfl).mpr ⟨.portalUser, .inl rfl⟩

/-- A user of the group of all users may open a Storage Space whose bucket policy denies it. -/
theorem denied_by_policy : ∃ (db : Database) (user : User) (metadata : StorageSpaceMetadata),
    user ∈ db.users ∧ user.isActive = true ∧ db.effectivePortalRole user 3 ≠ none ∧
      db.accountIamUsers user.id 3 ≠ none ∧
        db.storageSpaces 3 metadata.bucketName = some metadata ∧ metadata.archived = false ∧
          user.id ∉ db.portalStorageSpaceAllowedUserIds 3 metadata ∧
            db.userStorageSpaceRole user 3 metadata.bucketName false = some .viewer := by
  refine ⟨sharedDatabase none (some { portalRole := some .portalUser }), ⟨7, true, .uiUser⟩,
    ⟨5, "photos", .account .viewer, false⟩, ?_⟩
  decide

end Portal
end BucketReef

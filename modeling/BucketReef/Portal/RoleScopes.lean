import BucketReef.Portal.RoleMutations
import Mathlib.Data.List.Find

/-!
# The pairs a mutation misses

Outside the pairs a mutation captures, no stored link gives another role than before. What it can miss
is the role the group of all users gives: to a user who becomes eligible or stops to be, and through the
links of that group to everybody who is not stored as a member.
-/

namespace BucketReef
namespace RoleSync

open Portal

/-! ## The highest of a stored and an implied role -/

theorem role_ext {x y : Option PortalAccountRole}
    (hmanager : x = some .portalManager ↔ y = some .portalManager) (hsome : x.isSome = y.isSome) : x = y := by
  rcases x with _ | _ | _ <;> rcases y with _ | _ | _ <;> simp at hmanager hsome ⊢

theorem maxPortalAccountRole_congr {roles roles' : List (Option PortalAccountRole)}
    (h : ∀ role, some role ∈ roles ↔ some role ∈ roles') :
    maxPortalAccountRole roles = maxPortalAccountRole roles' := by
  refine role_ext ?_ ?_
  · rw [maxPortalAccountRole_eq_manager_iff, maxPortalAccountRole_eq_manager_iff]
    exact h _
  · rw [Bool.eq_iff_iff, maxPortalAccountRole_isSome_iff, maxPortalAccountRole_isSome_iff]
    exact exists_congr h

/-- The role the stored links of a user give it. -/
def storedPortalRole (db : Database) (userId accountId : ℕ) : Option PortalAccountRole :=
  maxPortalAccountRole (db.directPortalRole userId accountId :: db.memberGroupRoles userId accountId)

/-- The role on an account that the group of all users is linked with. -/
def allUsersPortalRole (db : Database) (accountId : ℕ) : Option PortalAccountRole :=
  db.allUsersGroup.bind fun group => (db.uiGroupS3Accounts group.id accountId).bind AccountLink.portalRole

/-- The role the group of all users gives a user. -/
def impliedPortalRole (db : Database) (user : User) (accountId : ℕ) : Option PortalAccountRole :=
  if eligible user then allUsersPortalRole db accountId else none

theorem mem_eligibleUserIds_iff {user : User} :
    user.id ∈ Database.eligibleUserIds [user] ↔ eligible user = true := by
  obtain ⟨id, isActive, role⟩ := user
  cases isActive <;> cases role <;> simp [Database.eligibleUserIds, eligible]

theorem impliedPortalRole_eq_some_iff {db : Database} {user : User} {accountId : ℕ}
    {role : PortalAccountRole} :
    impliedPortalRole db user accountId = some role ↔ ImpliedRole db user accountId role := by
  unfold impliedPortalRole ImpliedRole allUsersPortalRole
  rw [mem_eligibleUserIds_iff]
  by_cases heligible : eligible user = true
  · simp only [heligible, if_true, true_and, Option.bind_eq_some_iff]
  · simp only [heligible, if_false, false_and, reduceCtorEq, Bool.false_eq_true]

/-- The effective role is the highest of the stored and the implied one. -/
theorem effectivePortalRole_eq (db : Database) (user : User) (accountId : ℕ) :
    db.effectivePortalRole user accountId = maxPortalAccountRole
      [storedPortalRole db user.id accountId, impliedPortalRole db user accountId] := by
  have hmem (role : PortalAccountRole) :
      some role ∈ [storedPortalRole db user.id accountId, impliedPortalRole db user accountId] ↔
        storedPortalRole db user.id accountId = some role ∨ ImpliedRole db user accountId role := by
    rw [List.mem_pair, ← impliedPortalRole_eq_some_iff]
    exact or_congr eq_comm eq_comm
  refine role_ext ?_ ?_
  · rw [effectivePortalRole_eq_manager_iff, maxPortalAccountRole_eq_manager_iff, hmem]
    rw [storedPortalRole, maxPortalAccountRole_eq_manager_iff, mem_memberRoles_iff]
  · rw [Bool.eq_iff_iff, Database.effectivePortalRole, Database.resolveUsers,
      maxPortalAccountRole_isSome_iff, maxPortalAccountRole_isSome_iff]
    simp only [mem_effectiveRoles_iff, hmem, exists_or]
    refine or_congr_left ?_
    rw [← Option.isSome_iff_exists, storedPortalRole, maxPortalAccountRole_isSome_iff]
    exact exists_congr fun role => mem_memberRoles_iff.symm

/-- When another implied role makes no difference: both are covered by the stored one. -/
theorem maxPortalAccountRole_eq_iff (stored implied implied' : Option PortalAccountRole) :
    maxPortalAccountRole [stored, implied'] = maxPortalAccountRole [stored, implied] ↔
      implied' = implied ∨ (portalAccountRoleRank implied ≤ portalAccountRoleRank stored ∧
        portalAccountRoleRank implied' ≤ portalAccountRoleRank stored) := by
  rcases stored with _ | _ | _ <;> rcases implied with _ | _ | _ <;>
    rcases implied' with _ | _ | _ <;> decide

theorem storedPortalRole_congr {db db' : Database} {userId accountId : ℕ}
    (hdirect : db'.directPortalRole userId accountId = db.directPortalRole userId accountId)
    (hgroups : ∀ role, some role ∈ db'.memberGroupRoles userId accountId ↔
      some role ∈ db.memberGroupRoles userId accountId) :
    storedPortalRole db' userId accountId = storedPortalRole db userId accountId := by
  refine maxPortalAccountRole_congr fun role => ?_
  rw [List.mem_cons, List.mem_cons, hdirect]
  exact or_congr_right (hgroups role)

/-- A role from a group the user is stored as a member of. -/
theorem mem_memberGroupRoles_iff {db : Database} {userId accountId : ℕ} {role : PortalAccountRole} :
    some role ∈ db.memberGroupRoles userId accountId ↔
      ∃ group ∈ db.uiGroups, db.userUiGroups userId group.id = true ∧
        (db.uiGroupS3Accounts group.id accountId).bind AccountLink.portalRole = some role := by
  rw [Database.memberGroupRoles, List.mem_filterMap]
  refine exists_congr fun group => and_congr_right fun _ => ?_
  by_cases hmember : db.userUiGroups userId group.id = true
  · rw [if_pos hmember, Option.map_eq_some_iff, Option.bind_eq_some_iff]
    exact ⟨fun h => ⟨hmember, h⟩, And.right⟩
  · rw [if_neg hmember]
    exact ⟨by rintro ⟨⟩, fun h => absurd h.1 hmember⟩

/-! ## Captured roles -/

/-- A pair with the same stored role keeps its captured role exactly when the implied one may change. -/
theorem capturedPortalRole_eq_iff {db db' : Database} {user user' : User} {accountId : ℕ}
    (hactive : user'.isActive = user.isActive)
    (hstored : storedPortalRole db' user'.id accountId = storedPortalRole db user.id accountId) :
    capturedPortalRole db' user' accountId = capturedPortalRole db user accountId ↔
      (user.isActive = true →
        impliedPortalRole db' user' accountId = impliedPortalRole db user accountId ∨
          (portalAccountRoleRank (impliedPortalRole db user accountId) ≤
              portalAccountRoleRank (storedPortalRole db user.id accountId) ∧
            portalAccountRoleRank (impliedPortalRole db' user' accountId) ≤
              portalAccountRoleRank (storedPortalRole db user.id accountId))) := by
  unfold capturedPortalRole
  rw [hactive]
  by_cases h : user.isActive = true
  · rw [if_pos h, if_pos h, effectivePortalRole_eq, effectivePortalRole_eq, hstored,
      maxPortalAccountRole_eq_iff]
    exact ⟨fun hroles _ => hroles, fun hroles => hroles h⟩
  · rw [if_neg h, if_neg h]
    exact ⟨fun _ hactive => absurd hactive h, fun _ => rfl⟩

theorem capturedPortalRole_congr {db db' : Database} {user user' : User} {accountId : ℕ}
    (hactive : user'.isActive = user.isActive)
    (hstored : storedPortalRole db' user'.id accountId = storedPortalRole db user.id accountId)
    (himplied : impliedPortalRole db' user' accountId = impliedPortalRole db user accountId) :
    capturedPortalRole db' user' accountId = capturedPortalRole db user accountId :=
  (capturedPortalRole_eq_iff hactive hstored).mpr fun _ => .inl himplied

/-- The captured roles outside the scope of a plan are those from before. -/
def RolesKeptOutside (t : Tables) (plan : Plan) : Prop :=
  ∀ user ∈ t.database.users, ∀ user' ∈ plan.tables.database.users, user'.id = user.id →
    ∀ accountId ∈ t.s3Accounts, ¬ plan.scope (user.id, accountId) →
      capturedPortalRole plan.tables.database user' accountId = capturedPortalRole t.database user accountId

/-- No role of the group of all users escapes the pairs a mutation captures. -/
def Mutation.Covered (t : Tables) : Mutation → Prop
  | .assignAccount userId account _ _ =>
    ∀ user ∈ t.database.users, user.id = userId → user.isActive = true → user.role = .uiNone →
      ∀ accountId ∈ t.s3Accounts, accountId ≠ account →
        portalAccountRoleRank (allUsersPortalRole t.database accountId) ≤
          portalAccountRoleRank (storedPortalRole t.database user.id accountId)
  | .updateUser userId payload =>
    ∀ user ∈ t.database.users, user.id = userId → eligible (payload.apply user) ≠ eligible user →
      ∀ accountId ∈ t.s3Accounts, accountId ∉ t.capturedAccountIds user payload →
        portalAccountRoleRank (allUsersPortalRole t.database accountId) ≤
          portalAccountRoleRank (storedPortalRole t.database user.id accountId)
  | .updateGroup groupId payload =>
    ∀ group links, t.database.allUsersGroup = some group → group.id = groupId →
      payload.accountLinks = some links →
      ∀ user ∈ t.database.users, eligible user = true → t.database.userUiGroups user.id groupId = false →
        ∀ accountId ∈ t.s3Accounts,
          (desiredLink links accountId).bind AccountLink.portalRole =
              allUsersPortalRole t.database accountId ∨
            (portalAccountRoleRank (allUsersPortalRole t.database accountId) ≤
                portalAccountRoleRank (storedPortalRole t.database user.id accountId) ∧
              portalAccountRoleRank ((desiredLink links accountId).bind AccountLink.portalRole) ≤
                portalAccountRoleRank (storedPortalRole t.database user.id accountId))
  | .createGroup _ _ | .deleteGroup _ => True

/-! ## Users -/

theorem mem_modifyUser {t : Tables} {userId : ℕ} {change : User → User}
    {hid : ∀ user, (change user).id = user.id} {user user' : User} (huser : user ∈ t.database.users)
    (huser' : user' ∈ (t.modifyUser userId change hid).database.users) (hsame : user'.id = user.id) :
    user' = if user.id = userId then change user else user := by
  obtain ⟨old, hold, rfl⟩ := List.mem_map.mp huser'
  have holdId : old.id = user.id := by
    rw [← hsame]
    split
    · rw [hid]
    · rfl
  rw [t.database.user_eq hold huser holdId]

theorem user_mem {t : Tables} {userId : ℕ} {found : User} (hfound : t.user userId = some found) :
    found ∈ t.database.users ∧ found.id = userId := by
  unfold Tables.user at hfound
  exact ⟨List.mem_of_find?_eq_some hfound, by simpa using List.find?_some hfound⟩

/-- Outside its scope, a change of one user keeps everybody else's roles. -/
theorem rolesKeptOutside_user_iff {t : Tables} {plan : Plan} {userId : ℕ} {change : User → User}
    {hid : ∀ user, (change user).id = user.id}
    (husers : plan.tables.database.users = (t.modifyUser userId change hid).database.users)
    (hall : ∀ accountId, allUsersPortalRole plan.tables.database accountId =
      allUsersPortalRole t.database accountId)
    (hstored : ∀ user ∈ t.database.users, ∀ accountId ∈ t.s3Accounts, ¬ plan.scope (user.id, accountId) →
      storedPortalRole plan.tables.database user.id accountId = storedPortalRole t.database user.id accountId) :
    RolesKeptOutside t plan ↔ ∀ user ∈ t.database.users, user.id = userId →
      ∀ accountId ∈ t.s3Accounts, ¬ plan.scope (user.id, accountId) →
        capturedPortalRole plan.tables.database (change user) accountId =
          capturedPortalRole t.database user accountId := by
  constructor
  · intro hkept user huser hsame accountId haccount hout
    refine hkept user huser (change user) ?_ (hid user) accountId haccount hout
    rw [husers]
    exact List.mem_map.mpr ⟨user, huser, if_pos hsame⟩
  · intro hkept user huser user' huser' hsame accountId haccount hout
    rw [husers] at huser'
    have hmember := mem_modifyUser huser huser' hsame
    by_cases htarget : user.id = userId
    · rw [if_pos htarget] at hmember
      rw [hmember]
      exact hkept user huser htarget accountId haccount hout
    · rw [if_neg htarget] at hmember
      rw [hmember]
      refine capturedPortalRole_congr rfl (hstored user huser accountId haccount hout) ?_
      unfold impliedPortalRole
      rw [hall]

theorem eligible_asUiUser (user : User) : eligible (asUiUser user) = user.isActive := by
  unfold eligible asUiUser
  split
  · simp
  · rename_i hrole
    simp [hrole]

/-- What becomes of the captured role of a user whose eligibility changes and whose links do not. -/
theorem capturedPortalRole_eligible_iff {db db' : Database} {user user' : User} {accountId : ℕ}
    (hactive : user'.isActive = user.isActive) (hall : allUsersPortalRole db' accountId =
      allUsersPortalRole db accountId)
    (hstored : storedPortalRole db' user'.id accountId = storedPortalRole db user.id accountId) :
    capturedPortalRole db' user' accountId = capturedPortalRole db user accountId ↔
      (eligible user' ≠ eligible user → portalAccountRoleRank (allUsersPortalRole db accountId) ≤
        portalAccountRoleRank (storedPortalRole db user.id accountId)) := by
  rw [capturedPortalRole_eq_iff hactive hstored]
  unfold impliedPortalRole
  rw [hall]
  by_cases hactiveUser : user.isActive = true
  · cases hbefore : eligible user with
    | true =>
      cases hafter : eligible user' with
      | true => simp
      | false =>
        simp only [Bool.false_eq_true, if_false, if_true, hactiveUser, forall_const, ne_eq,
          not_false_eq_true]
        constructor
        · rintro (hnone | hranks)
          · rw [← hnone]
            exact Nat.zero_le _
          · exact hranks.1
        · exact fun h => .inr ⟨h, Nat.zero_le _⟩
    | false =>
      cases hafter : eligible user' with
      | false => simp
      | true =>
        simp only [Bool.false_eq_true, if_false, if_true, hactiveUser, forall_const, ne_eq,
          not_false_eq_true, Bool.true_eq_false]
        constructor
        · rintro (hnone | hranks)
          · rw [hnone]
            exact Nat.zero_le _
          · exact hranks.2
        · exact fun h => .inr ⟨Nat.zero_le _, h⟩
  · have hbefore : eligible user = false := by simp [eligible, hactiveUser]
    have hafter : eligible user' = false := by simp [eligible, hactive, hactiveUser]
    refine iff_of_true (fun h => absurd h hactiveUser) fun h => ?_
    exact absurd (hafter.trans hbefore.symm) h

theorem storedPortalRole_upsert {t : Tables} {userId account : ℕ} {link : Option AccountLink} {user : User}
    {accountId : ℕ} (hout : ¬ (user.id = userId ∧ accountId = account)) :
    storedPortalRole (t.upsertDirectAccountLink userId account link).database user.id accountId =
      storedPortalRole t.database user.id accountId := by
  refine storedPortalRole_congr ?_ fun role => Iff.rfl
  show (if user.id = userId ∧ accountId = account then link else _ : Option AccountLink).bind _ = _
  rw [if_neg hout]
  rfl

theorem assignAccount_iff {t : Tables} {userId account : ℕ} {accountAdministrator : Bool}
    {portalRole : Option PortalAccountRole} {plan : Plan}
    (hplan : assignAccount t userId account accountAdministrator portalRole = .ok plan) :
    RolesKeptOutside t plan ↔
      (Mutation.assignAccount userId account accountAdministrator portalRole).Covered t := by
  unfold assignAccount at hplan
  split at hplan
  · cases hplan
  · split at hplan
    · cases hplan
      have hscope (tables : Tables) (user : User) (accountId : ℕ) :
          ¬ Plan.scope ⟨[userId], [account], tables, true⟩ (user.id, accountId) ↔
            ¬ (user.id = userId ∧ accountId = account) := by
        simp [Plan.scope]
      refine (@rolesKeptOutside_user_iff t _ userId asUiUser asUiUser_id rfl (fun _ => rfl)
        fun user _ accountId _ hout => storedPortalRole_upsert ((hscope _ user accountId).mp hout)).trans ?_
      refine forall₂_congr fun user huser => forall_congr' fun hid => ?_
      have hpair (accountId : ℕ) (hout : ¬ (user.id = userId ∧ accountId = account)) :
          capturedPortalRole (t.upsertDirectAccountLink userId account
            (membership accountAdministrator portalRole)).database (asUiUser user) accountId =
              capturedPortalRole t.database user accountId ↔ _ :=
        capturedPortalRole_eligible_iff (asUiUser_isActive user) rfl
          (by rw [asUiUser_id]; exact storedPortalRole_upsert hout)
      constructor
      · intro h hactive hrole accountId haccount hne
        have hout : ¬ (user.id = userId ∧ accountId = account) := fun h => hne h.2
        refine (hpair accountId hout).mp (h accountId haccount ((hscope _ user accountId).mpr hout)) ?_
        rw [eligible_asUiUser, hactive]
        simp [eligible, hrole]
      · intro h accountId haccount hout
        rw [hscope] at hout
        refine (hpair accountId hout).mpr fun hchanged => ?_
        have hnow : user.isActive = true ∧ user.role = .uiNone := by
          rw [eligible_asUiUser, eligible] at hchanged
          cases hactive : user.isActive <;> simp_all
        exact h hnow.1 hnow.2 accountId haccount fun heq => hout ⟨hid, heq⟩
    · cases hplan

/-! ## Updates of a user -/

section UserUpdate

variable {t : Tables} {userId : ℕ} {payload : UserUpdate}

theorem applyUserUpdate_users :
    (t.applyUserUpdate userId payload).database.users =
      (t.modifyUser userId payload.apply payload.apply_id).database.users := by
  unfold Tables.applyUserUpdate
  rcases payload with ⟨role, isActive, _ | links, _ | groupIds⟩ <;> rfl

theorem applyUserUpdate_uiGroups :
    (t.applyUserUpdate userId payload).database.uiGroups = t.database.uiGroups := by
  unfold Tables.applyUserUpdate
  rcases payload with ⟨role, isActive, _ | links, _ | groupIds⟩ <;> rfl

theorem applyUserUpdate_uiGroupS3Accounts :
    (t.applyUserUpdate userId payload).database.uiGroupS3Accounts = t.database.uiGroupS3Accounts := by
  unfold Tables.applyUserUpdate
  rcases payload with ⟨role, isActive, _ | links, _ | groupIds⟩ <;> rfl

theorem applyUserUpdate_userS3Accounts (user account : ℕ) :
    (t.applyUserUpdate userId payload).database.userS3Accounts user account =
      if user = userId then
        match payload.accountLinks with
        | none => t.database.userS3Accounts user account
        | some links => desiredLink links account
      else t.database.userS3Accounts user account := by
  unfold Tables.applyUserUpdate
  rcases payload with ⟨role, isActive, _ | links, _ | groupIds⟩
  · exact (ite_self _).symm
  · exact (ite_self _).symm
  · rfl
  · rfl

theorem applyUserUpdate_userUiGroups (user group : ℕ) :
    (t.applyUserUpdate userId payload).database.userUiGroups user group =
      if user = userId then
        match payload.groupIds with
        | none => t.database.userUiGroups user group
        | some groupIds => decide (group ∈ groupIds)
      else t.database.userUiGroups user group := by
  unfold Tables.applyUserUpdate
  rcases payload with ⟨role, isActive, _ | links, _ | groupIds⟩
  · exact (ite_self _).symm
  · rfl
  · exact (ite_self _).symm
  · rfl

theorem desiredLink_eq_none {links : List (ℕ × AccountLink)} {accountId : ℕ}
    (h : accountId ∉ links.map Prod.fst) : desiredLink links accountId = none := by
  unfold desiredLink
  rw [Option.map_eq_none_iff, List.find?_eq_none]
  intro link hlink hid
  rw [decide_eq_true_iff] at hid
  exact h (hid ▸ List.mem_map_of_mem (List.mem_reverse.mp hlink))

theorem not_mem_affected {accountId : ℕ} (haccount : accountId ∈ t.s3Accounts)
    (hout : accountId ∉ t.affectedPortalAccountIds userId payload) :
    (payload.accountLinks = none ∧ payload.groupIds = none) ∨
      (t.database.userS3Accounts userId accountId = none ∧
        accountId ∉ (payload.accountLinks.getD []).map Prod.fst ∧
          ∀ groupIds, payload.groupIds = some groupIds → ∀ group,
            (group ∈ groupIds ∨ (group ∈ t.groupIds ∧ t.database.userUiGroups userId group = true)) →
              t.database.uiGroupS3Accounts group accountId = none) := by
  unfold Tables.affectedPortalAccountIds at hout
  split at hout
  · exact .inl ‹_›
  · rw [List.mem_append, List.mem_append, not_or, not_or] at hout
    obtain ⟨⟨hdirect, hlinks⟩, hgroups⟩ := hout
    refine .inr ⟨?_, hlinks, ?_⟩
    · by_contra hlink
      exact hdirect (List.mem_filter.mpr ⟨haccount, Option.isSome_iff_ne_none.mpr hlink⟩)
    · intro groupIds hids group hgroup
      rw [hids] at hgroups
      by_contra hlink
      refine hgroups (List.mem_filter.mpr ⟨haccount, List.any_eq_true.mpr ⟨group, ?_, ?_⟩⟩)
      · rw [List.mem_append, List.mem_filter]
        exact hgroup.symm
      · exact Option.isSome_iff_ne_none.mpr hlink

/-- Where the update captures nothing, it changes no stored role. -/
theorem storedPortalRole_userUpdate {user : User} {accountId : ℕ} (haccount : accountId ∈ t.s3Accounts)
    (hout : ¬ (user.id = userId ∧ accountId ∈ t.affectedPortalAccountIds userId payload)) :
    storedPortalRole (t.applyUserUpdate userId payload).database user.id accountId =
      storedPortalRole t.database user.id accountId := by
  by_cases htarget : user.id = userId
  · have haffected : accountId ∉ t.affectedPortalAccountIds userId payload := fun h => hout ⟨htarget, h⟩
    rcases not_mem_affected haccount haffected with ⟨hlinks, hids⟩ | ⟨hdirect, hlinks, hgroups⟩
    · refine storedPortalRole_congr ?_ fun role => ?_
      · unfold Database.directPortalRole
        rw [applyUserUpdate_userS3Accounts, hlinks, ite_self]
      · rw [mem_memberGroupRoles_iff, mem_memberGroupRoles_iff, applyUserUpdate_uiGroups,
          applyUserUpdate_uiGroupS3Accounts]
        simp only [applyUserUpdate_userUiGroups, hids, ite_self]
    · refine storedPortalRole_congr ?_ fun role => ?_
      · unfold Database.directPortalRole
        rw [applyUserUpdate_userS3Accounts, if_pos htarget, htarget, hdirect]
        cases hpayload : payload.accountLinks with
        | none => rfl
        | some links =>
          rw [hpayload] at hlinks
          have hlink : desiredLink links accountId = none := desiredLink_eq_none hlinks
          show (desiredLink links accountId).bind _ = _
          rw [hlink]
      · rw [mem_memberGroupRoles_iff, mem_memberGroupRoles_iff, applyUserUpdate_uiGroups,
          applyUserUpdate_uiGroupS3Accounts]
        simp only [applyUserUpdate_userUiGroups, if_pos htarget]
        cases hids : payload.groupIds with
        | none => exact Iff.rfl
        | some groupIds =>
          refine exists_congr fun group => and_congr_right fun hgroup => ?_
          constructor
          · rintro ⟨hmember, hlink⟩
            rw [hgroups groupIds hids group.id (.inl (of_decide_eq_true hmember))] at hlink
            cases hlink
          · rintro ⟨hmember, hlink⟩
            rw [hgroups groupIds hids group.id
              (.inr ⟨List.mem_map_of_mem hgroup, htarget ▸ hmember⟩)] at hlink
            cases hlink
  · refine storedPortalRole_congr ?_ fun role => ?_
    · unfold Database.directPortalRole
      rw [applyUserUpdate_userS3Accounts, if_neg htarget]
    · rw [mem_memberGroupRoles_iff, mem_memberGroupRoles_iff, applyUserUpdate_uiGroups,
        applyUserUpdate_uiGroupS3Accounts]
      simp only [applyUserUpdate_userUiGroups, if_neg htarget]

theorem allUsersPortalRole_userUpdate (accountId : ℕ) :
    allUsersPortalRole (t.applyUserUpdate userId payload).database accountId =
      allUsersPortalRole t.database accountId := by
  unfold allUsersPortalRole Database.allUsersGroup
  rw [applyUserUpdate_uiGroups, applyUserUpdate_uiGroupS3Accounts]

end UserUpdate

/-- A role that is none makes both of its parts none. -/
theorem maxPortalAccountRole_eq_none {stored implied : Option PortalAccountRole}
    (h : maxPortalAccountRole [stored, implied] = none) : stored = none ∧ implied = none := by
  rcases stored with _ | _ | _ <;> rcases implied with _ | _ | _ <;> first | exact ⟨rfl, rfl⟩ | cases h

/-- The captured role where the user had no role before it was activated or deactivated. -/
theorem capturedPortalRole_toggled_iff {db db' : Database} {user user' : User} {accountId : ℕ}
    (hactive : user'.isActive = !user.isActive) (hall : allUsersPortalRole db' accountId =
      allUsersPortalRole db accountId)
    (hstored : storedPortalRole db' user'.id accountId = storedPortalRole db user.id accountId)
    (hnone : db.effectivePortalRole user accountId = none) :
    capturedPortalRole db' user' accountId = capturedPortalRole db user accountId ↔
      (eligible user' ≠ eligible user → portalAccountRoleRank (allUsersPortalRole db accountId) ≤
        portalAccountRoleRank (storedPortalRole db user.id accountId)) := by
  have hbefore : capturedPortalRole db user accountId = none := by
    rw [capturedPortalRole, hnone, ite_self]
  obtain ⟨hstoredNone, himpliedNone⟩ := maxPortalAccountRole_eq_none
    ((effectivePortalRole_eq db user accountId).symm.trans hnone)
  rw [hbefore, hstoredNone]
  unfold capturedPortalRole
  rw [hactive, effectivePortalRole_eq, hstored, hstoredNone]
  unfold impliedPortalRole at himpliedNone ⊢
  rw [hall]
  by_cases hactiveUser : user.isActive = true
  · have hnow : eligible user' = false := by simp [eligible, hactive, hactiveUser]
    rw [hactiveUser, hnow, Bool.not_true, if_neg Bool.false_ne_true]
    refine iff_of_true rfl fun hchanged => ?_
    have hwas : eligible user = true := by simpa using hchanged.symm
    rw [if_pos hwas] at himpliedNone
    rw [himpliedNone]
  · have hwas : eligible user = false := by simp [eligible, hactiveUser]
    rw [Bool.not_eq_true] at hactiveUser
    rw [hactiveUser, hwas, Bool.not_false, if_pos rfl]
    cases hnow : eligible user' with
    | false => simp [maxPortalAccountRole]
    | true =>
      rw [if_pos rfl]
      rcases allUsersPortalRole db accountId with _ | _ | _ <;> decide

theorem updateUser_iff {t : Tables} {userId : ℕ} {payload : UserUpdate} {plan : Plan}
    (hplan : updateUser t userId payload = .ok plan) :
    RolesKeptOutside t plan ↔ (Mutation.updateUser userId payload).Covered t := by
  obtain ⟨found, hfound, hids, haccounts, htables⟩ : ∃ found, t.user userId = some found ∧
      plan.userIds = [userId] ∧ plan.accountIds = t.capturedAccountIds found payload ∧
        plan.tables = t.applyUserUpdate userId payload := by
    unfold updateUser at hplan
    split at hplan
    · cases hplan
    · rename_i found hfound
      simp only [bind, Except.bind] at hplan
      split at hplan
      · cases hplan
      · split at hplan
        · cases hplan
        · split at hplan
          · cases hplan
          · cases hplan
            exact ⟨found, hfound, rfl, rfl, rfl⟩
  obtain ⟨hfoundMem, hfoundId⟩ := user_mem hfound
  have hscope (user : User) (accountId : ℕ) : plan.scope (user.id, accountId) ↔
      user.id = userId ∧ accountId ∈ t.capturedAccountIds found payload := by
    rw [Plan.scope, hids, haccounts, List.mem_singleton]
  have hstored (user : User) (accountId : ℕ) (haccount : accountId ∈ t.s3Accounts)
      (hout : ¬ (user.id = userId ∧ accountId ∈ t.capturedAccountIds found payload)) :
      storedPortalRole (t.applyUserUpdate userId payload).database user.id accountId =
        storedPortalRole t.database user.id accountId := by
    refine storedPortalRole_userUpdate haccount fun h => hout ⟨h.1, ?_⟩
    rw [Tables.capturedAccountIds, hfoundId]
    exact List.mem_append_left _ h.2
  rw [rolesKeptOutside_user_iff (htables ▸ applyUserUpdate_users)
    (fun accountId => htables ▸ allUsersPortalRole_userUpdate accountId)
    fun user _ accountId haccount hout => htables ▸ hstored user accountId haccount
      ((hscope user accountId).not.mp hout)]
  refine forall₂_congr fun user huser => forall_congr' fun hid => ?_
  have hsame : user = found := t.database.user_eq huser hfoundMem (hid.trans hfoundId.symm)
  subst hsame
  have hpair (accountId : ℕ) (haccount : accountId ∈ t.s3Accounts)
      (hout : accountId ∉ t.capturedAccountIds user payload) :
      capturedPortalRole (t.applyUserUpdate userId payload).database (payload.apply user) accountId =
        capturedPortalRole t.database user accountId ↔
      (eligible (payload.apply user) ≠ eligible user →
        portalAccountRoleRank (allUsersPortalRole t.database accountId) ≤
          portalAccountRoleRank (storedPortalRole t.database user.id accountId)) := by
    have hkept : storedPortalRole (t.applyUserUpdate userId payload).database (payload.apply user).id
        accountId = storedPortalRole t.database user.id accountId := by
      rw [UserUpdate.apply_id]
      exact hstored user accountId haccount fun h => hout h.2
    by_cases htoggled : payload.isActive.any (· ≠ user.isActive) = true
    · have hnone : t.database.effectivePortalRole user accountId = none := by
        by_contra hrole
        refine hout (List.mem_append_right _ ?_)
        rw [if_pos htoggled]
        exact List.mem_filter.mpr ⟨haccount, Option.isSome_iff_ne_none.mpr hrole⟩
      have hactive : (payload.apply user).isActive = !user.isActive := by
        rw [UserUpdate.apply_isActive]
        cases hpayload : payload.isActive with
        | none => simp [hpayload] at htoggled
        | some isActive =>
          have hne : isActive ≠ user.isActive := by simpa [hpayload] using htoggled
          exact Bool.eq_not.mpr hne
      exact capturedPortalRole_toggled_iff hactive (allUsersPortalRole_userUpdate accountId) hkept hnone
    · have hactive : (payload.apply user).isActive = user.isActive := by
        rw [UserUpdate.apply_isActive]
        cases hpayload : payload.isActive with
        | none => rfl
        | some isActive => simpa [hpayload] using htoggled
      exact capturedPortalRole_eligible_iff hactive (allUsersPortalRole_userUpdate accountId) hkept
  rw [htables]
  constructor
  · intro h hchanged accountId haccount hout
    refine (hpair accountId haccount hout).mp (h accountId haccount ?_) hchanged
    exact fun hscoped => hout ((hscope user accountId).mp hscoped).2
  · intro h accountId haccount hout
    have hnot : accountId ∉ t.capturedAccountIds user payload := fun hmem =>
      hout ((hscope user accountId).mpr ⟨hid, hmem⟩)
    exact (hpair accountId haccount hnot).mpr fun hchanged => h hchanged accountId haccount hnot

/-! ## Groups -/

/-- A mutation of a group leaves the users alone. -/
theorem rolesKeptOutside_group_iff {t : Tables} {plan : Plan}
    (husers : plan.tables.database.users = t.database.users) :
    RolesKeptOutside t plan ↔ ∀ user ∈ t.database.users, ∀ accountId ∈ t.s3Accounts,
      ¬ plan.scope (user.id, accountId) →
        capturedPortalRole plan.tables.database user accountId =
          capturedPortalRole t.database user accountId := by
  constructor
  · intro hkept user huser accountId haccount hout
    exact hkept user huser user (husers ▸ huser) rfl accountId haccount hout
  · intro hkept user huser user' huser' hsame accountId haccount hout
    rw [t.database.user_eq (husers ▸ huser') huser hsame]
    exact hkept user huser accountId haccount hout

/-- Only one group was changed, and it has no part in the stored role of the user. -/
theorem storedPortalRole_group {db db' : Database} {groupId userId accountId : ℕ}
    (hdirect : db'.userS3Accounts = db.userS3Accounts)
    (hgroups : ∀ id, id ≠ groupId → ((∃ group ∈ db'.uiGroups, group.id = id) ↔
      ∃ group ∈ db.uiGroups, group.id = id))
    (hmembers : ∀ id, id ≠ groupId → db'.userUiGroups userId id = db.userUiGroups userId id)
    (hlinks : ∀ id, id ≠ groupId → db'.uiGroupS3Accounts id accountId = db.uiGroupS3Accounts id accountId)
    (hbefore : ∀ group ∈ db.uiGroups, group.id = groupId → db.userUiGroups userId groupId = true →
      db.uiGroupS3Accounts groupId accountId = none)
    (hafter : ∀ group ∈ db'.uiGroups, group.id = groupId → db'.userUiGroups userId groupId = true →
      db'.uiGroupS3Accounts groupId accountId = none) :
    storedPortalRole db' userId accountId = storedPortalRole db userId accountId := by
  refine storedPortalRole_congr (by unfold Database.directPortalRole; rw [hdirect]) fun role => ?_
  rw [mem_memberGroupRoles_iff, mem_memberGroupRoles_iff]
  constructor
  · rintro ⟨group, hgroup, hmember, hlink⟩
    by_cases hid : group.id = groupId
    · rw [hid] at hmember hlink
      rw [hafter group hgroup hid hmember] at hlink
      cases hlink
    · obtain ⟨old, hold, hsame⟩ := (hgroups _ hid).mp ⟨group, hgroup, rfl⟩
      rw [hmembers _ hid, ← hsame] at hmember
      rw [hlinks _ hid, ← hsame] at hlink
      exact ⟨old, hold, hmember, hlink⟩
  · rintro ⟨group, hgroup, hmember, hlink⟩
    by_cases hid : group.id = groupId
    · rw [hid] at hmember hlink
      rw [hbefore group hgroup hid hmember] at hlink
      cases hlink
    · obtain ⟨new, hnew, hsame⟩ := (hgroups _ hid).mpr ⟨group, hgroup, rfl⟩
      rw [← hmembers _ hid, ← hsame] at hmember
      rw [← hlinks _ hid, ← hsame] at hlink
      exact ⟨new, hnew, hmember, hlink⟩

theorem createGroup_kept {t : Tables} {groupId : ℕ} {payload : UiGroupCreate} {plan : Plan}
    (hplan : createGroup t groupId payload = .ok plan) : RolesKeptOutside t plan := by
  unfold createGroup at hplan
  simp only [bind, Except.bind] at hplan
  split at hplan
  · cases hplan
  · rename_i name hname
    split at hplan
    · cases hplan
    · split at hplan
      · cases hplan
      · split at hplan
        · cases hplan
        · rename_i hnew
          cases hplan
          refine (@rolesKeptOutside_group_iff t _ rfl).mpr fun user huser accountId haccount hout => ?_
          have hother {group : UiGroup} (hgroup : group ∈ t.database.uiGroups) : group.id ≠ groupId :=
            fun h => hnew (h ▸ List.mem_map_of_mem hgroup)
          refine capturedPortalRole_congr rfl ?_ ?_
          · refine @storedPortalRole_group _ _ groupId _ _ rfl ?_ ?_ ?_ ?_ ?_
            · intro id hid
              simp [Tables.setGroupAccountLinks, Tables.setGroupUsers, Tables.addGroup, Ne.symm hid,
                or_and_right, exists_or]
            · exact fun id hid => if_neg hid
            · exact fun id hid => if_neg hid
            · exact fun group hgroup hid => absurd hid (hother hgroup)
            · intro _ _ _ hmember
              have hlisted : user.id ∈ payload.userIds := by
                simpa [Tables.setGroupAccountLinks, Tables.setGroupUsers] using hmember
              have hlink : desiredLink payload.accountLinks accountId = none :=
                desiredLink_eq_none fun h => hout ⟨hlisted, h⟩
              simpa [Tables.setGroupAccountLinks] using hlink
          · have hall : (t.database.uiGroups ++ [UiGroup.mk groupId name false]).find? UiGroup.allUsers =
                t.database.uiGroups.find? UiGroup.allUsers := by
              rw [List.find?_append]
              simp
            unfold impliedPortalRole allUsersPortalRole Database.allUsersGroup
            show (if eligible user then Option.bind ((t.database.uiGroups ++
              [UiGroup.mk groupId name false]).find? UiGroup.allUsers) _ else none) = _
            rw [hall]
            refine if_congr Iff.rfl (Option.bind_congr fun group hgroup => ?_) rfl
            refine congrArg (Option.bind · AccountLink.portalRole) (if_neg ?_)
            exact hother (List.mem_of_find?_eq_some hgroup)

theorem eq_of_group {t : Tables} {groupId : ℕ} {found group : UiGroup} (hfound : t.group groupId = some found)
    (hgroup : group ∈ t.database.uiGroups) (hid : group.id = groupId) : group = found := by
  unfold Tables.group at hfound
  have hfoundId : found.id = groupId := by simpa using List.find?_some hfound
  exact List.inj_on_of_nodup_map t.distinctGroups hgroup (List.mem_of_find?_eq_some hfound)
    (hid.trans hfoundId.symm)

theorem deleteGroup_kept {t : Tables} {groupId : ℕ} {plan : Plan}
    (hplan : deleteGroup t groupId = .ok plan) : RolesKeptOutside t plan := by
  unfold deleteGroup at hplan
  split at hplan
  · cases hplan
  · rename_i found hfound
    split at hplan
    · cases hplan
    · rename_i hsystem
      cases hplan
      refine (@rolesKeptOutside_group_iff t _ rfl).mpr fun user huser accountId haccount hout => ?_
      refine capturedPortalRole_congr rfl ?_ ?_
      · refine @storedPortalRole_group _ _ groupId _ _ rfl ?_ ?_ ?_ ?_ ?_
        · intro id hid
          simp only [Tables.removeGroup, List.mem_filter, decide_eq_true_eq]
          exact ⟨fun ⟨group, h, heq⟩ => ⟨group, h.1, heq⟩,
            fun ⟨group, h, heq⟩ => ⟨group, ⟨h, heq ▸ hid⟩, heq⟩⟩
        · intro id hid
          simp [Tables.removeGroup, hid]
        · exact fun id hid => if_neg hid
        · intro _ _ _ hmember
          by_contra hlink
          refine hout ⟨?_, ?_⟩
          · exact List.mem_filter.mpr ⟨List.mem_map_of_mem huser, hmember⟩
          · exact List.mem_filter.mpr ⟨haccount, Option.isSome_iff_ne_none.mpr hlink⟩
        · exact fun _ _ _ _ => if_pos rfl
      · have hother : ∀ group ∈ t.database.uiGroups,
            decide (decide (group.id ≠ groupId) = true ∧ group.allUsers = true) = group.allUsers := by
          intro group hgroup
          by_cases hid : group.id = groupId
          · have hsame : group = found := eq_of_group hfound hgroup hid
            simp [hsame, hsystem]
          · simp [hid]
        unfold impliedPortalRole allUsersPortalRole Database.allUsersGroup
        show (if eligible user then Option.bind ((t.database.uiGroups.filter fun group =>
          decide (group.id ≠ groupId)).find? UiGroup.allUsers) _ else none) = _
        rw [List.find?_filter, List.find?_congr hother]
        refine if_congr Iff.rfl (Option.bind_congr fun group hgroup => ?_) rfl
        refine congrArg (Option.bind · AccountLink.portalRole) (if_neg fun hid => hsystem ?_)
        rw [← eq_of_group hfound (List.mem_of_find?_eq_some hgroup) hid]
        exact List.find?_some hgroup

/-! ## Updates of a group -/

section GroupUpdate

variable {t : Tables} {groupId : ℕ} {name : Option String} {payload : UiGroupUpdate}

theorem applyGroupUpdate_users :
    (t.applyGroupUpdate groupId name payload).database.users = t.database.users := by
  unfold Tables.applyGroupUpdate
  rcases name with _ | name <;> rcases payload with ⟨newName, _ | userIds, _ | links⟩ <;> rfl

theorem applyGroupUpdate_userS3Accounts :
    (t.applyGroupUpdate groupId name payload).database.userS3Accounts = t.database.userS3Accounts := by
  unfold Tables.applyGroupUpdate
  rcases name with _ | name <;> rcases payload with ⟨newName, _ | userIds, _ | links⟩ <;> rfl

theorem applyGroupUpdate_userUiGroups (user group : ℕ) :
    (t.applyGroupUpdate groupId name payload).database.userUiGroups user group =
      if group = groupId then
        match payload.userIds with
        | none => t.database.userUiGroups user group
        | some userIds => decide (user ∈ userIds)
      else t.database.userUiGroups user group := by
  unfold Tables.applyGroupUpdate
  rcases name with _ | name <;> rcases payload with ⟨newName, _ | userIds, _ | links⟩ <;>
    first | exact (ite_self _).symm | rfl

theorem applyGroupUpdate_uiGroupS3Accounts (group account : ℕ) :
    (t.applyGroupUpdate groupId name payload).database.uiGroupS3Accounts group account =
      if group = groupId then
        match payload.accountLinks with
        | none => t.database.uiGroupS3Accounts group account
        | some links => desiredLink links account
      else t.database.uiGroupS3Accounts group account := by
  unfold Tables.applyGroupUpdate
  rcases name with _ | name <;> rcases payload with ⟨newName, _ | userIds, _ | links⟩ <;>
    first | exact (ite_self _).symm | rfl

/-- The row a rename makes of a group. -/
def renamed (groupId : ℕ) (name : Option String) (group : UiGroup) : UiGroup :=
  match name with
  | none => group
  | some name => if group.id = groupId then { group with name := name } else group

theorem renamed_id (group : UiGroup) : (renamed groupId name group).id = group.id := by
  unfold renamed
  split
  · rfl
  · split <;> rfl

theorem renamed_allUsers (group : UiGroup) : (renamed groupId name group).allUsers = group.allUsers := by
  unfold renamed
  split
  · rfl
  · split <;> rfl

theorem applyGroupUpdate_uiGroups :
    (t.applyGroupUpdate groupId name payload).database.uiGroups =
      t.database.uiGroups.map (renamed groupId name) := by
  unfold Tables.applyGroupUpdate
  rcases name with _ | name <;> rcases payload with ⟨newName, _ | userIds, _ | links⟩ <;>
    first | exact (List.map_id _).symm | rfl

/-- The group of all users is the same group; its links may be new. -/
theorem allUsersPortalRole_groupUpdate (accountId : ℕ) :
    allUsersPortalRole (t.applyGroupUpdate groupId name payload).database accountId =
      t.database.allUsersGroup.bind fun group =>
        ((t.applyGroupUpdate groupId name payload).database.uiGroupS3Accounts group.id accountId).bind
          AccountLink.portalRole := by
  have hkind : UiGroup.allUsers ∘ renamed groupId name = UiGroup.allUsers := funext renamed_allUsers
  unfold allUsersPortalRole Database.allUsersGroup
  rw [applyGroupUpdate_uiGroups, List.find?_map, hkind, Option.bind_map]
  refine Option.bind_congr fun group _ => ?_
  rw [Function.comp_apply, renamed_id]

/-- Where the update captures nothing, it changes no stored role. -/
theorem storedPortalRole_groupUpdate {user : User} {accountId : ℕ} (huser : user ∈ t.database.users)
    (haccount : accountId ∈ t.s3Accounts)
    (hout : ¬ (user.id ∈ t.existingUserIds groupId ++ payload.userIds.getD [] ∧
      accountId ∈ t.existingAccountIds groupId ++ (payload.accountLinks.getD []).map Prod.fst)) :
    storedPortalRole (t.applyGroupUpdate groupId name payload).database user.id accountId =
      storedPortalRole t.database user.id accountId := by
  have hlinked (h : accountId ∉ t.existingAccountIds groupId) :
      t.database.uiGroupS3Accounts groupId accountId = none := by
    by_contra hlink
    exact h (List.mem_filter.mpr ⟨haccount, Option.isSome_iff_ne_none.mpr hlink⟩)
  have hmembership (h : t.database.userUiGroups user.id groupId = true) :
      user.id ∈ t.existingUserIds groupId := List.mem_filter.mpr ⟨List.mem_map_of_mem huser, h⟩
  refine @storedPortalRole_group _ _ groupId _ _ applyGroupUpdate_userS3Accounts ?_ ?_ ?_ ?_ ?_
  · intro id _
    rw [applyGroupUpdate_uiGroups]
    simp [renamed_id]
  · intro id hid
    rw [applyGroupUpdate_userUiGroups, if_neg hid]
  · intro id hid
    rw [applyGroupUpdate_uiGroupS3Accounts, if_neg hid]
  · intro _ _ _ hmember
    refine hlinked fun haccounts => hout ⟨?_, List.mem_append_left _ haccounts⟩
    exact List.mem_append_left _ (hmembership hmember)
  · intro _ _ _ hmember
    rw [applyGroupUpdate_userUiGroups, if_pos rfl] at hmember
    have huserScope : user.id ∈ t.existingUserIds groupId ++ payload.userIds.getD [] := by
      cases hids : payload.userIds with
      | none =>
        rw [hids] at hmember
        exact List.mem_append_left _ (hmembership hmember)
      | some userIds =>
        rw [hids] at hmember
        exact List.mem_append_right _ (of_decide_eq_true hmember)
    have haccountScope : ¬ accountId ∈ t.existingAccountIds groupId ++
        (payload.accountLinks.getD []).map Prod.fst := fun h => hout ⟨huserScope, h⟩
    rw [List.mem_append, not_or] at haccountScope
    rw [applyGroupUpdate_uiGroupS3Accounts, if_pos rfl]
    cases hlinks : payload.accountLinks with
    | none => exact hlinked haccountScope.1
    | some links =>
      rw [hlinks] at haccountScope
      exact desiredLink_eq_none haccountScope.2

end GroupUpdate

theorem updateGroup_iff {t : Tables} {groupId : ℕ} {payload : UiGroupUpdate} {plan : Plan}
    (hplan : updateGroup t groupId payload = .ok plan) :
    RolesKeptOutside t plan ↔ (Mutation.updateGroup groupId payload).Covered t := by
  obtain ⟨found, name, hfound, hsystem, hids, haccounts, htables⟩ : ∃ found name,
      t.group groupId = some found ∧ ¬ (found.allUsers ∧ payload.userIds.isSome) ∧
        plan.userIds = t.existingUserIds groupId ++ payload.userIds.getD [] ∧
        plan.accountIds = t.existingAccountIds groupId ++ (payload.accountLinks.getD []).map Prod.fst ∧
        plan.tables = t.applyGroupUpdate groupId name payload := by
    unfold updateGroup at hplan
    split at hplan
    · cases hplan
    · rename_i found hfound
      simp only [bind, Except.bind] at hplan
      split at hplan
      · cases hplan
      · rename_i name hname
        split at hplan
        · cases hplan
        · split at hplan
          · cases hplan
          · split at hplan
            · cases hplan
            · cases hplan
              exact ⟨found, name, hfound, ‹_›, rfl, rfl, rfl⟩
  have hscope (user : User) (accountId : ℕ) : plan.scope (user.id, accountId) ↔
      user.id ∈ t.existingUserIds groupId ++ payload.userIds.getD [] ∧
        accountId ∈ t.existingAccountIds groupId ++ (payload.accountLinks.getD []).map Prod.fst := by
    rw [Plan.scope, hids, haccounts]
  have hpair (user : User) (huser : user ∈ t.database.users) (accountId : ℕ)
      (haccount : accountId ∈ t.s3Accounts) (hout : ¬ plan.scope (user.id, accountId)) :=
    @capturedPortalRole_eq_iff t.database plan.tables.database user user accountId rfl
      (htables ▸ storedPortalRole_groupUpdate huser haccount ((hscope user accountId).not.mp hout))
  rw [rolesKeptOutside_group_iff (htables ▸ applyGroupUpdate_users)]
  constructor
  · intro h group links hgroup hid hlinks user huser heligible hmember accountId haccount
    have hfoundGroup : group = found := eq_of_group hfound (List.mem_of_find?_eq_some hgroup) hid
    have hnoIds : payload.userIds = none := by
      rw [← Option.not_isSome_iff_eq_none]
      intro hsome
      exact hsystem ⟨hfoundGroup ▸ List.find?_some hgroup, hsome⟩
    have hout : ¬ plan.scope (user.id, accountId) := by
      rw [hscope, hnoIds]
      rintro ⟨huserScope, -⟩
      rcases List.mem_append.mp huserScope with hstored | hnew
      · rw [Tables.existingUserIds, List.mem_filter, hmember] at hstored
        exact Bool.false_ne_true hstored.2
      · cases hnew
    have hactive : user.isActive = true := ((Bool.and_eq_true _ _).mp heligible).1
    have hroles := (hpair user huser accountId haccount hout).mp (h user huser accountId haccount hout) hactive
    unfold impliedPortalRole at hroles
    rw [if_pos heligible, if_pos heligible, htables, allUsersPortalRole_groupUpdate, hgroup,
      Option.bind_some, applyGroupUpdate_uiGroupS3Accounts, if_pos hid, hlinks] at hroles
    exact hroles
  · intro hcovered user huser accountId haccount hout
    refine (hpair user huser accountId haccount hout).mpr fun hactive => ?_
    unfold impliedPortalRole
    by_cases heligible : eligible user = true
    · rw [if_pos heligible, if_pos heligible, htables, allUsersPortalRole_groupUpdate]
      cases hgroup : t.database.allUsersGroup with
      | none =>
        refine .inl ?_
        rw [allUsersPortalRole, hgroup]
        rfl
      | some group =>
        have hall : allUsersPortalRole t.database accountId =
            (t.database.uiGroupS3Accounts group.id accountId).bind AccountLink.portalRole := by
          rw [allUsersPortalRole, hgroup]
          rfl
        rw [Option.bind_some, applyGroupUpdate_uiGroupS3Accounts]
        by_cases hid : group.id = groupId
        · rw [if_pos hid]
          cases hlinks : payload.accountLinks with
          | none => exact .inl hall.symm
          | some links =>
            cases hmember : t.database.userUiGroups user.id groupId with
            | false =>
              exact hcovered group links hgroup hid hlinks user huser heligible hmember accountId haccount
            | true =>
              -- a stored member is captured on every account the group is or was linked to
              rw [hscope, hlinks] at hout
              have hnot : ¬ accountId ∈ t.existingAccountIds groupId ++ links.map Prod.fst := fun h =>
                hout ⟨List.mem_append_left _ (List.mem_filter.mpr
                  ⟨List.mem_map_of_mem huser, hmember⟩), h⟩
              rw [List.mem_append, not_or] at hnot
              have hold : t.database.uiGroupS3Accounts groupId accountId = none := by
                by_contra hlink
                exact hnot.1 (List.mem_filter.mpr ⟨haccount, Option.isSome_iff_ne_none.mpr hlink⟩)
              refine .inl ?_
              rw [hall, hid, hold]
              show (desiredLink links accountId).bind _ = _
              rw [desiredLink_eq_none hnot.2]
        · rw [if_neg hid]
          exact .inl hall.symm
    · rw [if_neg heligible, if_neg heligible]
      exact .inl rfl

/-- Outside the captured pairs every role is kept exactly when no role of the group of all users
escapes them. -/
theorem rolesKeptOutside_iff {t : Tables} {mutation : Mutation} {plan : Plan}
    (hplan : mutation.plan t = .ok plan) : RolesKeptOutside t plan ↔ mutation.Covered t := by
  cases mutation with
  | assignAccount userId accountId accountAdministrator portalRole => exact assignAccount_iff hplan
  | updateUser userId payload => exact updateUser_iff hplan
  | createGroup groupId payload => exact iff_of_true (createGroup_kept hplan) trivial
  | updateGroup groupId payload => exact updateGroup_iff hplan
  | deleteGroup groupId => exact iff_of_true (deleteGroup_kept hplan) trivial

theorem portalUser_hasRole :
    false = true ∨ (some PortalAccountRole.portalUser).isSome = true := .inr rfl

/-- User 1 has no workspace, and the group of all users is a Portal user of account 3. -/
def everyoneTables : Tables where
  database :=
    { users := [⟨1, true, .uiNone⟩]
      distinctUsers := by decide
      uiGroups := [⟨7, "everyone", true⟩]
      uiGroupS3Accounts := fun group account =>
        if group = 7 ∧ account = 3 then some ⟨false, some .portalUser, portalUser_hasRole⟩ else none }
  distinctGroups := by decide
  s3Accounts := [2, 3]

/-- The first link of a user without a workspace gives it a role on an account nobody captured. -/
theorem rolesKeptOutside_iff_everyone :
    ∃ plan, (Mutation.assignAccount 1 2 true none).plan everyoneTables = .ok plan ∧
      ¬ RolesKeptOutside everyoneTables plan := by
  refine ⟨_, rfl, fun hkept => ?_⟩
  have hcovered := (@rolesKeptOutside_iff everyoneTables (.assignAccount 1 2 true none) _ rfl).mp hkept
  exact absurd (hcovered ⟨1, true, .uiNone⟩ (by decide) rfl rfl rfl 3 (by decide) (by decide)) (by decide)

end RoleSync
end BucketReef

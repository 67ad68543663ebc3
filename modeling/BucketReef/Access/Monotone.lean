import BucketReef.Access.Rights

/-!
# More rows grant more

Adding one link, membership or grant keeps every right of every user. With the equality of resolving
users together and alone, this is what the callers of `resolve_users` rely on.
-/

namespace BucketReef
namespace Access

open Portal (UserRole PortalAccountRole maxPortalAccountRole)

/-! ## Changes -/

/-- One row or one feature column of a group more. -/
inductive Change
  | userS3Account (link : Link AccountGrant)
  | userS3User (link : Link Bool)
  | userS3Connection (link : Link Unit)
  | userUiGroup (link : Link Unit)
  | uiGroupS3Account (link : Link AccountGrant)
  | uiGroupS3User (link : Link Bool)
  | uiGroupS3Connection (link : Link Unit)
  | uiGroupFeature (groupId : ℕ) (feature : Feature)

def UiGroup.grantFeature (group : UiGroup) (groupId : ℕ) (feature : Feature) : UiGroup :=
  if group.id = groupId then
    { group with features := fun other => other = feature || group.features other }
  else group

theorem UiGroup.grantFeature_id (group : UiGroup) (groupId : ℕ) (feature : Feature) :
    (group.grantFeature groupId feature).id = group.id := by
  unfold grantFeature
  split <;> rfl

theorem UiGroup.grantFeature_systemKey (group : UiGroup) (groupId : ℕ) (feature : Feature) :
    (group.grantFeature groupId feature).systemKey = group.systemKey := by
  unfold grantFeature
  split <;> rfl

namespace Database

/-- `none` when a unique constraint fails. -/
def add (db : Database) : Change → Option Database
  | .userS3Account link => (db.userS3Accounts.insert link).map fun table =>
    { db with userS3Accounts := table }
  | .userS3User link => (db.userS3Users.insert link).map fun table => { db with userS3Users := table }
  | .userS3Connection link => (db.userS3Connections.insert link).map fun table =>
    { db with userS3Connections := table }
  | .userUiGroup link => (db.userUiGroups.insert link).map fun table => { db with userUiGroups := table }
  | .uiGroupS3Account link => (db.uiGroupS3Accounts.insert link).map fun table =>
    { db with uiGroupS3Accounts := table }
  | .uiGroupS3User link => (db.uiGroupS3Users.insert link).map fun table =>
    { db with uiGroupS3Users := table }
  | .uiGroupS3Connection link => (db.uiGroupS3Connections.insert link).map fun table =>
    { db with uiGroupS3Connections := table }
  | .uiGroupFeature groupId feature => some { db with
      uiGroups := db.uiGroups.map fun group => group.grantFeature groupId feature
      groupIds := by
        rw [List.map_map]
        refine (List.map_congr_left fun group _ => ?_) ▸ db.groupIds
        exact (group.grantFeature_id groupId feature).symm
      systemKeys := by
        rw [List.filterMap_map]
        refine (List.filterMap_congr fun group _ => ?_) ▸ db.systemKeys
        exact (group.grantFeature_systemKey groupId feature).symm }

/-- Every row and every feature of a group is still there. -/
structure Grows (db db' : Database) : Prop where
  userUiGroups : ∀ link ∈ db.userUiGroups.rows, link ∈ db'.userUiGroups.rows
  userS3Accounts : ∀ link ∈ db.userS3Accounts.rows, link ∈ db'.userS3Accounts.rows
  uiGroupS3Accounts : ∀ link ∈ db.uiGroupS3Accounts.rows, link ∈ db'.uiGroupS3Accounts.rows
  userS3Users : ∀ link ∈ db.userS3Users.rows, link ∈ db'.userS3Users.rows
  uiGroupS3Users : ∀ link ∈ db.uiGroupS3Users.rows, link ∈ db'.uiGroupS3Users.rows
  userS3Connections : ∀ link ∈ db.userS3Connections.rows, link ∈ db'.userS3Connections.rows
  uiGroupS3Connections : ∀ link ∈ db.uiGroupS3Connections.rows, link ∈ db'.uiGroupS3Connections.rows
  s3Connections : db'.s3Connections = db.s3Connections
  uiGroups : ∀ group ∈ db.uiGroups, ∃ group' ∈ db'.uiGroups, group'.id = group.id ∧
    group'.name = group.name ∧ group'.systemKey = group.systemKey ∧
    ∀ feature, group.features feature = true → group'.features feature = true

theorem Table.subset_insert {α : Type} {table table' : Table α} {link : Link α}
    (h : table.insert link = some table') : ∀ other ∈ table.rows, other ∈ table'.rows := by
  unfold Table.insert at h
  split at h
  · cases h
  · cases h
    exact fun other hother => List.mem_append_left _ hother

theorem Grows.refl (db : Database) : db.Grows db where
  userUiGroups _ h := h
  userS3Accounts _ h := h
  uiGroupS3Accounts _ h := h
  userS3Users _ h := h
  uiGroupS3Users _ h := h
  userS3Connections _ h := h
  uiGroupS3Connections _ h := h
  s3Connections := rfl
  uiGroups group h := ⟨group, h, rfl, rfl, rfl, fun _ hfeature => hfeature⟩

theorem add_grows {db db' : Database} {change : Change} (h : db.add change = some db') :
    db.Grows db' := by
  have hrefl := Grows.refl db
  cases change with
  | userS3Account link =>
    obtain ⟨table, htable, rfl⟩ := Option.map_eq_some_iff.mp h
    exact { hrefl with userS3Accounts := Table.subset_insert htable }
  | userS3User link =>
    obtain ⟨table, htable, rfl⟩ := Option.map_eq_some_iff.mp h
    exact { hrefl with userS3Users := Table.subset_insert htable }
  | userS3Connection link =>
    obtain ⟨table, htable, rfl⟩ := Option.map_eq_some_iff.mp h
    exact { hrefl with userS3Connections := Table.subset_insert htable }
  | userUiGroup link =>
    obtain ⟨table, htable, rfl⟩ := Option.map_eq_some_iff.mp h
    exact { hrefl with userUiGroups := Table.subset_insert htable }
  | uiGroupS3Account link =>
    obtain ⟨table, htable, rfl⟩ := Option.map_eq_some_iff.mp h
    exact { hrefl with uiGroupS3Accounts := Table.subset_insert htable }
  | uiGroupS3User link =>
    obtain ⟨table, htable, rfl⟩ := Option.map_eq_some_iff.mp h
    exact { hrefl with uiGroupS3Users := Table.subset_insert htable }
  | uiGroupS3Connection link =>
    obtain ⟨table, htable, rfl⟩ := Option.map_eq_some_iff.mp h
    exact { hrefl with uiGroupS3Connections := Table.subset_insert htable }
  | uiGroupFeature groupId feature =>
    cases h
    refine { hrefl with uiGroups := ?_ }
    intro group hgroup
    refine ⟨_, List.mem_map_of_mem hgroup, group.grantFeature_id groupId feature, ?_,
      group.grantFeature_systemKey groupId feature, ?_⟩
    · unfold UiGroup.grantFeature
      split <;> rfl
    · intro other hother
      unfold UiGroup.grantFeature
      split
      · simp [hother]
      · exact hother

end Database

variable {policies : ManagerFeaturePolicies} {db db' : Database} {user : User}

theorem member_mono (h : db.Grows db') {groupId : ℕ} (hmember : db.member user groupId = true) :
    db'.member user groupId = true := by
  obtain ⟨group, hgroup, rfl, hcase⟩ := Database.member_iff.mp hmember
  obtain ⟨group', hgroup', hid, _, hkey, _⟩ := h.uiGroups group hgroup
  refine Database.member_iff.mpr ⟨group', hgroup', hid, ?_⟩
  rw [hkey]
  exact hcase.imp_left (h.userUiGroups _)

theorem gives_mono (h : db.Grows db') {accountId : ℕ} {grant : AccountGrant}
    (hgives : db.Gives user accountId grant) : db'.Gives user accountId grant := by
  rcases hgives with hlink | ⟨groupId, hmember, hlink⟩
  · exact .inl (h.userS3Accounts _ hlink)
  · exact .inr ⟨groupId, member_mono h hmember, h.uiGroupS3Accounts _ hlink⟩

theorem granted_mono {α : Type} (h : db.Grows db') {directRows directRows' groupRows groupRows' :
    List (Link α)} {meets : Link α → Prop} (hdirect : ∀ link ∈ directRows, link ∈ directRows')
    (hgroup : ∀ link ∈ groupRows, link ∈ groupRows')
    (hgranted : db.Granted user directRows groupRows meets) :
    db'.Granted user directRows' groupRows' meets := by
  rcases hgranted with ⟨link, hlink, howner, hmeets⟩ | ⟨link, hlink, hmember, hmeets⟩
  · exact .inl ⟨link, hdirect link hlink, howner, hmeets⟩
  · exact .inr ⟨link, hgroup link hlink, member_mono h hmember, hmeets⟩

theorem resolveFeaturePolicy_mono (policy : FeaturePolicy) {flag flag' : Bool}
    (h : flag = true → flag' = true)
    (henabled : resolveFeaturePolicy policy (if flag then some true else none) = true) :
    resolveFeaturePolicy policy (if flag' then some true else none) = true := by
  cases policy <;> cases flag <;> cases flag' <;> simp_all [resolveFeaturePolicy]

theorem userOrGroupFlag_mono (h : db.Grows db') {feature : Feature}
    (hflag : userOrGroupFlag user (db.groupsOf user) feature = true) :
    userOrGroupFlag user (db'.groupsOf user) feature = true := by
  unfold userOrGroupFlag at *
  rw [Bool.or_eq_true, List.any_eq_true] at *
  rcases hflag with hdirect | ⟨group, hgroup, hfeature⟩
  · exact .inl hdirect
  · obtain ⟨hmem, hmember⟩ := mem_groupsOf.mp hgroup
    obtain ⟨group', hgroup', hid, _, _, hfeatures⟩ := h.uiGroups group hmem
    refine .inr ⟨group', mem_groupsOf.mpr ⟨hgroup', ?_⟩, hfeatures feature hfeature⟩
    rw [hid]
    exact member_mono h hmember

theorem resolveFeatureAccess_mono (h : db.Grows db') {feature : Feature}
    (henabled : resolveFeatureAccess policies user (db.groupsOf user) feature = true) :
    resolveFeatureAccess policies user (db'.groupsOf user) feature = true := by
  have hflag : userOrGroupFlag user (db.groupsOf user) feature = true →
      userOrGroupFlag user (db'.groupsOf user) feature = true := userOrGroupFlag_mono h
  unfold resolveFeatureAccess at *
  cases feature with
  | cephAdmin =>
    simp only [Bool.and_eq_true] at *
    exact henabled.imp_left hflag
  | storageOps =>
    simp only [Bool.and_eq_true] at *
    exact henabled.imp_left hflag
  | managerTool tool =>
    simp only [Bool.and_eq_true] at *
    exact henabled.imp_right (resolveFeaturePolicy_mono _ hflag)
  | browserAdvancedFeatures => exact hflag henabled
  | manualPrivateConnections =>
    simp only [Bool.and_eq_true] at *
    exact henabled.imp_right hflag
  | managedPrivateConnections =>
    simp only [Bool.and_eq_true] at *
    exact henabled.imp_right (resolveFeaturePolicy_mono _ hflag)
  | multisiteEndpointSwitching =>
    simp only [Bool.and_eq_true] at *
    exact henabled.imp_right hflag

/-! ## Rights -/

/-- `account_link_for(account_id)` -/
def ResolvedUserAccess.accountLinkFor (access : ResolvedUserAccess) (accountId : ℕ) :
    Option EffectiveAccountLink :=
  access.accountLinks.find? fun link => link.accountId = accountId

/-- Every right is still there, and no role is lower. -/
structure ResolvedUserAccess.Keeps (access access' : ResolvedUserAccess) : Prop where
  accounts : ∀ link ∈ access.accountLinks, ∃ link' ∈ access'.accountLinks,
    link'.accountId = link.accountId ∧ (link.managerRole = true → link'.managerRole = true) ∧
    (link.managerBrowserAllowed = true → link'.managerBrowserAllowed = true) ∧
    ∀ role, link.portalRole = some role →
      ∃ role', link'.portalRole = some role' ∧ role.rank ≤ role'.rank
  s3Users : access.s3UserIds ⊆ access'.s3UserIds
  browser : access.managerBrowserS3UserIds ⊆ access'.managerBrowserS3UserIds
  connections : access.s3ConnectionIds ⊆ access'.s3ConnectionIds
  features : ∀ feature, access.features feature = true → access'.features feature = true
  owned : access'.hasOwnedPrivateConnections = access.hasOwnedPrivateConnections
  groups : access.groupDetails ⊆ access'.groupDetails

theorem describes_keeps (h : db.Grows db') {access access' : ResolvedUserAccess}
    (haccess : Describes policies db user access) (haccess' : Describes policies db' user access') :
    access.Keeps access' where
  accounts link hlink := by
    have hfacts := haccess.links link hlink
    obtain ⟨grant, hgives⟩ := hfacts.given
    obtain ⟨link', hlink', hid⟩ := haccess'.accounts _ grant (gives_mono h hgives)
    have hfacts' := haccess'.links link' hlink'
    refine ⟨link', hlink', hid, ?_, ?_, ?_⟩
    · intro hmanager
      obtain ⟨grant, hgives, hadmin⟩ := hfacts.manager.mp hmanager
      exact hfacts'.manager.mpr ⟨grant, hid ▸ gives_mono h hgives, hadmin⟩
    · intro hbrowser
      obtain ⟨grant, hgives, hallow⟩ := hfacts.browser.mp hbrowser
      exact hfacts'.browser.mpr ⟨grant, hid ▸ gives_mono h hgives, hallow⟩
    · intro role hrole
      have hportal := hfacts.portal
      rw [hrole] at hportal
      obtain ⟨grant, hgives, hsome⟩ := hportal.1
      have hmore : ∃ grant, db'.Gives user link'.accountId grant ∧ grant.portalRole = some role :=
        ⟨grant, hid ▸ gives_mono h hgives, hsome⟩
      have hportal' := hfacts'.portal
      cases hrole' : link'.portalRole with
      | none =>
        rw [hrole'] at hportal'
        exact absurd hmore (hportal' role)
      | some role' =>
        rw [hrole'] at hportal'
        exact ⟨role', rfl, hportal'.2 role hmore⟩
  s3Users id hid := (haccess'.s3Users id).mpr
    (granted_mono h h.userS3Users h.uiGroupS3Users ((haccess.s3Users id).mp hid))
  browser id hid := (haccess'.browser id).mpr
    (granted_mono h h.userS3Users h.uiGroupS3Users ((haccess.browser id).mp hid))
  connections id hid := by
    have hshared : ∀ link, db'.isShared link = db.isShared link := by
      intro link
      unfold Database.isShared
      rw [h.s3Connections]
    refine (haccess'.connections id).mpr (granted_mono h ?_ ?_ ((haccess.connections id).mp hid))
    · intro link hlink
      rw [List.mem_filter] at hlink ⊢
      rw [hshared]
      exact hlink.imp_left (h.userS3Connections link)
    · intro link hlink
      rw [List.mem_filter] at hlink ⊢
      rw [hshared]
      exact hlink.imp_left (h.uiGroupS3Connections link)
  features feature henabled := by
    rw [haccess.features] at henabled
    rw [haccess'.features]
    exact resolveFeatureAccess_mono h henabled
  owned := by
    rw [haccess.owned, haccess'.owned]
    unfold Database.ownsPrivate
    rw [h.s3Connections]
  groups pair hpair := by
    obtain ⟨group, hgroup, hmember, rfl⟩ := haccess.groupIds pair hpair
    obtain ⟨group', hgroup', hid, hname, _⟩ := h.uiGroups group hgroup
    rw [← hid, ← hname]
    exact haccess'.groups group' hgroup' (hid ▸ member_mono h hmember)

/-! ## Together and alone -/

theorem resolveUser_eq (lower : String → String) (policies : ManagerFeaturePolicies) (db : Database)
    (user : User) : resolveUser lower policies db user = resolveAlone lower policies db user := by
  have hids : ([user].map User.id).Nodup := List.nodup_singleton _
  obtain ⟨d, hd, hget⟩ := mapM_entries (f := resolveAlone lower policies db) hids
    fun other _ => (resolveAlone_describes lower policies db other).imp fun _ h => h.1
  unfold resolveUser
  rw [resolveUsers_eq hids (.inr ⟨user, rfl⟩), hd]
  exact hget user List.mem_cons_self

/-- Users are resolved together as they are resolved alone, unless a membership is stored for a system
group. The Portal role of an account is the highest one that a direct row or a group, the system group
included, gives. One row more takes no right away. -/
theorem effective_access_agrees_and_grows (lower : String → String) (policies : ManagerFeaturePolicies)
    (db : Database) :
    (∀ (users : List User) (user : User), db.NoSystemLinks → (users.map User.id).Nodup →
      user ∈ users → ∃ resolved access, resolveUsers lower policies db users = some resolved ∧
        Dict.get? resolved user.id = some access ∧ resolveUser lower policies db user = some access) ∧
    (∀ (user : User) (access : ResolvedUserAccess),
      resolveUser lower policies db user = some access → ∀ accountId,
        IsHighest (fun role => ∃ grant, db.Gives user accountId grant ∧ grant.portalRole = some role)
          ((access.accountLinkFor accountId).bind EffectiveAccountLink.portalRole)) ∧
    ∀ (change : Change) (db' : Database), db.add change = some db' →
      ∀ (user : User) (access access' : ResolvedUserAccess),
        resolveUser lower policies db user = some access →
        resolveUser lower policies db' user = some access' → access.Keeps access' := by
  have hdescribes : ∀ (db : Database) (user : User) (access : ResolvedUserAccess),
      resolveUser lower policies db user = some access → Describes policies db user access := by
    intro db user access h
    obtain ⟨access', haccess', hfacts⟩ := resolveAlone_describes lower policies db user
    rw [resolveUser_eq, haccess'] at h
    cases h
    exact hfacts
  refine ⟨?_, ?_, ?_⟩
  · intro users user hlinks hids hmem
    obtain ⟨d, hd, hget⟩ := mapM_entries (f := resolveAlone lower policies db) hids
      fun other _ => (resolveAlone_describes lower policies db other).imp fun _ h => h.1
    obtain ⟨access, haccess, _⟩ := resolveAlone_describes lower policies db user
    refine ⟨d, access, ?_, ?_, ?_⟩
    · rw [resolveUsers_eq hids (.inl hlinks), hd]
    · rw [hget user hmem, haccess]
    · rw [resolveUser_eq, haccess]
  · intro user access haccess accountId
    have hfacts := hdescribes db user access haccess
    unfold ResolvedUserAccess.accountLinkFor
    cases hfind : access.accountLinks.find? fun link => link.accountId = accountId with
    | none =>
      rintro role ⟨grant, hgives, _⟩
      obtain ⟨link, hlink, hid⟩ := hfacts.accounts accountId grant hgives
      have := List.find?_eq_none.mp hfind link hlink
      simp [hid] at this
    | some link =>
      obtain rfl : link.accountId = accountId := of_decide_eq_true (List.find?_some hfind :)
      exact (hfacts.links link (List.mem_of_find?_eq_some hfind)).portal
  · intro change db' hadd user access access' haccess haccess'
    exact describes_keeps (Database.add_grows hadd) (hdescribes db user access haccess)
      (hdescribes db' user access' haccess')

/-! ### A team -/

/-- The system group reads an account that the team manages. -/
def team : Database where
  uiGroups := [⟨1, "All users", some allUsersSystemKey, fun _ => false⟩, ⟨2, "Team", none, fun _ => false⟩]
  userUiGroups := { rows := [⟨10, 2, ()⟩] }
  uiGroupS3Accounts := { rows := [⟨1, 5, { accountAdministrator := false, portalRole := some .portalUser }⟩,
    ⟨2, 5, { accountAdministrator := false, portalRole := some .portalManager }⟩] }

def teamPolicies : ManagerFeaturePolicies := ⟨.disabled, fun _ => .targeted⟩

theorem effective_access_agrees_and_grows_team :
    ∃ (resolved : Dict ℕ ResolvedUserAccess) (access access' : ResolvedUserAccess) (db' : Database),
      resolveUsers id teamPolicies team [⟨10, true, .uiUser, fun _ => false⟩,
        ⟨11, true, .uiUser, fun _ => false⟩] = some resolved ∧
      Dict.get? resolved 11 = some access ∧ team.add (.userUiGroup ⟨11, 2, ()⟩) = some db' ∧
      IsHighest (fun role => ∃ grant, team.Gives ⟨11, true, .uiUser, fun _ => false⟩ 5 grant ∧
        grant.portalRole = some role)
        ((access.accountLinkFor 5).bind EffectiveAccountLink.portalRole) ∧ access.Keeps access' := by
  have hlinks : team.NoSystemLinks := by
    intro link hlink group hgroup hid
    simp only [team, List.mem_singleton] at hlink
    subst hlink
    simp only [team, List.mem_cons, List.not_mem_nil, or_false] at hgroup
    rcases hgroup with rfl | rfl
    · cases hid
    · rfl
  obtain ⟨hagrees, hhighest, hgrows⟩ := effective_access_agrees_and_grows id teamPolicies team
  obtain ⟨resolved, access, hresolved, hget, halone⟩ := hagrees
    [⟨10, true, .uiUser, fun _ => false⟩, ⟨11, true, .uiUser, fun _ => false⟩]
    ⟨11, true, .uiUser, fun _ => false⟩ hlinks (by decide) (by simp)
  have hsome : (team.add (.userUiGroup ⟨11, 2, ()⟩)).isSome = true := by decide
  obtain ⟨db', hadd⟩ := Option.isSome_iff_exists.mp hsome
  obtain ⟨access', haccess', _⟩ := resolveAlone_describes id teamPolicies db'
    ⟨11, true, .uiUser, fun _ => false⟩
  refine ⟨resolved, access, access', db', hresolved, hget, hadd, hhighest _ access halone 5, ?_⟩
  exact hgrows _ db' hadd _ access access' halone ((resolveUser_eq ..).trans haccess')

end Access
end BucketReef

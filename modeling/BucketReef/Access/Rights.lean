import BucketReef.Access.Resolution

/-!
# The rights of a user

What `resolve_users` builds for a user depends on the tables and the user alone. It says which accounts,
S3 users, connections and features the user has: exactly those some direct row, or some row of a group
the user is a member of, grants.
-/

namespace BucketReef
namespace Access

open Portal (UserRole PortalAccountRole maxPortalAccountRole)

variable {lower : String → String} {policies : ManagerFeaturePolicies} {db : Database} {user : User}
  {users : List User}

/-! ## One user at a time -/

section Alone

variable (lower policies db user)

def resolveAlone : Option ResolvedUserAccess :=
  resolveLoaded lower policies user (db.groupsOf user) (db.accountsOf user) (db.s3UsersOf user)
    (db.connectionsOf user) (db.ownsPrivate user)

end Alone

theorem userById_eq (hids : (users.map User.id).Nodup) :
    users.foldl (fun byId user => Dict.set byId user.id user) ([] : Dict ℕ User) =
      users.map fun user => (user.id, user) := by
  have hgeneral : ∀ (rest : List User) (d : Dict ℕ User),
      (Dict.keys d ++ rest.map User.id).Nodup →
      rest.foldl (fun byId user => Dict.set byId user.id user) d =
        d ++ rest.map fun user => (user.id, user) := by
    intro rest
    induction rest with
    | nil => simp
    | cons user rest ih =>
      intro d hnodup
      have hnot : user.id ∉ Dict.keys d := fun hmem =>
        (List.nodup_append.mp hnodup).2.2 _ hmem _ List.mem_cons_self rfl
      rw [List.foldl_cons, Dict.set_of_notMem hnot, ih]
      · simp
      · simpa [Dict.keys] using hnodup
  exact hgeneral users [] hids

theorem mapM_entries {β : Type} {f : User → Option β} (hids : (users.map User.id).Nodup)
    (hsome : ∀ user ∈ users, ∃ b, f user = some b) :
    ∃ d : Dict ℕ β, ((users.map fun user => (user.id, user)).mapM fun entry =>
        (f entry.2).map fun b => (entry.1, b)) = some d ∧ ∀ user ∈ users, Dict.get? d user.id = f user := by
  induction users with
  | nil => exact ⟨[], rfl, nofun⟩
  | cons user users ih =>
    rw [List.map_cons, List.nodup_cons] at hids
    obtain ⟨b, hb⟩ := hsome user List.mem_cons_self
    obtain ⟨d, hd, hget⟩ := ih hids.2 fun other hother => hsome other (List.mem_cons_of_mem _ hother)
    refine ⟨(user.id, b) :: d, ?_, ?_⟩
    · rw [List.map_cons, List.mapM_cons, hb, hd]
      rfl
    · intro other hother
      unfold Dict.get?
      rcases List.mem_cons.mp hother with rfl | hother
      · rw [if_pos rfl, hb]
      · rw [if_neg, hget other hother]
        intro hid
        exact hids.1 (hid ▸ List.mem_map_of_mem hother)

theorem mapM_ext {α β : Type} {f g : α → Option β} {l : List α} (h : ∀ a ∈ l, f a = g a) :
    l.mapM f = l.mapM g := by
  induction l with
  | nil => rfl
  | cons a l ih =>
    rw [List.mapM_cons, List.mapM_cons, h a List.mem_cons_self,
      ih fun other hother => h other (List.mem_cons_of_mem _ hother)]

theorem resolveUsers_eq (hids : (users.map User.id).Nodup)
    (hlinks : db.NoSystemLinks ∨ ∃ user, users = [user]) :
    resolveUsers lower policies db users = (users.map fun user => (user.id, user)).mapM fun entry =>
      (resolveAlone lower policies db entry.2).map fun resolved => (entry.1, resolved) := by
  have hkeys : Dict.keys (users.map fun user => (user.id, user)) = users.map User.id := by
    simp [Dict.keys]
  have hvalues : Dict.values (users.map fun user => (user.id, user)) = users := by
    unfold Dict.values
    rw [List.map_map]
    exact List.map_id users
  unfold resolveUsers
  rw [userById_eq hids]
  dsimp only
  rw [hkeys, hvalues]
  refine mapM_ext ?_
  intro entry hentry
  obtain ⟨user, hmem, rfl⟩ := List.mem_map.mp hentry
  have hindexes : db.Indexes user (db.loadGroupMemberships users) := by
    refine Database.indexes_load hids hmem (hlinks.imp_right ?_)
    rintro ⟨other, rfl⟩
    rw [List.mem_singleton.mp hmem]
  have huserId : user.id ∈ users.map User.id := List.mem_map_of_mem hmem
  have howner : decide (user.id ∈ db.loadOwnedPrivateUserIds (users.map User.id)) =
      db.ownsPrivate user := by
    unfold Database.loadOwnedPrivateUserIds Database.ownsPrivate
    rw [Bool.eq_iff_iff, decide_eq_true_eq, List.mem_filter]
    exact ⟨fun h => h.2, fun h => ⟨huserId, h⟩⟩
  unfold resolveAlone
  dsimp only
  rw [hindexes.groups, howner]
  congr 2
  · exact Database.getD_attributeRows [] _ _ _ _ huserId hindexes
  · exact Database.getD_attributeRows ({} : S3UserGrants) _ _ _ _ huserId hindexes
  · exact Database.getD_attributeRows ({} : UserGrants) _ _ _ _ huserId hindexes

/-! ## Accounts -/

namespace Database

/-- A direct row, or a row of a group of the user, links the user to the account. -/
def Gives (db : Database) (user : User) (accountId : ℕ) (grant : AccountGrant) : Prop :=
  ⟨user.id, accountId, grant⟩ ∈ db.userS3Accounts.rows ∨
    ∃ groupId, db.member user groupId = true ∧
      ⟨groupId, accountId, grant⟩ ∈ db.uiGroupS3Accounts.rows

end Database

def setDirect (link : Link AccountGrant) (accumulator : AccountRoleAccumulator) :
    AccountRoleAccumulator :=
  { accumulator with
    directManagerRole := link.grant.accountAdministrator
    directPortalRole := link.grant.portalRole
    directAllowManagerBrowserDataAccess := link.grant.allowManagerBrowserDataAccess }

def groupRole (db : Database) (link : Link AccountGrant) : GroupRole where
  groupId := link.owner
  groupName := db.groupName link.owner
  managerRole := link.grant.accountAdministrator
  portalRole := link.grant.portalRole
  allowManagerBrowserDataAccess := link.grant.allowManagerBrowserDataAccess

def appendRole (db : Database) (link : Link AccountGrant) (accumulator : AccountRoleAccumulator) :
    AccountRoleAccumulator :=
  { accumulator with groupRoles := accumulator.groupRoles ++ [groupRole db link] }

/-- `_AccountRoleAccumulator(account_id=account_id)` -/
def emptyAccumulator (accountId : ℕ) : AccountRoleAccumulator := { accountId := accountId }

section Accounts

variable (db user)

def directRows : List (Link AccountGrant) :=
  db.userS3Accounts.rows.filter fun link => link.owner = user.id

def groupRows : List (Link AccountGrant) :=
  db.uiGroupS3Accounts.rows.filter fun link => db.member user link.owner

theorem accountsOf_eq : db.accountsOf user =
    Dict.group Link.target emptyAccumulator (appendRole db)
      (groupRows db user)
      (Dict.group Link.target emptyAccumulator setDirect
        (directRows db user) []) := rfl

end Accounts

theorem foldl_appendRole (rows : List (Link AccountGrant)) (accumulator : AccountRoleAccumulator) :
    rows.foldl (fun accumulator link => appendRole db link accumulator) accumulator =
      { accumulator with groupRoles := accumulator.groupRoles ++ rows.map (groupRole db) } := by
  induction rows generalizing accumulator with
  | nil => simp
  | cons link rows ih =>
    rw [List.foldl_cons, ih]
    simp [appendRole]

theorem foldl_setDirect {rows : List (Link AccountGrant)} {link : Link AccountGrant}
    (hmem : link ∈ rows) (hall : ∀ other ∈ rows, other = link) (accumulator : AccountRoleAccumulator) :
    rows.foldl (fun accumulator link => setDirect link accumulator) accumulator =
      setDirect link accumulator := by
  induction rows generalizing accumulator with
  | nil => cases hmem
  | cons first rows ih =>
    rw [List.foldl_cons, hall first List.mem_cons_self]
    by_cases hrest : link ∈ rows
    · rw [ih hrest fun other hother => hall other (List.mem_cons_of_mem _ hother)]
      rfl
    · have hnil : rows = [] := by
        refine List.eq_nil_iff_forall_not_mem.mpr fun other hother => hrest ?_
        rw [← hall other (List.mem_cons_of_mem _ hother)]
        exact hother
      rw [hnil, List.foldl_nil]

/-- What the accumulator of an account holds. -/
structure AccountFacts (db : Database) (user : User) (accountId : ℕ)
    (accumulator : AccountRoleAccumulator) : Prop where
  account : accumulator.accountId = accountId
  direct : (∃ grant, ⟨user.id, accountId, grant⟩ ∈ db.userS3Accounts.rows ∧
      accumulator.directManagerRole = grant.accountAdministrator ∧
      accumulator.directPortalRole = grant.portalRole ∧
      accumulator.directAllowManagerBrowserDataAccess = grant.allowManagerBrowserDataAccess ∧
      ∀ grant', ⟨user.id, accountId, grant'⟩ ∈ db.userS3Accounts.rows → grant' = grant) ∨
    (accumulator.directManagerRole = false ∧ accumulator.directPortalRole = none ∧
      ∀ grant, ⟨user.id, accountId, grant⟩ ∉ db.userS3Accounts.rows)
  groups : ∀ role, role ∈ accumulator.groupRoles ↔ ∃ groupId grant, db.member user groupId = true ∧
    ⟨groupId, accountId, grant⟩ ∈ db.uiGroupS3Accounts.rows ∧
    role = groupRole db ⟨groupId, accountId, grant⟩

theorem accountFacts (accountId : ℕ) : AccountFacts db user accountId
    (Dict.getD (db.accountsOf user) accountId (emptyAccumulator accountId)) := by
  have hget : Dict.getD (db.accountsOf user) accountId (emptyAccumulator accountId) =
      ((groupRows db user).filter fun link => link.target = accountId).foldl
        (fun accumulator link => appendRole db link accumulator)
        (((directRows db user).filter fun link => link.target = accountId).foldl
          (fun accumulator link => setDirect link accumulator) (emptyAccumulator accountId)) := by
    rw [accountsOf_eq, Dict.getD_group Link.target emptyAccumulator,
      Dict.getD_group Link.target emptyAccumulator]
    rfl
  rw [hget, foldl_appendRole]
  have hdirect : ∀ link : Link AccountGrant,
      link ∈ (directRows db user).filter (fun link => link.target = accountId) ↔
        link ∈ db.userS3Accounts.rows ∧ link.owner = user.id ∧ link.target = accountId := by
    intro link
    simp only [directRows, List.mem_filter, decide_eq_true_eq, and_assoc]
  have hgroup : ∀ role : GroupRole, role ∈ ((groupRows db user).filter fun link =>
      link.target = accountId).map (groupRole db) ↔ ∃ groupId grant, db.member user groupId = true ∧
        ⟨groupId, accountId, grant⟩ ∈ db.uiGroupS3Accounts.rows ∧
        role = groupRole db ⟨groupId, accountId, grant⟩ := by
    intro role
    simp only [groupRows, List.mem_map, List.mem_filter, decide_eq_true_eq]
    constructor
    · rintro ⟨⟨groupId, target, grant⟩, ⟨⟨hlink, hmember⟩, rfl⟩, rfl⟩
      exact ⟨groupId, grant, hmember, hlink, rfl⟩
    · rintro ⟨groupId, grant, hmember, hlink, rfl⟩
      exact ⟨_, ⟨⟨hlink, hmember⟩, rfl⟩, rfl⟩
  cases hrows : (directRows db user).filter (fun link => link.target = accountId) with
  | nil =>
    rw [hrows] at hdirect
    refine ⟨rfl, .inr ⟨rfl, rfl, ?_⟩, ?_⟩
    · intro grant hlink
      exact absurd ((hdirect _).mpr ⟨hlink, rfl, rfl⟩) List.not_mem_nil
    · exact hgroup
  | cons link rest =>
    have hlink := (hdirect link).mp (by rw [hrows]; exact List.mem_cons_self)
    have hunique : ∀ other ∈ link :: rest, other = link := by
      intro other hother
      rw [← hrows] at hother
      have hother := (hdirect other).mp hother
      refine List.inj_on_of_nodup_map db.userS3Accounts.unique hother.1 hlink.1 ?_
      unfold Link.key
      rw [hother.2.1, hother.2.2, hlink.2.1, hlink.2.2]
    rw [foldl_setDirect List.mem_cons_self hunique]
    refine ⟨rfl, .inl ⟨link.grant, ?_, rfl, rfl, rfl, ?_⟩, ?_⟩
    · have hsame : (⟨user.id, accountId, link.grant⟩ : Link AccountGrant) = link := by
        rw [← hlink.2.1, ← hlink.2.2]
      rw [hsame]
      exact hlink.1
    · intro grant hgrant
      have := hunique ⟨user.id, accountId, grant⟩ (by
        rw [← hrows]
        exact (hdirect _).mpr ⟨hgrant, rfl, rfl⟩)
      exact congrArg Link.grant this
    · exact hgroup

theorem mem_accounts_iff {accountId : ℕ} : accountId ∈ Dict.keys (db.accountsOf user) ↔
    ∃ grant, db.Gives user accountId grant := by
  rw [accountsOf_eq, Dict.mem_keys_group, Dict.mem_keys_group]
  unfold Database.Gives
  constructor
  · rintro ((hnil | ⟨⟨owner, target, grant⟩, hlink, rfl⟩) | ⟨⟨owner, target, grant⟩, hlink, rfl⟩)
    · cases hnil
    · obtain ⟨hlink, howner⟩ := List.mem_filter.mp hlink
      obtain rfl : owner = user.id := of_decide_eq_true howner
      exact ⟨grant, .inl hlink⟩
    · obtain ⟨hlink, hmember⟩ := List.mem_filter.mp hlink
      exact ⟨grant, .inr ⟨owner, hmember, hlink⟩⟩
  · rintro ⟨grant, hlink | ⟨groupId, hmember, hlink⟩⟩
    · exact .inl (.inr ⟨_, List.mem_filter.mpr ⟨hlink, by simp⟩, rfl⟩)
    · exact .inr ⟨_, List.mem_filter.mpr ⟨hlink, hmember⟩, rfl⟩

/-- `best` is the highest of the roles, and `none` when there is none. -/
def IsHighest (roles : PortalAccountRole → Prop) : Option PortalAccountRole → Prop
  | none => ∀ role, ¬ roles role
  | some best => roles best ∧ ∀ role, roles role → role.rank ≤ best.rank

theorem isHighest_maxPortalAccountRole (roles : List (Option PortalAccountRole)) :
    IsHighest (fun role => some role ∈ roles) (maxPortalAccountRole roles) := by
  cases hmax : maxPortalAccountRole roles with
  | none =>
    intro role hrole
    have := (Portal.maxPortalAccountRole_isSome_iff roles).mpr ⟨role, hrole⟩
    rw [hmax] at this
    cases this
  | some best =>
    cases best with
    | portalManager =>
      refine ⟨(Portal.maxPortalAccountRole_eq_manager_iff roles).mp hmax, ?_⟩
      intro role _
      cases role <;> decide
    | portalUser =>
      have hnot : some PortalAccountRole.portalManager ∉ roles := by
        intro hmanager
        rw [(Portal.maxPortalAccountRole_eq_manager_iff roles).mpr hmanager] at hmax
        cases hmax
      obtain ⟨role, hrole⟩ := (Portal.maxPortalAccountRole_isSome_iff roles).mp (by rw [hmax]; rfl)
      refine ⟨?_, ?_⟩
      · cases role with
        | portalUser => exact hrole
        | portalManager => exact absurd hrole hnot
      · intro role' hrole'
        cases role' with
        | portalUser => exact Nat.le_refl _
        | portalManager => exact absurd hrole' hnot

theorem IsHighest.congr {roles roles' : PortalAccountRole → Prop} {best : Option PortalAccountRole}
    (h : IsHighest roles best) (hsame : ∀ role, roles role ↔ roles' role) : IsHighest roles' best := by
  have : roles = roles' := funext fun role => propext (hsame role)
  rw [← this]
  exact h

/-- What a link of a resolved user says. -/
structure LinkFacts (db : Database) (user : User) (link : EffectiveAccountLink) : Prop where
  given : ∃ grant, db.Gives user link.accountId grant
  manager : link.managerRole = true ↔
    ∃ grant, db.Gives user link.accountId grant ∧ grant.accountAdministrator = true
  portal : IsHighest (fun role => ∃ grant, db.Gives user link.accountId grant ∧
    grant.portalRole = some role) link.portalRole
  browser : link.managerBrowserAllowed = true ↔ ∃ grant, db.Gives user link.accountId grant ∧
    grant.allowManagerBrowserDataAccess = true

theorem build_facts {accountId : ℕ} {accumulator : AccountRoleAccumulator}
    (h : AccountFacts db user accountId accumulator)
    (hgiven : ∃ grant, db.Gives user accountId grant) :
    ∃ link, accumulator.build lower = some link ∧ link.accountId = accountId ∧
      LinkFacts db user link := by
  have hmanager : (accumulator.directManagerRole || accumulator.groupRoles.any GroupRole.managerRole) =
      true ↔ ∃ grant, db.Gives user accountId grant ∧ grant.accountAdministrator = true := by
    rw [Bool.or_eq_true, List.any_eq_true]
    constructor
    · rintro (hdirect | ⟨role, hrole, hmanager⟩)
      · rcases h.direct with ⟨grant, hlink, heq, _⟩ | ⟨hfalse, _⟩
        · exact ⟨grant, .inl hlink, heq ▸ hdirect⟩
        · rw [hfalse] at hdirect
          cases hdirect
      · obtain ⟨groupId, grant, hmember, hlink, rfl⟩ := (h.groups role).mp hrole
        exact ⟨grant, .inr ⟨groupId, hmember, hlink⟩, hmanager⟩
    · rintro ⟨grant, hlink | ⟨groupId, hmember, hlink⟩, hadmin⟩
      · rcases h.direct with ⟨grant', _, heq, _, _, hunique⟩ | ⟨_, _, hnone⟩
        · rw [hunique grant hlink] at hadmin
          exact .inl (heq.trans hadmin)
        · exact absurd hlink (hnone grant)
      · exact .inr ⟨_, (h.groups _).mpr ⟨groupId, grant, hmember, hlink, rfl⟩, hadmin⟩
  have hportal : ∀ role, some role ∈ accumulator.directPortalRole ::
      accumulator.groupRoles.map GroupRole.portalRole ↔
      ∃ grant, db.Gives user accountId grant ∧ grant.portalRole = some role := by
    intro role
    rw [List.mem_cons, List.mem_map]
    constructor
    · rintro (hdirect | ⟨source, hsource, hrole⟩)
      · rcases h.direct with ⟨grant, hlink, _, heq, _⟩ | ⟨_, hnone, _⟩
        · exact ⟨grant, .inl hlink, heq ▸ hdirect.symm⟩
        · rw [hnone] at hdirect
          cases hdirect
      · obtain ⟨groupId, grant, hmember, hlink, rfl⟩ := (h.groups source).mp hsource
        exact ⟨grant, .inr ⟨groupId, hmember, hlink⟩, hrole⟩
    · rintro ⟨grant, hlink | ⟨groupId, hmember, hlink⟩, hrole⟩
      · rcases h.direct with ⟨grant', _, _, heq, _, hunique⟩ | ⟨_, _, hnone⟩
        · rw [hunique grant hlink] at hrole
          exact .inl (hrole ▸ heq.symm)
        · exact absurd hlink (hnone grant)
      · exact .inr ⟨_, (h.groups _).mpr ⟨groupId, grant, hmember, hlink, rfl⟩, hrole⟩
  have hhighest := (isHighest_maxPortalAccountRole (accumulator.directPortalRole ::
    accumulator.groupRoles.map GroupRole.portalRole)).congr hportal
  have hrole : ¬ ((accumulator.directManagerRole ||
      accumulator.groupRoles.any GroupRole.managerRole) = false ∧
      maxPortalAccountRole (accumulator.directPortalRole ::
        accumulator.groupRoles.map GroupRole.portalRole) = none) := by
    rintro ⟨hno, hnone⟩
    obtain ⟨grant, hgives⟩ := hgiven
    rcases grant.hasRole with hadmin | hsome
    · rw [hmanager.mpr ⟨grant, hgives, hadmin⟩] at hno
      cases hno
    · obtain ⟨role, hsome⟩ := Option.isSome_iff_exists.mp hsome
      rw [hnone] at hhighest
      exact hhighest role ⟨grant, hgives, hsome⟩
  unfold AccountRoleAccumulator.build
  dsimp only
  rw [if_neg hrole]
  refine ⟨_, rfl, h.account, ?_⟩
  refine ⟨?_, ?_, ?_, ?_⟩
  · dsimp only
    rw [h.account]
    exact hgiven
  · dsimp only
    rw [h.account]
    exact hmanager
  · dsimp only
    rw [h.account]
    exact hhighest
  · unfold EffectiveAccountLink.managerBrowserAllowed
    dsimp only
    rw [h.account, Bool.or_eq_true, List.any_map, List.any_eq_true]
    constructor
    · rintro (hdirect | ⟨role, hrole, hallow⟩)
      · rw [Bool.and_eq_true] at hdirect
        rcases h.direct with ⟨grant, hlink, _, _, heq, _⟩ | ⟨hfalse, _⟩
        · exact ⟨grant, .inl hlink, heq ▸ hdirect.2⟩
        · rw [hfalse] at hdirect
          cases hdirect.1
      · obtain ⟨groupId, grant, hmember, hlink, rfl⟩ :=
          (h.groups role).mp (List.mem_mergeSort.mp hrole)
        exact ⟨grant, .inr ⟨groupId, hmember, hlink⟩, ((Bool.and_eq_true _ _).mp hallow).2⟩
    · rintro ⟨grant, hlink | ⟨groupId, hmember, hlink⟩, hallow⟩
      · rcases h.direct with ⟨grant', _, heq, _, heq', hunique⟩ | ⟨_, _, hnone⟩
        · rw [hunique grant hlink] at hallow
          left
          rw [heq, heq', hallow, grant'.browserRole hallow]
          rfl
        · exact absurd hlink (hnone grant)
      · refine .inr ⟨_, List.mem_mergeSort.mpr
          ((h.groups _).mpr ⟨groupId, grant, hmember, hlink, rfl⟩), ?_⟩
        show (grant.accountAdministrator && grant.allowManagerBrowserDataAccess) = true
        rw [hallow, grant.browserRole hallow]
        rfl

/-! ## What a resolved user has -/

namespace Database

/-- A direct row of the user, or a row of one of its groups, meets the condition. -/
def Granted {α : Type} (db : Database) (user : User) (directRows groupRows : List (Link α))
    (meets : Link α → Prop) : Prop :=
  (∃ link ∈ directRows, link.owner = user.id ∧ meets link) ∨
    ∃ link ∈ groupRows, db.member user link.owner = true ∧ meets link

end Database

theorem foldl_iff {ρ β : Type} {P : β → Prop} {f : β → ρ → β} {Q : ρ → Prop}
    (h : ∀ v row, P (f v row) ↔ P v ∨ Q row) (rows : List ρ) (v : β) :
    P (rows.foldl f v) ↔ P v ∨ ∃ row ∈ rows, Q row := by
  induction rows generalizing v with
  | nil => simp
  | cons row rows ih =>
    rw [List.foldl_cons, ih, h, or_assoc]
    simp

theorem attributed_iff {α β : Type} {P : β → Prop} {meets : Link α → Prop} {default : β}
    {direct : Link α → β → β} {group : String → Link α → β → β} {directRows groupRows : List (Link α)}
    (hdefault : ¬ P default) (hdirect : ∀ v link, P (direct link v) ↔ P v ∨ meets link)
    (hgroup : ∀ name v link, P (group name link v) ↔ P v ∨ meets link) :
    P (db.attributed user default direct group directRows groupRows) ↔
      db.Granted user directRows groupRows meets := by
  unfold Database.attributed Database.Granted
  rw [foldl_iff (fun v link => hgroup _ v link), foldl_iff hdirect]
  simp only [hdefault, false_or, List.mem_filter, decide_eq_true_eq, and_assoc]

theorem mem_ids_add {grants : UserGrants} {target id : ℕ} {source : Source} :
    id ∈ (grants.add target source).ids ↔ id ∈ grants.ids ∨ target = id := by
  unfold UserGrants.add
  dsimp only
  rw [List.mem_insert_iff, or_comm, eq_comm]

theorem mem_sorted {ids : List ℕ} {id : ℕ} : id ∈ sorted ids ↔ id ∈ ids := List.mem_mergeSort

theorem mem_groupsOf {group : UiGroup} : group ∈ db.groupsOf user ↔
    group ∈ db.uiGroups ∧ db.member user group.id = true := by
  have hexplicit : ∀ other : UiGroup, other ∈ ((db.membershipRows.filter fun row =>
      row.1 = user.id).mergeSort Database.membershipLe).map Prod.snd ↔
      other ∈ db.uiGroups ∧ ⟨user.id, other.id, ()⟩ ∈ db.userUiGroups.rows := by
    intro other
    rw [List.mem_map]
    simp only [List.mem_mergeSort, List.mem_filter, Database.mem_membershipRows, decide_eq_true_eq]
    constructor
    · rintro ⟨⟨owner, found⟩, ⟨⟨hlink, hgroup⟩, rfl⟩, rfl⟩
      exact ⟨hgroup, hlink⟩
    · rintro ⟨hgroup, hlink⟩
      exact ⟨(user.id, other), ⟨⟨hlink, hgroup⟩, rfl⟩, rfl⟩
  have hmember : ∀ other ∈ db.uiGroups, db.member user other.id = true ↔
      ⟨user.id, other.id, ()⟩ ∈ db.userUiGroups.rows ∨
        other.systemKey = some allUsersSystemKey ∧ user.eligible = true := by
    intro other hother
    rw [Database.member_iff]
    constructor
    · rintro ⟨found, hfound, hid, hcase⟩
      rw [Database.group_eq hfound hother hid] at hcase
      exact hcase
    · exact fun hcase => ⟨other, hother, rfl, hcase⟩
  unfold Database.groupsOf
  cases hall : db.allUsersGroup with
  | none =>
    dsimp only
    rw [hexplicit]
    refine and_congr_right fun hgroup => ?_
    rw [hmember group hgroup]
    constructor
    · exact .inl
    · rintro (hlink | ⟨hkey, _⟩)
      · exact hlink
      · rw [Database.allUsersGroup_eq_some_iff.mpr ⟨hgroup, hkey⟩] at hall
        cases hall
  | some system =>
    obtain ⟨hsystem, hkey⟩ := Database.allUsersGroup_eq_some_iff.mp hall
    dsimp only
    split
    · rename_i hadd
      rw [List.mem_append, List.mem_singleton, hexplicit]
      constructor
      · rintro (⟨hgroup, hlink⟩ | rfl)
        · exact ⟨hgroup, (hmember _ hgroup).mpr (.inl hlink)⟩
        · exact ⟨hsystem, (hmember _ hsystem).mpr (.inr ⟨hkey, hadd.1⟩)⟩
      · rintro ⟨hgroup, hmem⟩
        rcases (hmember _ hgroup).mp hmem with hlink | ⟨hkey', _⟩
        · exact .inl ⟨hgroup, hlink⟩
        · exact .inr (Database.systemKey_eq db.systemKeys hgroup hsystem hkey' hkey)
    · rename_i hnot
      rw [hexplicit]
      refine and_congr_right fun hgroup => ?_
      rw [hmember group hgroup]
      constructor
      · exact .inl
      · rintro (hlink | ⟨hkey', hel⟩)
        · exact hlink
        · obtain rfl := Database.systemKey_eq db.systemKeys hgroup hsystem hkey' hkey
          simp only [hel, true_and, List.all_eq_true, not_forall, decide_eq_true_eq] at hnot
          obtain ⟨other, hother, hid⟩ := hnot
          obtain ⟨hgroup', hlink⟩ := (hexplicit other).mp hother
          rw [← Database.group_eq hgroup' hgroup (not_not.mp hid)]
          exact hlink

/-- What the tables give a user is what was resolved. -/
structure Describes (policies : ManagerFeaturePolicies) (db : Database) (user : User)
    (access : ResolvedUserAccess) : Prop where
  links : ∀ link ∈ access.accountLinks, LinkFacts db user link
  accounts : ∀ accountId grant, db.Gives user accountId grant →
    ∃ link ∈ access.accountLinks, link.accountId = accountId
  s3Users : ∀ id, id ∈ access.s3UserIds ↔ db.Granted user db.userS3Users.rows
    db.uiGroupS3Users.rows fun link => link.target = id
  browser : ∀ id, id ∈ access.managerBrowserS3UserIds ↔ db.Granted user db.userS3Users.rows
    db.uiGroupS3Users.rows fun link => link.grant = true ∧ link.target = id
  connections : ∀ id, id ∈ access.s3ConnectionIds ↔ db.Granted user
    (db.userS3Connections.rows.filter db.isShared) (db.uiGroupS3Connections.rows.filter db.isShared)
    fun link => link.target = id
  features : access.features = resolveFeatureAccess policies user (db.groupsOf user)
  owned : access.hasOwnedPrivateConnections = db.ownsPrivate user
  groups : ∀ group, group ∈ db.uiGroups → db.member user group.id = true →
    (group.id, group.name) ∈ access.groupDetails
  groupIds : ∀ pair ∈ access.groupDetails, ∃ group ∈ db.uiGroups,
    db.member user group.id = true ∧ pair = (group.id, group.name)

theorem mapM_spec {α β : Type} {f : α → Option β} {l : List α} (h : ∀ a ∈ l, ∃ b, f a = some b) :
    ∃ l', l.mapM f = some l' ∧ (∀ b ∈ l', ∃ a ∈ l, f a = some b) ∧
      ∀ a ∈ l, ∃ b ∈ l', f a = some b := by
  induction l with
  | nil => exact ⟨[], rfl, nofun, nofun⟩
  | cons a l ih =>
    obtain ⟨b, hb⟩ := h a List.mem_cons_self
    obtain ⟨l', hl', hback, hforth⟩ := ih fun other hother => h other (List.mem_cons_of_mem _ hother)
    refine ⟨b :: l', ?_, ?_, ?_⟩
    · rw [List.mapM_cons, hb, hl']
      rfl
    · intro b' hb'
      rcases List.mem_cons.mp hb' with rfl | hb'
      · exact ⟨a, List.mem_cons_self, hb⟩
      · obtain ⟨a', ha', hfa⟩ := hback b' hb'
        exact ⟨a', List.mem_cons_of_mem _ ha', hfa⟩
    · intro a' ha'
      rcases List.mem_cons.mp ha' with rfl | ha'
      · exact ⟨b, List.mem_cons_self, hb⟩
      · obtain ⟨b', hb', hfa⟩ := hforth a' ha'
        exact ⟨b', List.mem_cons_of_mem _ hb', hfa⟩

theorem resolveAlone_describes (lower : String → String) (policies : ManagerFeaturePolicies)
    (db : Database) (user : User) :
    ∃ access, resolveAlone lower policies db user = some access ∧
      Describes policies db user access := by
  have hnodup : (Dict.keys (db.accountsOf user)).Nodup := by
    rw [accountsOf_eq]
    exact Dict.nodup_keys_group _ _ _ (Dict.nodup_keys_group _ _ _ List.nodup_nil)
  have hvalue : ∀ accumulator ∈ Dict.values (db.accountsOf user), ∃ accountId,
      accountId ∈ Dict.keys (db.accountsOf user) ∧
        accumulator = Dict.getD (db.accountsOf user) accountId (emptyAccumulator accountId) := by
    intro accumulator hmem
    obtain ⟨entry, hentry, rfl⟩ := List.mem_map.mp hmem
    exact ⟨entry.1, List.mem_map_of_mem hentry, (Dict.getD_of_mem hnodup hentry _).symm⟩
  have hbuild : ∀ accumulator ∈ Dict.values (db.accountsOf user), ∃ link,
      accumulator.build lower = some link ∧ LinkFacts db user link := by
    intro accumulator hmem
    obtain ⟨accountId, hkey, rfl⟩ := hvalue accumulator hmem
    obtain ⟨link, hlink, _, hfacts⟩ := build_facts (accountFacts accountId) (mem_accounts_iff.mp hkey)
    exact ⟨link, hlink, hfacts⟩
  obtain ⟨links, hlinks, hback, hforth⟩ := mapM_spec fun accumulator hmem =>
    (hbuild accumulator hmem).imp fun _ h => h.1
  unfold resolveAlone resolveLoaded
  rw [hlinks]
  refine ⟨_, rfl, ?_⟩
  refine ⟨?_, ?_, ?_, ?_, ?_, rfl, rfl, ?_, ?_⟩
  · intro link hlink
    obtain ⟨accumulator, hmem, hsome⟩ := hback link (List.mem_mergeSort.mp hlink)
    obtain ⟨link', hsome', hfacts⟩ := hbuild accumulator hmem
    rw [hsome] at hsome'
    cases hsome'
    exact hfacts
  · intro accountId grant hgives
    have hkey := mem_accounts_iff.mpr ⟨grant, hgives⟩
    obtain ⟨entry, hentry, rfl⟩ := List.mem_map.mp hkey
    obtain ⟨link, hlink, hsome⟩ := hforth entry.2 (List.mem_map_of_mem hentry)
    refine ⟨link, List.mem_mergeSort.mpr hlink, ?_⟩
    rw [← Dict.getD_of_mem hnodup hentry (emptyAccumulator entry.1)] at hsome
    obtain ⟨link', hsome', haccount, _⟩ := build_facts (accountFacts entry.1) ⟨grant, hgives⟩
    rw [hsome] at hsome'
    cases hsome'
    exact haccount
  · intro id
    refine mem_sorted.trans ?_
    exact attributed_iff (P := fun grants : S3UserGrants => id ∈ grants.all.ids) (by simp)
      (fun _ _ => mem_ids_add) fun _ _ _ => mem_ids_add
  · intro id
    refine mem_sorted.trans ?_
    have hadd : ∀ (grants : S3UserGrants) (link : Link Bool) (source : Source),
        id ∈ (grants.add link source).browser.ids ↔
          id ∈ grants.browser.ids ∨ link.grant = true ∧ link.target = id := by
      intro grants link source
      unfold S3UserGrants.add
      by_cases hallow : link.grant = true
      · simp only [hallow, if_true, true_and]
        exact mem_ids_add
      · simp [hallow]
    exact attributed_iff (P := fun grants : S3UserGrants => id ∈ grants.browser.ids) (by simp)
      (fun _ _ => hadd _ _ _) fun _ _ _ => hadd _ _ _
  · intro id
    refine mem_sorted.trans ?_
    exact attributed_iff (P := fun grants : UserGrants => id ∈ grants.ids) (by simp)
      (fun _ _ => mem_ids_add) fun _ _ _ => mem_ids_add
  · intro group hgroup hmember
    exact List.mem_map_of_mem (mem_groupsOf.mpr ⟨hgroup, hmember⟩)
  · intro pair hpair
    obtain ⟨group, hgroup, rfl⟩ := List.mem_map.mp hpair
    obtain ⟨hmem, hmember⟩ := mem_groupsOf.mp hgroup
    exact ⟨group, hmem, hmember, rfl⟩

end Access
end BucketReef

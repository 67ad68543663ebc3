import BucketReef.Access.Grants
import Mathlib.Data.List.Sort

/-!
# Resolving many users at once

What the loader attributes to a user is a function of the tables and the user alone, as long as no
membership is stored for the system group. It follows that users are resolved together as they are
resolved one by one. The rights of a user are described by what grants them, and more rows grant more.
-/

namespace BucketReef
namespace Access

open Portal (UserRole PortalAccountRole maxPortalAccountRole)

/-- A stable sort by a total order, of some of the elements. -/
theorem filter_mergeSort {α : Type} {le : α → α → Bool} (htrans : ∀ a b c, le a b → le b c → le a c)
    (htotal : ∀ a b, le a b || le b a) {l : List α}
    (hanti : ∀ a ∈ l, ∀ b ∈ l, le a b → le b a → a = b) (p : α → Bool) :
    (l.mergeSort le).filter p = (l.filter p).mergeSort le := by
  have hleft : ((l.mergeSort le).filter p).Pairwise (fun a b => le a b = true) :=
    (List.pairwise_mergeSort htrans htotal l).filter p
  have hright : ((l.filter p).mergeSort le).Pairwise (fun a b => le a b = true) :=
    List.pairwise_mergeSort htrans htotal _
  have hperm : ((l.mergeSort le).filter p).Perm ((l.filter p).mergeSort le) :=
    ((List.mergeSort_perm l le).filter p).trans (List.mergeSort_perm _ le).symm
  refine List.Perm.eq_of_pairwise ?_ hleft hright hperm
  intro a b ha hb
  have hal : a ∈ l := List.mem_mergeSort.mp (List.mem_of_mem_filter ha)
  have hbl : b ∈ l := List.mem_of_mem_filter (List.mem_mergeSort.mp hb)
  exact hanti a hal b hbl

/-! ## What a user is a member of -/

namespace Database

/-- The user is stored as a member of the group, or the group stands for it. -/
def member (db : Database) (user : User) (groupId : ℕ) : Bool :=
  db.uiGroups.any fun group => group.id = groupId && (
    decide (⟨user.id, groupId, ()⟩ ∈ db.userUiGroups.rows) ||
      decide (group.systemKey = some allUsersSystemKey) && user.eligible)

/-- No stored membership is one of a system group. -/
def NoSystemLinks (db : Database) : Prop :=
  ∀ link ∈ db.userUiGroups.rows, ∀ group ∈ db.uiGroups, group.id = link.target →
    group.systemKey = none

variable {db : Database} {user : User} {users : List User}

theorem group_eq {group group' : UiGroup} (h : group ∈ db.uiGroups) (h' : group' ∈ db.uiGroups)
    (hid : group.id = group'.id) : group = group' :=
  List.inj_on_of_nodup_map db.groupIds h h' hid

theorem findGroup_eq_some_iff {groupId : ℕ} {group : UiGroup} :
    db.findGroup groupId = some group ↔ group ∈ db.uiGroups ∧ group.id = groupId := by
  unfold findGroup
  constructor
  · intro h
    exact ⟨List.mem_of_find?_eq_some h, of_decide_eq_true (List.find?_some h :)⟩
  · rintro ⟨hmem, rfl⟩
    cases hfind : db.uiGroups.find? fun other => other.id = group.id with
    | none =>
      have := List.find?_eq_none.mp hfind group hmem
      simp at this
    | some found =>
      rw [group_eq (List.mem_of_find?_eq_some hfind) hmem (of_decide_eq_true (List.find?_some hfind :))]

theorem systemKey_eq {l : List UiGroup} (hkeys : (l.filterMap UiGroup.systemKey).Nodup)
    {group group' : UiGroup} {key : String} (h : group ∈ l) (h' : group' ∈ l)
    (hkey : group.systemKey = some key) (hkey' : group'.systemKey = some key) : group = group' := by
  induction l with
  | nil => cases h
  | cons first l ih =>
    rw [List.filterMap_cons] at hkeys
    have hnotin : ∀ other ∈ l, other.systemKey = some key → first.systemKey ≠ some key := by
      intro other hother hsame hfirst
      rw [hfirst, List.nodup_cons] at hkeys
      exact hkeys.1 (List.mem_filterMap.mpr ⟨other, hother, hsame⟩)
    have hrest : (l.filterMap UiGroup.systemKey).Nodup := by
      cases hfirst : first.systemKey with
      | none =>
        rw [hfirst] at hkeys
        exact hkeys
      | some k =>
        rw [hfirst, List.nodup_cons] at hkeys
        exact hkeys.2
    rcases List.mem_cons.mp h with heq | hl <;> rcases List.mem_cons.mp h' with heq' | hl'
    · rw [heq, heq']
    · exact absurd (heq ▸ hkey) (hnotin group' hl' hkey')
    · exact absurd (heq' ▸ hkey') (hnotin group hl hkey)
    · exact ih hrest hl hl'

theorem allUsersGroup_eq_some_iff {group : UiGroup} :
    db.allUsersGroup = some group ↔
      group ∈ db.uiGroups ∧ group.systemKey = some allUsersSystemKey := by
  unfold allUsersGroup
  constructor
  · intro h
    exact ⟨List.mem_of_find?_eq_some h, of_decide_eq_true (List.find?_some h :)⟩
  · rintro ⟨hmem, hkey⟩
    cases hfind : db.uiGroups.find? fun other => other.systemKey = some allUsersSystemKey with
    | none =>
      have := List.find?_eq_none.mp hfind group hmem
      simp [hkey] at this
    | some found =>
      rw [systemKey_eq db.systemKeys (List.mem_of_find?_eq_some hfind) hmem
        (of_decide_eq_true (List.find?_some hfind :)) hkey]

theorem member_iff {groupId : ℕ} : db.member user groupId = true ↔
    ∃ group ∈ db.uiGroups, group.id = groupId ∧ (⟨user.id, groupId, ()⟩ ∈ db.userUiGroups.rows ∨
      group.systemKey = some allUsersSystemKey ∧ user.eligible = true) := by
  simp [member]

theorem mem_membershipRows {row : ℕ × UiGroup} : row ∈ db.membershipRows ↔
    ⟨row.1, row.2.id, ()⟩ ∈ db.userUiGroups.rows ∧ row.2 ∈ db.uiGroups := by
  unfold membershipRows
  rw [List.mem_filterMap]
  constructor
  · rintro ⟨link, hlink, hrow⟩
    obtain ⟨group, hgroup, rfl⟩ := Option.map_eq_some_iff.mp hrow
    obtain ⟨hmem, hid⟩ := findGroup_eq_some_iff.mp hgroup
    rw [hid]
    exact ⟨hlink, hmem⟩
  · rintro ⟨hlink, hgroup⟩
    refine ⟨_, hlink, ?_⟩
    rw [findGroup_eq_some_iff.mpr ⟨hgroup, rfl⟩]
    rfl

theorem nodup_membershipRows : db.membershipRows.Nodup := by
  unfold membershipRows
  have hrows : db.userUiGroups.rows.Nodup := List.Nodup.of_map _ db.userUiGroups.unique
  refine List.Nodup.filterMap ?_ hrows
  intro link link' row hrow hrow'
  obtain ⟨group, hgroup, rfl⟩ := Option.map_eq_some_iff.mp hrow
  obtain ⟨group', hgroup', hsame⟩ := Option.map_eq_some_iff.mp hrow'
  obtain ⟨howner, rfl⟩ := Prod.mk.injEq .. ▸ hsame
  obtain ⟨_, hid⟩ := findGroup_eq_some_iff.mp hgroup
  obtain ⟨_, hid'⟩ := findGroup_eq_some_iff.mp hgroup'
  obtain ⟨owner, target, _⟩ := link
  obtain ⟨owner', target', _⟩ := link'
  simp_all

theorem membershipLe_trans (a b c : ℕ × UiGroup) (h : membershipLe a b) (h' : membershipLe b c) :
    membershipLe a c := by
  unfold membershipLe at *
  exact decide_eq_true (le_trans (of_decide_eq_true h) (of_decide_eq_true h'))

theorem membershipLe_total (a b : ℕ × UiGroup) : membershipLe a b || membershipLe b a := by
  unfold membershipLe
  rw [Bool.or_eq_true, decide_eq_true_eq, decide_eq_true_eq]
  exact le_total _ _

theorem membershipLe_anti {a b : ℕ × UiGroup} (ha : a ∈ db.membershipRows)
    (hb : b ∈ db.membershipRows) (h : membershipLe a b) (h' : membershipLe b a) : a = b := by
  unfold membershipLe at h h'
  have hkey := le_antisymm (of_decide_eq_true h) (of_decide_eq_true h')
  obtain ⟨hfirst, hlast⟩ := Prod.mk.inj (toLex_inj.mp hkey)
  obtain ⟨_, hid⟩ := Prod.mk.inj (toLex_inj.mp hlast)
  exact Prod.ext hfirst (group_eq (mem_membershipRows.mp ha).2 (mem_membershipRows.mp hb).2 hid)

/-- The groups of a user, in their order. -/
def groupsOf (db : Database) (user : User) : List UiGroup :=
  let explicit := ((db.membershipRows.filter fun row => row.1 = user.id).mergeSort
    membershipLe).map Prod.snd
  match db.allUsersGroup with
  | none => explicit
  | some group =>
    if user.eligible = true ∧ explicit.all (fun other => other.id ≠ group.id) = true then
      explicit ++ [group]
    else explicit

def groupName (db : Database) (groupId : ℕ) : String :=
  ((db.findGroup groupId).map UiGroup.name).getD ""

/-! ## The index of the loader -/

/-- The index has what belongs to the user. -/
structure Indexes (db : Database) (user : User) (index : GroupMembershipIndex) : Prop where
  groups : Dict.getD index.groupsByUser user.id [] = db.groupsOf user
  nodup : ∀ groupId, (Dict.getD index.userIdsByGroup groupId []).Nodup
  member : ∀ groupId, user.id ∈ Dict.getD index.userIdsByGroup groupId [] ↔
    db.member user groupId = true
  names : ∀ groupId, user.id ∈ Dict.getD index.userIdsByGroup groupId [] →
    groupId ∈ index.groupIds ∧ Dict.getD index.groupNames groupId "" = db.groupName groupId

theorem getD_map_const {α : Type} (ids : List ℕ) (k : ℕ) (default : α) :
    Dict.getD (ids.map fun id => (id, default)) k default = default := by
  induction ids with
  | nil => rfl
  | cons id ids ih =>
    unfold Dict.getD Dict.get?
    by_cases h : id = k
    · rw [List.map_cons]
      simp [h]
    · rw [List.map_cons]
      simpa [Dict.get?, h, Dict.getD] using ih

theorem groupsByUser_explicit {userIds : List ℕ} (hmem : user.id ∈ userIds) :
    Dict.getD (Dict.group Prod.fst (fun _ => []) (fun row groups => groups ++ [row.2])
      ((db.membershipRows.filter fun row => row.1 ∈ userIds).mergeSort membershipLe)
      (userIds.map fun userId => (userId, ([] : List UiGroup)))) user.id [] =
    ((db.membershipRows.filter fun row => row.1 = user.id).mergeSort membershipLe).map Prod.snd := by
  have happend : ∀ (rows : List (ℕ × UiGroup)) (groups : List UiGroup),
      rows.foldl (fun groups row => groups ++ [row.2]) groups = groups ++ rows.map Prod.snd := by
    intro rows
    induction rows with
    | nil => simp
    | cons row rows ih =>
      intro groups
      rw [List.foldl_cons, ih, List.map_cons, List.append_assoc, List.singleton_append]
  rw [Dict.getD_group Prod.fst (fun _ => []), getD_map_const, happend, List.nil_append]
  congr 1
  rw [filter_mergeSort membershipLe_trans membershipLe_total]
  · congr 1
    rw [List.filter_filter]
    refine List.filter_congr fun row _ => ?_
    by_cases hrow : row.1 = user.id
    · simp [hrow, hmem]
    · simp [hrow]
  · intro a ha b hb h h'
    exact membershipLe_anti (List.mem_of_mem_filter ha) (List.mem_of_mem_filter hb) h h'

/-- The members the loader counts for a group before it looks at the system group. -/
def explicitIds (db : Database) (userIds : List ℕ) (groupId : ℕ) : List ℕ :=
  Dict.getD (Dict.group (fun row => row.2.id) (fun _ => []) (fun row ids => ids ++ [row.1])
    ((db.membershipRows.filter fun row => row.1 ∈ userIds).mergeSort membershipLe) []) groupId []

theorem explicitIds_eq (userIds : List ℕ) (groupId : ℕ) : db.explicitIds userIds groupId =
    (((db.membershipRows.filter fun row => row.1 ∈ userIds).mergeSort membershipLe).filter
      fun row => row.2.id = groupId).map Prod.fst := by
  have happend : ∀ (rows : List (ℕ × UiGroup)) (ids : List ℕ),
      rows.foldl (fun ids row => ids ++ [row.1]) ids = ids ++ rows.map Prod.fst := by
    intro rows
    induction rows with
    | nil => simp
    | cons row rows ih =>
      intro ids
      rw [List.foldl_cons, ih, List.map_cons, List.append_assoc, List.singleton_append]
  unfold explicitIds
  rw [Dict.getD_group (fun row : ℕ × UiGroup => row.2.id) (fun _ => []), happend]
  rfl

theorem mem_explicitIds {userIds : List ℕ} {groupId userId : ℕ} :
    userId ∈ db.explicitIds userIds groupId ↔ userId ∈ userIds ∧
      ⟨userId, groupId, ()⟩ ∈ db.userUiGroups.rows ∧ ∃ group ∈ db.uiGroups, group.id = groupId := by
  rw [explicitIds_eq, List.mem_map]
  simp only [List.mem_filter, List.mem_mergeSort, mem_membershipRows, decide_eq_true_eq]
  constructor
  · rintro ⟨row, ⟨⟨⟨hlink, hgroup⟩, hmem⟩, rfl⟩, rfl⟩
    exact ⟨hmem, hlink, row.2, hgroup, rfl⟩
  · rintro ⟨hmem, hlink, group, hgroup, rfl⟩
    exact ⟨(userId, group), ⟨⟨⟨hlink, hgroup⟩, hmem⟩, rfl⟩, rfl⟩

theorem nodup_explicitIds (userIds : List ℕ) (groupId : ℕ) :
    (db.explicitIds userIds groupId).Nodup := by
  rw [explicitIds_eq]
  refine List.Nodup.map_on ?_ (((List.mergeSort_perm _ _).nodup_iff.mpr
    (nodup_membershipRows.filter _)).filter _)
  intro a ha b hb hab
  simp only [List.mem_filter, List.mem_mergeSort, decide_eq_true_eq] at ha hb
  refine Prod.ext hab (group_eq (mem_membershipRows.mp ha.1.1).2 (mem_membershipRows.mp hb.1.1).2 ?_)
  rw [ha.2, hb.2]

theorem foldl_const {α ρ : Type} {value : ρ → α} {v : α} {rows : List ρ} (default : α)
    (hne : rows ≠ []) (h : ∀ row ∈ rows, value row = v) :
    rows.foldl (fun _ row => value row) default = v := by
  induction rows generalizing default with
  | nil => exact absurd rfl hne
  | cons row rows ih =>
    rw [List.foldl_cons]
    by_cases hrest : rows = []
    · subst hrest
      exact h row List.mem_cons_self
    · exact ih _ hrest fun other hother => h other (List.mem_cons_of_mem _ hother)

/-- A group with a counted member is in the index with its name. -/
theorem names_explicit {userIds : List ℕ} {groupId userId : ℕ}
    (h : userId ∈ db.explicitIds userIds groupId) :
    let names := Dict.group (fun row : ℕ × UiGroup => row.2.id) (fun _ => "")
      (fun row _ => row.2.name)
      ((db.membershipRows.filter fun row => row.1 ∈ userIds).mergeSort membershipLe) []
    groupId ∈ Dict.keys names ∧ Dict.getD names groupId "" = db.groupName groupId := by
  intro names
  rw [explicitIds_eq] at h
  obtain ⟨row, hrow, _⟩ := List.mem_map.mp h
  have hname : ∀ other : ℕ × UiGroup, other ∈ db.membershipRows → other.2.id = groupId →
      other.2.name = db.groupName groupId := by
    intro other hother hid
    unfold groupName
    rw [findGroup_eq_some_iff.mpr ⟨(mem_membershipRows.mp hother).2, hid⟩]
    rfl
  constructor
  · refine (Dict.mem_keys_group _ _ _ _ _).mpr (.inr ⟨row, List.mem_of_mem_filter hrow, ?_⟩)
    exact of_decide_eq_true (List.mem_filter.mp hrow).2
  · rw [Dict.getD_group (fun row : ℕ × UiGroup => row.2.id) (fun _ => "")]
    refine foldl_const _ (List.ne_nil_of_mem hrow) ?_
    intro other hother
    simp only [List.mem_filter, List.mem_mergeSort, decide_eq_true_eq] at hother
    exact hname other hother.1.1 hother.2

theorem mem_eligibleIds (hids : (users.map User.id).Nodup) (hmem : user ∈ users) :
    user.id ∈ (users.filter User.eligible).map User.id ↔ user.eligible = true := by
  rw [List.mem_map]
  constructor
  · rintro ⟨other, hother, hid⟩
    rw [← List.inj_on_of_nodup_map hids (List.mem_of_mem_filter hother) hmem hid]
    exact (List.mem_filter.mp hother).2
  · intro heligible
    exact ⟨user, List.mem_filter.mpr ⟨hmem, heligible⟩, rfl⟩

theorem indexes_load (hids : (users.map User.id).Nodup) (hmem : user ∈ users)
    (hlinks : db.NoSystemLinks ∨ users = [user]) :
    db.Indexes user (db.loadGroupMemberships users) := by
  have huserId : user.id ∈ users.map User.id := List.mem_map_of_mem hmem
  have heligible := mem_eligibleIds hids hmem
  unfold loadGroupMemberships
  cases hall : db.allUsersGroup with
  | none =>
    have hnone : ∀ group ∈ db.uiGroups, group.systemKey ≠ some allUsersSystemKey := by
      intro group hgroup hkey
      rw [allUsersGroup_eq_some_iff.mpr ⟨hgroup, hkey⟩] at hall
      cases hall
    have hmember : ∀ groupId, user.id ∈ db.explicitIds (users.map User.id) groupId ↔
        db.member user groupId = true := by
      intro groupId
      rw [mem_explicitIds, member_iff]
      constructor
      · rintro ⟨_, hlink, group, hgroup, hid⟩
        exact ⟨group, hgroup, hid, .inl hlink⟩
      · rintro ⟨group, hgroup, hid, hlink | ⟨hkey, _⟩⟩
        · exact ⟨huserId, hlink, group, hgroup, hid⟩
        · exact absurd hkey (hnone group hgroup)
    refine ⟨?_, ?_, ?_, ?_⟩
    · refine (groupsByUser_explicit huserId).trans ?_
      unfold groupsOf
      rw [hall]
    · exact nodup_explicitIds _
    · exact hmember
    · exact fun groupId h => names_explicit h
  | some group =>
    obtain ⟨hgroup, hkey⟩ := allUsersGroup_eq_some_iff.mp hall
    have hgroups : Dict.getD (Dict.group (fun userId => userId) (fun _ => [])
        (fun _ groups => if groups.all fun other => other.id ≠ group.id then groups ++ [group]
          else groups) ((users.filter User.eligible).map User.id)
        (Dict.group Prod.fst (fun _ => []) (fun row groups => groups ++ [row.2])
          ((db.membershipRows.filter fun row => row.1 ∈ users.map User.id).mergeSort membershipLe)
          ((users.map User.id).map fun userId => (userId, ([] : List UiGroup))))) user.id [] =
        db.groupsOf user := by
      rw [Dict.getD_group (fun userId => userId) (fun _ => []), groupsByUser_explicit huserId]
      unfold groupsOf
      rw [hall]
      have hnodup : ((users.filter User.eligible).map User.id).Nodup :=
        (List.filter_sublist.map User.id).nodup hids
      by_cases hel : user.eligible = true
      · rw [List.filter_eq, List.count_eq_one_of_mem hnodup (heligible.mpr hel), List.replicate_one,
          List.foldl_cons, List.foldl_nil]
        simp only [hel, true_and]
      · rw [List.filter_eq, List.count_eq_zero_of_not_mem fun hid => hel (heligible.mp hid),
          List.replicate_zero, List.foldl_nil]
        simp only [hel]
        rfl
    have hsystem : ∀ other ∈ db.uiGroups, other.systemKey = some allUsersSystemKey → other = group :=
      fun other hother hkey' => systemKey_eq db.systemKeys hother hgroup hkey' hkey
    have hexplicit : ∀ groupId, (groupId = group.id → user.eligible ≠ true) →
        (user.id ∈ db.explicitIds (users.map User.id) groupId ↔ db.member user groupId = true) := by
      intro groupId hnot
      rw [mem_explicitIds, member_iff]
      constructor
      · rintro ⟨_, hlink, other, hother, hid⟩
        exact ⟨other, hother, hid, .inl hlink⟩
      · rintro ⟨other, hother, rfl, hlink | ⟨hkey', hel⟩⟩
        · exact ⟨huserId, hlink, other, hother, rfl⟩
        · exact absurd hel (hnot (by rw [hsystem other hother hkey']))
    by_cases hnone : (users.filter User.eligible).map User.id = []
    · have hel : user.eligible ≠ true := by
        intro hel
        have := heligible.mpr hel
        rw [hnone] at this
        cases this
      dsimp only
      rw [if_pos hnone]
      refine ⟨hgroups, nodup_explicitIds _, fun groupId => hexplicit groupId fun _ => hel, ?_⟩
      exact fun groupId h => names_explicit h
    · dsimp only
      rw [if_neg hnone]
      have hids' : ∀ groupId, Dict.getD (Dict.modify (Dict.group (fun row : ℕ × UiGroup => row.2.id)
          (fun _ => []) (fun row ids => ids ++ [row.1])
          ((db.membershipRows.filter fun row => row.1 ∈ users.map User.id).mergeSort membershipLe) [])
          group.id [] fun _ => (users.filter User.eligible).map User.id) groupId [] =
          if group.id = groupId then (users.filter User.eligible).map User.id
          else db.explicitIds (users.map User.id) groupId := fun groupId => Dict.getD_modify ..
      refine ⟨hgroups, ?_, ?_, ?_⟩
      · intro groupId
        dsimp only
        rw [hids']
        split
        · exact (List.filter_sublist.map User.id).nodup hids
        · exact nodup_explicitIds _ _
      · intro groupId
        dsimp only
        rw [hids']
        by_cases hid : group.id = groupId
        · rw [if_pos hid, heligible, member_iff]
          constructor
          · exact fun hel => ⟨group, hgroup, hid, .inr ⟨hkey, hel⟩⟩
          · rintro ⟨other, hother, hother', hlink | ⟨_, hel⟩⟩
            · rcases hlinks with hlinks | rfl
              · have := hlinks _ hlink group hgroup hid
                rw [hkey] at this
                cases this
              · by_contra hel
                exact hnone (by simp [hel])
            · exact hel
        · rw [if_neg hid]
          exact hexplicit groupId fun h => absurd h.symm hid
      · intro groupId h
        unfold GroupMembershipIndex.groupIds
        dsimp only at h ⊢
        rw [hids'] at h
        rw [Dict.getD_modify]
        by_cases hid : group.id = groupId
        · rw [if_pos hid]
          refine ⟨(Dict.mem_keys_modify _ _ _ _ _).mpr (.inr hid.symm), ?_⟩
          unfold groupName
          rw [findGroup_eq_some_iff.mpr ⟨hgroup, hid⟩]
          rfl
        · rw [if_neg hid] at h ⊢
          obtain ⟨hkeys, hname⟩ := names_explicit h
          exact ⟨(Dict.mem_keys_modify _ _ _ _ _).mpr (.inl hkeys), hname⟩

/-! ## The grants of one user -/

/-- The loop over the rows of one user. -/
def attributed {α β : Type} (db : Database) (user : User) (default : β) (direct : Link α → β → β)
    (group : String → Link α → β → β) (directRows groupRows : List (Link α)) : β :=
  (groupRows.filter fun link => db.member user link.owner).foldl
    (fun v link => group (db.groupName link.owner) link v)
    ((directRows.filter fun link => link.owner = user.id).foldl (fun v link => direct link v) default)

theorem getD_attributeRows {α β : Type} (default : β) (direct : Link α → β → β)
    (group : String → Link α → β → β) (directRows groupRows : List (Link α)) {userIds : List ℕ}
    (hmem : user.id ∈ userIds) {index : GroupMembershipIndex} (h : db.Indexes user index) :
    Dict.getD (attributeRows default direct group directRows groupRows userIds index) user.id default =
      db.attributed user default direct group directRows groupRows := by
  have hdirect : Dict.getD (Dict.group Link.owner (fun _ => default) direct
      (directRows.filter fun link => link.owner ∈ userIds)
      (userIds.map fun userId => (userId, default))) user.id default =
      (directRows.filter fun link => link.owner = user.id).foldl (fun v link => direct link v)
        default := by
    rw [Dict.getD_group Link.owner (fun _ => default), getD_map_const, List.filter_filter]
    congr 1
    refine List.filter_congr fun link _ => ?_
    by_cases hlink : link.owner = user.id
    · simp [hlink, hmem]
    · simp [hlink]
  have hrows : ((groupRows.filter fun link => link.owner ∈ index.groupIds).filter fun link =>
      user.id ∈ Dict.getD index.userIdsByGroup link.owner []) =
      groupRows.filter fun link => db.member user link.owner := by
    rw [List.filter_filter]
    refine List.filter_congr fun link _ => ?_
    by_cases hlink : user.id ∈ Dict.getD index.userIdsByGroup link.owner []
    · simp [hlink, (h.names _ hlink).1, (h.member link.owner).mp hlink]
    · have hnot : db.member user link.owner ≠ true := fun hmember =>
        hlink ((h.member link.owner).mpr hmember)
      simp [hlink, hnot]
  unfold attributeRows attributed
  by_cases hempty : index.groupIds = []
  · have hnil : (groupRows.filter fun link => db.member user link.owner) = [] := by
      rw [← hrows]
      simp [hempty]
    rw [if_pos hempty, hnil, List.foldl_nil]
    exact hdirect
  · rw [if_neg hempty]
    refine (Dict.getD_groupAll default _ _ (fun link _ => h.nodup link.owner) _ _).trans ?_
    rw [hrows, hdirect]
    refine List.foldl_ext _ _ _ ?_
    intro v link hlink
    have hmember := (h.member link.owner).mpr (List.mem_filter.mp hlink).2
    rw [(h.names link.owner hmember).2]

def accountsOf (db : Database) (user : User) : Dict ℕ AccountRoleAccumulator :=
  db.attributed user [] addDirectRole addGroupRole db.userS3Accounts.rows db.uiGroupS3Accounts.rows

def s3UsersOf (db : Database) (user : User) : S3UserGrants :=
  db.attributed user {} (fun link grants => grants.add link { kind := .direct })
    (fun groupName link grants => grants.add link (groupSource groupName link.owner))
    db.userS3Users.rows db.uiGroupS3Users.rows

def connectionsOf (db : Database) (user : User) : UserGrants :=
  db.attributed user {} (fun link grants => grants.add link.target { kind := .direct })
    (fun groupName link grants => grants.add link.target (groupSource groupName link.owner))
    (db.userS3Connections.rows.filter db.isShared) (db.uiGroupS3Connections.rows.filter db.isShared)

def ownsPrivate (db : Database) (user : User) : Bool :=
  db.s3Connections.any fun connection =>
    connection.createdByUserId = some user.id && !connection.isShared

end Database

end Access
end BucketReef

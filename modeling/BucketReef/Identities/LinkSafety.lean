import BucketReef.Identities.ExternalLinks
import Mathlib.Data.List.Nodup

/-!
# Linking is safe

Each call changes the mappings in one of three ways: not at all, by a mapping of a subject that had
none, or in the columns of one mapping other than its key and user. Calls on requests and attempts are
described row by row. The four parts of the safety of linking follow from these.
-/

namespace BucketReef
namespace ExternalLinks

open Transitions

variable {settings : Settings} {s s' : Store} {label : Label}

/-! ## Calls that raise -/

theorem guard_bind_eq_some {p : Prop} [Decidable p] {α : Type} {rest : Option α} {a : α} :
    (guard p >>= fun _ => rest) = some a ↔ p ∧ rest = some a := by
  by_cases h : p <;> simp [guard, h]

theorem of_findIdx? {α : Type} {p : α → Bool} {l : List α} {i : ℕ} (h : l.findIdx? p = some i) :
    ∃ a, l[i]? = some a ∧ p a = true := by
  obtain ⟨hlt, hp, -⟩ := List.findIdx?_eq_some_iff_getElem.mp h
  exact ⟨l[i], List.getElem?_eq_getElem hlt, hp⟩

/-! ## What the calls do -/

theorem provisionIdentity_cases {userId : ℕ} {external : ExternalSubject} {restore : Bool}
    {linkSource : LinkSource} (h : provisionIdentity s userId external restore linkSource = some s') :
    (s' = s ∧ ∃ identity ∈ s.identities, identity.external.key = external.key) ∨
      (restore = true ∧ ∃ i identity, s.identities[i]? = some identity ∧
        identity.external.key = external.key ∧
          s' = { s with identities := s.identities.set i { identity with revoked := false } }) ∨
      ((∀ other ∈ s.identities, other.external.key ≠ external.key) ∧
        s' = closePending { s with identities := s.identities ++ [⟨userId, external, linkSource, false⟩] }
          userId external.key) := by
  unfold provisionIdentity at h
  obtain ⟨-, h⟩ := guard_bind_eq_some.mp h
  cases hfind : s.identities.findIdx? fun identity => identity.external.key = external.key with
  | some i =>
    obtain ⟨existing, hexisting, hkey⟩ := of_findIdx? hfind
    rw [decide_eq_true_eq] at hkey
    rw [hfind] at h
    simp only [restoreIdentity, hexisting, Option.bind_eq_bind, Option.bind_some] at h
    obtain ⟨-, h⟩ := guard_bind_eq_some.mp h
    split_ifs at h
    · cases h
      exact Or.inl ⟨rfl, existing, List.mem_of_getElem? hexisting, hkey⟩
    · obtain ⟨hrestore, h⟩ := guard_bind_eq_some.mp h
      obtain ⟨-, h⟩ := guard_bind_eq_some.mp h
      cases h
      exact Or.inr (Or.inl ⟨hrestore, i, existing, hexisting, hkey, rfl⟩)
  | none =>
    rw [hfind] at h
    cases h
    refine Or.inr (Or.inr ⟨?_, rfl⟩)
    intro other hin
    have := List.findIdx?_eq_none_iff.mp hfind other hin
    simpa using this

theorem linkChallenge_cases {userId : ℕ} {login : LoginRequest}
    (h : linkChallenge settings s userId login = some s') :
    (∃ hash, s' = createLoginCollisionAttempt settings s userId login.external hash ∨
      requestAdminApproval (createLoginCollisionAttempt settings s userId login.external hash)
        s.attempts.length login.browserSecretHash = some s') ∨
      s' = (requestInTransaction s userId login.external).1 := by
  unfold linkChallenge at h
  split at h
  · rename_i hash hhash
    refine Or.inl ⟨hash, ?_⟩
    dsimp only at h
    split_ifs at h
    · cases h
      exact Or.inl rfl
    · cases h
      cases hrequest : requestAdminApproval
        (createLoginCollisionAttempt settings s userId login.external hash)
        s.attempts.length login.browserSecretHash with
      | none => exact Or.inl rfl
      | some next => exact Or.inr rfl
  · split_ifs at h
    cases h
    exact Or.inr rfl

/-- A login lets in the user of an active mapping; for a subject without one, it makes a mapping or
starts a challenge. -/
theorem getOrCreate_cases {login : LoginRequest} {email : String} {user : Option ℕ}
    (h : getOrCreate settings s login email = some (s', user)) :
    (∃ identity, findMapping s login.external.key = some identity ∧ identity.revoked = false ∧
      s' = s ∧ user = some identity.userId) ∨
    (findMapping s login.external.key = none ∧
      ((s' = createJitIdentityUser s login email ∧ user = some s.users.length) ∨
        (∃ userId, provisionIdentity s userId login.external false .trustedEmail = some s' ∧
          user = some userId) ∨
        ∃ userId, linkChallenge settings s userId login = some s' ∧ user = none)) := by
  unfold getOrCreate at h
  cases hfind : findMapping s login.external.key with
  | some identity =>
    rw [hfind] at h
    dsimp only at h
    split_ifs at h with hrevoked
    cases h
    exact Or.inl ⟨identity, rfl, eq_false_of_ne_true hrevoked, rfl, rfl⟩
  | none =>
    rw [hfind] at h
    refine Or.inr ⟨rfl, ?_⟩
    dsimp only at h
    split at h
    · cases h
      exact Or.inl ⟨rfl, rfl⟩
    · split at h
      · cases h
        exact Or.inl ⟨rfl, rfl⟩
      · rename_i userId _
        split_ifs at h
        · obtain ⟨next, hnext, heq⟩ := Option.map_eq_some_iff.mp h
          cases heq
          exact Or.inr (Or.inl ⟨userId, hnext, rfl⟩)
        · obtain ⟨next, hnext, heq⟩ := Option.map_eq_some_iff.mp h
          cases heq
          exact Or.inr (Or.inr ⟨userId, hnext, rfl⟩)
      · cases h

theorem restoreIdentity_cases {id : ℕ} (h : restoreIdentity s id = some s') :
    ∃ identity, s.identities[id]? = some identity ∧
      s' = { s with identities := s.identities.set id { identity with revoked := false } } := by
  simp only [restoreIdentity, Option.bind_eq_bind, Option.bind_eq_some_iff] at h
  obtain ⟨identity, hidentity, -, -, h⟩ := h
  cases h
  exact ⟨identity, hidentity, rfl⟩

theorem revokeIdentity_cases {id : ℕ} (h : revokeIdentity s id = some s') :
    ∃ identity, s.identities[id]? = some identity ∧
      s' = { s with identities := s.identities.set id { identity with revoked := true } } := by
  simp only [revokeIdentity, Option.bind_eq_bind, Option.bind_eq_some_iff] at h
  obtain ⟨identity, hidentity, -, -, h⟩ := h
  cases h
  exact ⟨identity, hidentity, rfl⟩

theorem importIdentity_cases {userId : ℕ} {providerId subject : String}
    (h : importIdentity s userId providerId subject = some s') :
    findMapping s (.ldap providerId subject) = none ∧ s' = { s with
      identities := s.identities ++ [⟨userId, ⟨providerId, none, subject⟩, .administrator, false⟩] } := by
  unfold importIdentity at h
  obtain ⟨-, h⟩ := guard_bind_eq_some.mp h
  obtain ⟨hnone, h⟩ := guard_bind_eq_some.mp h
  cases h
  exact ⟨hnone, rfl⟩

/-- An open request is decided; an approval maps its subject to the user it names. -/
theorem decideRequest_cases {id : ℕ} {approve : Bool} (h : decideRequest s id approve = some s') :
    ∃ request, s.requests[id]? = some request ∧ request.isOpen s.now = true ∧
      ∃ status, status ≠ .pending ∧
        s'.requests = s.requests.set id { request with status := status } ∧
        s'.attempts = (syncAttemptDecision s request approve).attempts ∧
        (approve = false ∧ s'.identities = s.identities ∨
          approve = true ∧ findMapping s request.external.key = none ∧ s'.identities =
            s.identities ++ [⟨request.userId, request.external, .manualApproval, false⟩]) := by
  unfold decideRequest at h
  obtain ⟨request, hrequest, h⟩ := Option.bind_eq_some_iff.mp h
  obtain ⟨hopen, h⟩ := guard_bind_eq_some.mp h
  obtain ⟨-, h⟩ := guard_bind_eq_some.mp h
  refine ⟨request, hrequest, hopen, ?_⟩
  cases approve with
  | true =>
    obtain ⟨hnone, h⟩ := guard_bind_eq_some.mp h
    cases h
    exact ⟨.approved, nofun, rfl, rfl, Or.inr ⟨rfl, hnone, rfl⟩⟩
  | false =>
    cases h
    exact ⟨.rejected, nofun, rfl, rfl, Or.inl ⟨rfl, rfl⟩⟩

/-! ## Mappings -/

/-- How a call changes the mappings. -/
inductive IdentityChange (s : Store) (label : Label) : List ExternalIdentity → Prop
  | same : IdentityChange s label s.identities
  | insert (identity : ExternalIdentity) (hrevoked : identity.revoked = false)
      (hnew : ∀ other ∈ s.identities, other.external.key ≠ identity.external.key) :
      IdentityChange s label (s.identities ++ [identity])
  | update (i : ℕ) (identity identity' : ExternalIdentity) (hin : s.identities[i]? = some identity)
      (hkey : identity'.external.key = identity.external.key)
      (huser : identity'.userId = identity.userId)
      (hrevoked : identity.revoked = true →
        identity'.revoked = true ∨ restores s identity.external.key label = true) :
      IdentityChange s label (s.identities.set i identity')

theorem not_key_of_findMapping {key : SubjectKey} (h : findMapping s key = none) :
    ∀ other ∈ s.identities, other.external.key ≠ key := by
  intro other hin
  have := List.find?_eq_none.mp h other hin
  simpa using this

theorem identities_requestInTransaction (s : Store) (userId : ℕ) (external : ExternalSubject) :
    (requestInTransaction s userId external).1.identities = s.identities := by
  unfold requestInTransaction
  dsimp only
  split
  · rfl
  · split
    · rfl
    · split_ifs <;> rfl

theorem identities_closePending (s : Store) (userId : ℕ) (key : SubjectKey) :
    (closePending s userId key).identities = s.identities := by
  unfold closePending
  split <;> rfl

theorem identities_requestAdminApproval {id : ℕ} {hash : Option String}
    (h : requestAdminApproval s id hash = some s') : s'.identities = s.identities := by
  simp only [requestAdminApproval, Option.bind_eq_bind, Option.bind_eq_some_iff] at h
  obtain ⟨attempt, -, user, -, -, -, subject, -, h⟩ := h
  cases h
  exact identities_requestInTransaction s attempt.userId (attempt.external subject)

theorem change_provisionIdentity {userId : ℕ} {external : ExternalSubject} {restore : Bool}
    {linkSource : LinkSource} (h : provisionIdentity s userId external restore linkSource = some s')
    (hrestores : restore = true → restores s external.key label = true) :
    IdentityChange s label s'.identities := by
  rcases provisionIdentity_cases h with
    ⟨rfl, -⟩ | ⟨hrestore, i, identity, hidentity, hkey, rfl⟩ | ⟨hnew, rfl⟩
  · exact .same
  · exact .update i identity _ hidentity rfl rfl fun _ => Or.inr (hkey ▸ hrestores hrestore)
  · rw [identities_closePending]
    exact .insert _ rfl hnew

theorem change_upsertConfirmedIdentity {userId : ℕ} {external : ExternalSubject}
    (h : upsertConfirmedIdentity s userId external = some s') :
    (∀ label, IdentityChange s label s'.identities) ∧ s'.requests = s.requests ∧
      s'.attempts = s.attempts ∧ ∃ identity ∈ s'.identities, identity.external = external ∧ identity.userId = userId := by
  unfold upsertConfirmedIdentity at h
  cases hfind : s.identities.findIdx? fun identity => identity.external.key = external.key with
  | some i =>
    obtain ⟨identity, hidentity, hkey⟩ := of_findIdx? hfind
    rw [decide_eq_true_eq] at hkey
    rw [hfind] at h
    simp only [hidentity, Option.bind_eq_bind, Option.bind_some] at h
    obtain ⟨huser, h⟩ := guard_bind_eq_some.mp h
    obtain ⟨hrevoked, h⟩ := guard_bind_eq_some.mp h
    cases h
    refine ⟨fun _ => .update i identity _ hidentity hkey.symm rfl ?_, rfl, rfl,
      { identity with external := external }, ?_, rfl, huser⟩
    · intro h
      rw [hrevoked] at h
      cases h
    · obtain ⟨hlt, -⟩ := List.getElem?_eq_some_iff.mp hidentity
      exact List.mem_set hlt _
  | none =>
    rw [hfind] at h
    cases h
    refine ⟨fun _ => .insert _ rfl ?_, rfl, rfl, _, List.mem_append_right _ (List.mem_singleton_self _), rfl, rfl⟩
    intro other hin
    have := List.findIdx?_eq_none_iff.mp hfind other hin
    simpa using this

theorem change_decideRequest {id : ℕ} {approve : Bool} (h : decideRequest s id approve = some s') :
    IdentityChange s label s'.identities := by
  obtain ⟨request, -, -, status, -, -, -, ⟨-, hsame⟩ | ⟨-, hnone, hinsert⟩⟩ := decideRequest_cases h
  · rw [hsame]
    exact .same
  · rw [hinsert]
    exact .insert _ rfl (not_key_of_findMapping hnone)

theorem identities_linkChallenge {userId : ℕ} {login : LoginRequest}
    (h : linkChallenge settings s userId login = some s') : s'.identities = s.identities := by
  rcases linkChallenge_cases h with ⟨hash, rfl | hrequest⟩ | rfl
  · rfl
  · have hsame := identities_requestAdminApproval hrequest
    exact hsame
  · exact identities_requestInTransaction s userId login.external

theorem change_getOrCreate {login : LoginRequest} {email : String} {user : Option ℕ}
    (h : getOrCreate settings s login email = some (s', user)) :
    IdentityChange s label s'.identities := by
  rcases getOrCreate_cases h with
    ⟨identity, -, -, rfl, -⟩ | ⟨hnone, ⟨rfl, -⟩ | ⟨userId, hprovision, -⟩ | ⟨userId, hchallenge, -⟩⟩
  · exact .same
  · exact .insert _ rfl (not_key_of_findMapping hnone)
  · exact change_provisionIdentity hprovision nofun
  · rw [identities_linkChallenge hchallenge]
    exact .same

/-- The calls on an attempt that leave the mappings and the requests as they are. -/
theorem frame_attemptCalls (h : step settings s label = some s')
    (hlabel : match label with
      | .startFromProfile .. | .recordOidcIdentity .. | .verifyPassword .. | .verifyExternal ..
      | .markMfaVerified .. => True
      | _ => False) : s'.identities = s.identities ∧ s'.requests = s.requests := by
  cases label <;> simp only at hlabel
  all_goals
    simp only [step, createProfileAttempt, recordOidcIdentity, verifyPassword, verifyExternal, markProof,
      markMfaVerified, setAttempt, Option.bind_eq_bind, Option.bind_eq_some_iff] at h
  case startFromProfile =>
    obtain ⟨-, -, h⟩ := h
    cases h
    exact ⟨rfl, rfl⟩
  case recordOidcIdentity =>
    obtain ⟨attempt, -, -, -, -, -, -, -, -, -, h⟩ := h
    cases h
    exact ⟨rfl, rfl⟩
  case verifyPassword =>
    obtain ⟨attempt, -, user, -, -, -, -, -, h⟩ := h
    cases h
    exact ⟨rfl, rfl⟩
  case verifyExternal =>
    obtain ⟨attempt, -, user, -, -, -, -, -, h⟩ := h
    cases h
    exact ⟨rfl, rfl⟩
  case markMfaVerified =>
    obtain ⟨attempt, -, user, -, -, -, h⟩ := h
    cases h
    exact ⟨rfl, rfl⟩

theorem change_identities (h : step settings s label = some s') :
    IdentityChange s label s'.identities := by
  cases label with
  | login login email =>
    obtain ⟨⟨next, user⟩, hlogin, rfl⟩ := Option.map_eq_some_iff.mp h
    exact change_getOrCreate hlogin
  | startFromProfile => rw [(frame_attemptCalls h trivial).1]; exact .same
  | recordOidcIdentity => rw [(frame_attemptCalls h trivial).1]; exact .same
  | verifyPassword => rw [(frame_attemptCalls h trivial).1]; exact .same
  | verifyExternal => rw [(frame_attemptCalls h trivial).1]; exact .same
  | markMfaVerified => rw [(frame_attemptCalls h trivial).1]; exact .same
  | requestAdminApproval id hash =>
    rw [identities_requestAdminApproval h]
    exact .same
  | confirm id hash =>
    simp only [step, confirm, Option.bind_eq_bind, Option.bind_eq_some_iff] at h
    obtain ⟨attempt, -, user, -, -, -, subject, -, linked, hlinked, h⟩ := h
    cases h
    exact (change_upsertConfirmedIdentity hlinked).1 _
  | requestLinkApproval userId external =>
    cases h
    rw [identities_requestInTransaction]
    exact .same
  | decide id approve => exact change_decideRequest h
  | provision userId external restore =>
    apply change_provisionIdentity h
    rintro rfl
    simp [restores]
  | importIdentity userId providerId subject =>
    obtain ⟨hnone, rfl⟩ := importIdentity_cases h
    exact .insert _ rfl (not_key_of_findMapping hnone)
  | revoke id =>
    obtain ⟨identity, hidentity, rfl⟩ := revokeIdentity_cases h
    exact .update id identity _ hidentity rfl rfl fun _ => Or.inl rfl
  | restore id =>
    obtain ⟨identity, hidentity, rfl⟩ := restoreIdentity_cases h
    have hrestores : restores s identity.external.key (.restore id) = true := by
      simp [restores, hidentity]
    exact .update id identity _ hidentity rfl rfl fun _ => Or.inr hrestores
  | addUser user =>
    cases h
    exact .same
  | editUser id user =>
    cases h
    exact .same
  | wait seconds =>
    cases h
    exact .same

/-- The unique indexes. -/
def KeysUnique (identities : List ExternalIdentity) : Prop :=
  (identities.map fun identity => identity.external.key).Nodup

theorem IdentityChange.unique {identities : List ExternalIdentity}
    (h : IdentityChange s label identities) (hunique : KeysUnique s.identities) :
    KeysUnique identities := by
  unfold KeysUnique at *
  cases h with
  | same => exact hunique
  | insert identity _ hnew =>
    rw [List.map_append, List.map_singleton]
    refine hunique.append (List.nodup_singleton _) ?_
    rw [List.disjoint_singleton, List.mem_map]
    rintro ⟨other, hin, hkey⟩
    exact hnew other hin hkey
  | update i identity identity' hin hkey =>
    have hget : (s.identities.map fun identity => identity.external.key)[i]? =
        some identity.external.key := by
      rw [List.getElem?_map, hin]
      rfl
    obtain ⟨hlt, hrow⟩ := List.getElem?_eq_some_iff.mp hget
    rw [List.map_set, hkey, ← hrow, List.set_getElem_self]
    exact hunique

theorem unique_reachable (h : Reachable settings s) : KeysUnique s.identities := by
  apply Reached.invariant _ _ h
  · exact List.nodup_nil
  · intro s label s' hunique _ hs
    exact (change_identities hs).unique hunique

theorem findMapping_of_mem (hunique : KeysUnique s.identities) {identity : ExternalIdentity}
    (hin : identity ∈ s.identities) : findMapping s identity.external.key = some identity := by
  cases hfind : findMapping s identity.external.key with
  | none => exact absurd rfl (not_key_of_findMapping hfind identity hin)
  | some other =>
    have hother : other ∈ s.identities := List.mem_of_find?_eq_some hfind
    have hkey : other.external.key = identity.external.key := by
      have := List.find?_some hfind
      simpa using this
    rw [List.inj_on_of_nodup_map hunique hother hin hkey]

/-! ## Rows of a table -/

/-- Each row is still there, related to what it was. -/
def RowsKept {α : Type} (related : α → α → Prop) (before after : List α) : Prop :=
  ∀ (i : ℕ) (row : α), before[i]? = some row → ∃ row', after[i]? = some row' ∧ related row row'

variable {α : Type} {related : α → α → Prop} {rows : List α}

theorem RowsKept.rfl (h : ∀ row, related row row) : RowsKept related rows rows :=
  fun _ row hrow => ⟨row, hrow, h row⟩

theorem RowsKept.append (h : ∀ row, related row row) (added : List α) :
    RowsKept related rows (rows ++ added) := by
  intro i row hrow
  obtain ⟨hlt, -⟩ := List.getElem?_eq_some_iff.mp hrow
  exact ⟨row, by rw [List.getElem?_append_left hlt]; exact hrow, h row⟩

theorem RowsKept.set (h : ∀ row, related row row) {i : ℕ} {row row' : α} (hrow : rows[i]? = some row)
    (hrelated : related row row') : RowsKept related rows (rows.set i row') := by
  intro j other hother
  obtain ⟨hlt, -⟩ := List.getElem?_eq_some_iff.mp hother
  by_cases heq : i = j
  · subst heq
    rw [hrow] at hother
    cases hother
    exact ⟨row', List.getElem?_set_self hlt, hrelated⟩
  · exact ⟨other, by rw [List.getElem?_set_ne heq]; exact hother, h other⟩

theorem RowsKept.modify (h : ∀ row, related row row) {i : ℕ} {f : α → α}
    (hf : ∀ row, rows[i]? = some row → related row (f row)) :
    RowsKept related rows (rows.modify i f) := by
  intro j row hrow
  by_cases heq : i = j
  · exact ⟨f row, by simp [hrow, heq], hf row (heq ▸ hrow)⟩
  · exact ⟨row, by simp [hrow, heq], h row⟩

theorem RowsKept.map {f : α → α} (hf : ∀ row, related row (f row)) :
    RowsKept related rows (rows.map f) := by
  intro i row hrow
  exact ⟨f row, by rw [List.getElem?_map, hrow]; exact Eq.refl _, hf row⟩

/-- A mapping keeps its key and its user, and stays revoked unless the call restores it. -/
def MappingKept (s : Store) (label : Label) (identity identity' : ExternalIdentity) : Prop :=
  identity'.external.key = identity.external.key ∧ identity'.userId = identity.userId ∧
    (identity.revoked = true →
      identity'.revoked = true ∨ restores s identity.external.key label = true)

theorem MappingKept.refl (identity : ExternalIdentity) : MappingKept s label identity identity :=
  ⟨rfl, rfl, Or.inl⟩

theorem IdentityChange.kept {identities : List ExternalIdentity}
    (h : IdentityChange s label identities) :
    RowsKept (MappingKept s label) s.identities identities := by
  cases h with
  | same => exact .rfl MappingKept.refl
  | insert identity => exact .append MappingKept.refl _
  | update i identity identity' hin hkey huser hrevoked =>
    exact .set MappingKept.refl hin ⟨hkey, huser, hrevoked⟩

/-! ## Requests -/

/-- A request keeps its subject, and its target too while it is open, unless it is decided. -/
def RequestKept (now : ℕ) (request request' : LinkRequest) : Prop :=
  request'.external.key = request.external.key ∧
    (request.isOpen now = true → request'.status ≠ .pending ∨
      request'.userId = request.userId ∧ request'.external = request.external)

theorem RequestKept.refl {now : ℕ} (request : LinkRequest) : RequestKept now request request :=
  ⟨rfl, fun _ => Or.inr ⟨rfl, rfl⟩⟩

theorem requests_requestInTransaction (s : Store) (userId : ℕ) (external : ExternalSubject) :
    RowsKept (RequestKept s.now) s.requests (requestInTransaction s userId external).1.requests := by
  unfold requestInTransaction
  dsimp only
  split
  · exact .append RequestKept.refl _
  · rename_i i hfind
    obtain ⟨existing, hexisting, hkey⟩ := of_findIdx? hfind
    rw [decide_eq_true_eq] at hkey
    rw [hexisting]
    dsimp only
    split_ifs with hopen
    · exact .rfl RequestKept.refl
    · exact .set RequestKept.refl hexisting ⟨hkey.symm, fun h => absurd h hopen⟩

theorem requests_closePending (s : Store) (userId : ℕ) (key : SubjectKey) :
    RowsKept (RequestKept s.now) s.requests (closePending s userId key).requests := by
  unfold closePending
  split
  · exact .rfl RequestKept.refl
  · exact .modify RequestKept.refl fun _ _ => ⟨rfl, fun _ => Or.inl nofun⟩

theorem requests_provisionIdentity {userId : ℕ} {external : ExternalSubject} {restore : Bool}
    {linkSource : LinkSource} (h : provisionIdentity s userId external restore linkSource = some s') :
    RowsKept (RequestKept s.now) s.requests s'.requests := by
  rcases provisionIdentity_cases h with ⟨rfl, -⟩ | ⟨-, i, identity, -, -, rfl⟩ | ⟨-, rfl⟩
  · exact .rfl RequestKept.refl
  · exact .rfl RequestKept.refl
  · exact requests_closePending
      { s with identities := s.identities ++ [⟨userId, external, linkSource, false⟩] } userId external.key

theorem requests_requestAdminApproval {id : ℕ} {hash : Option String}
    (h : requestAdminApproval s id hash = some s') :
    RowsKept (RequestKept s.now) s.requests s'.requests := by
  simp only [requestAdminApproval, Option.bind_eq_bind, Option.bind_eq_some_iff] at h
  obtain ⟨attempt, -, user, -, -, -, subject, -, h⟩ := h
  cases h
  exact requests_requestInTransaction s attempt.userId (attempt.external subject)

theorem requests_linkChallenge {userId : ℕ} {login : LoginRequest}
    (h : linkChallenge settings s userId login = some s') :
    RowsKept (RequestKept s.now) s.requests s'.requests := by
  rcases linkChallenge_cases h with ⟨hash, rfl | hrequest⟩ | rfl
  · exact .rfl RequestKept.refl
  · have hkept := requests_requestAdminApproval hrequest
    exact hkept
  · exact requests_requestInTransaction s userId login.external

theorem requests_getOrCreate {login : LoginRequest} {email : String} {user : Option ℕ}
    (h : getOrCreate settings s login email = some (s', user)) :
    RowsKept (RequestKept s.now) s.requests s'.requests := by
  rcases getOrCreate_cases h with
    ⟨identity, -, -, rfl, -⟩ | ⟨-, ⟨rfl, -⟩ | ⟨userId, hprovision, -⟩ | ⟨userId, hchallenge, -⟩⟩
  · exact .rfl RequestKept.refl
  · exact .rfl RequestKept.refl
  · exact requests_provisionIdentity hprovision
  · exact requests_linkChallenge hchallenge

theorem requests_decideRequest {id : ℕ} {approve : Bool} (h : decideRequest s id approve = some s') :
    RowsKept (RequestKept s.now) s.requests s'.requests := by
  obtain ⟨request, hrequest, -, status, hstatus, hset, -, -⟩ := decideRequest_cases h
  rw [hset]
  exact .set RequestKept.refl hrequest ⟨rfl, fun _ => Or.inl hstatus⟩

theorem requests_step (h : step settings s label = some s') :
    RowsKept (RequestKept s.now) s.requests s'.requests := by
  have hsame : s'.requests = s.requests → RowsKept (RequestKept s.now) s.requests s'.requests := by
    intro heq
    rw [heq]
    exact .rfl RequestKept.refl
  cases label with
  | login login email =>
    obtain ⟨⟨next, user⟩, hlogin, rfl⟩ := Option.map_eq_some_iff.mp h
    exact requests_getOrCreate hlogin
  | startFromProfile => exact hsame (frame_attemptCalls h trivial).2
  | recordOidcIdentity => exact hsame (frame_attemptCalls h trivial).2
  | verifyPassword => exact hsame (frame_attemptCalls h trivial).2
  | verifyExternal => exact hsame (frame_attemptCalls h trivial).2
  | markMfaVerified => exact hsame (frame_attemptCalls h trivial).2
  | requestAdminApproval id hash => exact requests_requestAdminApproval h
  | confirm id hash =>
    simp only [step, confirm, Option.bind_eq_bind, Option.bind_eq_some_iff] at h
    obtain ⟨attempt, -, user, -, -, -, subject, -, linked, hlinked, h⟩ := h
    cases h
    have hrequests : linked.requests = s.requests := (change_upsertConfirmedIdentity hlinked).2.1
    rw [← hrequests]
    apply RowsKept.map
    intro request
    split_ifs
    · exact ⟨rfl, fun _ => Or.inl (by rintro ⟨⟩)⟩
    · exact RequestKept.refl request
  | requestLinkApproval userId external =>
    cases h
    exact requests_requestInTransaction s userId external
  | decide id approve => exact requests_decideRequest h
  | provision userId external restore => exact requests_provisionIdentity h
  | importIdentity userId providerId subject =>
    obtain ⟨-, rfl⟩ := importIdentity_cases h
    exact hsame rfl
  | revoke id =>
    obtain ⟨identity, -, rfl⟩ := revokeIdentity_cases h
    exact hsame rfl
  | restore id =>
    obtain ⟨identity, -, rfl⟩ := restoreIdentity_cases h
    exact hsame rfl
  | addUser user =>
    cases h
    exact hsame rfl
  | editUser id user =>
    cases h
    exact hsame rfl
  | wait seconds =>
    cases h
    exact hsame rfl

/-! ## Attempts -/

/-- An account proof of an attempt of a login stands for the subject of the attempt. -/
def Proved (attempt : LinkAttempt) : Prop :=
  attempt.source = .loginCollision → attempt.proofVerifiedAt.isSome = true →
    attempt.provedSubject = attempt.subject

def AllProved (s : Store) : Prop := ∀ attempt ∈ s.attempts, Proved attempt

theorem attempt_of_requireAttempt {id : ℕ} {hash : Option String} {attempt : LinkAttempt}
    (h : requireAttempt s id hash = some attempt) : s.attempts[id]? = some attempt := by
  simp only [requireAttempt, Option.bind_eq_bind, Option.bind_eq_some_iff] at h
  obtain ⟨found, hfound, -, -, -, -, -, -, h⟩ := h
  cases h
  exact hfound

theorem Proved.of_requireAttempt {id : ℕ} {hash : Option String} {attempt : LinkAttempt}
    (hall : AllProved s) (h : requireAttempt s id hash = some attempt) : Proved attempt :=
  hall attempt (List.mem_of_getElem? (attempt_of_requireAttempt h))

theorem AllProved.setAttempt (hall : AllProved s) {id : ℕ} {attempt : LinkAttempt}
    (h : Proved attempt) : AllProved (setAttempt s id attempt) := by
  intro other hin
  rcases List.mem_or_eq_of_mem_set hin with hin | rfl
  · exact hall other hin
  · exact h

theorem AllProved.of_attempts_eq (hall : AllProved s) (h : s'.attempts = s.attempts) :
    AllProved s' := by
  unfold AllProved
  rw [h]
  exact hall

theorem attempts_requestInTransaction (s : Store) (userId : ℕ) (external : ExternalSubject) :
    (requestInTransaction s userId external).1.attempts = s.attempts := by
  unfold requestInTransaction
  dsimp only
  split
  · rfl
  · split
    · rfl
    · split_ifs <;> rfl

theorem attempts_closePending (s : Store) (userId : ℕ) (key : SubjectKey) :
    (closePending s userId key).attempts = s.attempts := by
  unfold closePending
  split <;> rfl

theorem attempts_provisionIdentity {userId : ℕ} {external : ExternalSubject} {restore : Bool}
    {linkSource : LinkSource} (h : provisionIdentity s userId external restore linkSource = some s') :
    s'.attempts = s.attempts := by
  rcases provisionIdentity_cases h with ⟨rfl, -⟩ | ⟨-, i, identity, -, -, rfl⟩ | ⟨-, rfl⟩
  · rfl
  · rfl
  · exact attempts_closePending _ userId external.key

theorem AllProved.requestAdminApproval (hall : AllProved s) {id : ℕ} {hash : Option String}
    (h : requestAdminApproval s id hash = some s') : AllProved s' := by
  simp only [ExternalLinks.requestAdminApproval, Option.bind_eq_bind, Option.bind_eq_some_iff] at h
  obtain ⟨attempt, hattempt, user, -, -, -, subject, -, h⟩ := h
  cases h
  have hproved := Proved.of_requireAttempt hall hattempt
  exact (hall.of_attempts_eq (attempts_requestInTransaction s _ _)).setAttempt hproved

theorem AllProved.linkChallenge (hall : AllProved s) {userId : ℕ} {login : LoginRequest}
    (h : linkChallenge settings s userId login = some s') : AllProved s' := by
  -- the new attempt has no proof
  have hcreated : ∀ hash,
      AllProved (createLoginCollisionAttempt settings s userId login.external hash) := by
    intro hash attempt hin
    rcases List.mem_append.mp hin with hin | hin
    · exact hall attempt hin
    · rw [List.mem_singleton.mp hin]
      exact fun _ hproof => by cases hproof
  rcases linkChallenge_cases h with ⟨hash, rfl | hrequest⟩ | rfl
  · exact hcreated hash
  · exact (hcreated hash).requestAdminApproval hrequest
  · exact hall.of_attempts_eq (attempts_requestInTransaction s userId login.external)

theorem AllProved.getOrCreate (hall : AllProved s) {login : LoginRequest} {email : String}
    {user : Option ℕ} (h : getOrCreate settings s login email = some (s', user)) : AllProved s' := by
  rcases getOrCreate_cases h with
    ⟨identity, -, -, rfl, -⟩ | ⟨-, ⟨rfl, -⟩ | ⟨userId, hprovision, -⟩ | ⟨userId, hchallenge, -⟩⟩
  · exact hall
  · exact hall
  · exact hall.of_attempts_eq (attempts_provisionIdentity hprovision)
  · exact hall.linkChallenge hchallenge

theorem AllProved.syncAttemptDecision (hall : AllProved s) (request : LinkRequest) (approve : Bool) :
    AllProved (syncAttemptDecision s request approve) := by
  intro attempt hin
  obtain ⟨old, hold, rfl⟩ := List.mem_map.mp hin
  have hproved := hall old hold
  split
  · exact hproved
  · exact hproved

theorem AllProved.markProof (hall : AllProved s) {id : ℕ} {attempt : LinkAttempt}
    {method : ProofMethod} (h : markProof s id attempt method = some s') : AllProved s' := by
  unfold ExternalLinks.markProof at h
  obtain ⟨-, h⟩ := guard_bind_eq_some.mp h
  cases h
  exact hall.setAttempt fun _ _ => rfl

theorem proved_step (hall : AllProved s) (hrecords : recordsFromProfile s label = true)
    (h : step settings s label = some s') : AllProved s' := by
  cases label with
  | login login email =>
    obtain ⟨⟨next, user⟩, hlogin, rfl⟩ := Option.map_eq_some_iff.mp h
    exact hall.getOrCreate hlogin
  | startFromProfile userId providerId issuer hash mfaVerifiedAt =>
    simp only [step, createProfileAttempt] at h
    obtain ⟨-, h⟩ := guard_bind_eq_some.mp h
    cases h
    intro attempt hin
    rcases List.mem_append.mp hin with hin | hin
    · exact hall attempt hin
    · rw [List.mem_singleton.mp hin]
      rintro ⟨⟩
  | recordOidcIdentity id hash providerId issuer subject =>
    simp only [step, recordOidcIdentity, Option.bind_eq_bind, Option.bind_eq_some_iff] at h
    obtain ⟨attempt, hattempt, -, -, -, -, -, -, -, -, h⟩ := h
    cases h
    apply hall.setAttempt
    -- the attempt was started from a profile
    simp only [recordsFromProfile, attempt_of_requireAttempt hattempt, Option.all_some,
      decide_eq_true_eq] at hrecords
    intro hsource
    rw [show attempt.source = .loginCollision from hsource] at hrecords
    cases hrecords
  | verifyPassword id hash correct =>
    simp only [step, verifyPassword, Option.bind_eq_bind, Option.bind_eq_some_iff] at h
    obtain ⟨attempt, -, user, -, -, -, h⟩ := h
    exact hall.markProof h
  | verifyExternal id hash external =>
    simp only [step, verifyExternal, Option.bind_eq_bind, Option.bind_eq_some_iff] at h
    obtain ⟨attempt, -, user, -, -, -, h⟩ := h
    exact hall.markProof h
  | markMfaVerified id hash =>
    simp only [step, markMfaVerified, Option.bind_eq_bind, Option.bind_eq_some_iff] at h
    obtain ⟨attempt, hattempt, user, -, -, -, h⟩ := h
    cases h
    have hproved := Proved.of_requireAttempt hall hattempt
    exact hall.setAttempt hproved
  | requestAdminApproval id hash => exact hall.requestAdminApproval h
  | confirm id hash =>
    simp only [step, confirm, Option.bind_eq_bind, Option.bind_eq_some_iff] at h
    obtain ⟨attempt, hattempt, user, -, -, -, subject, -, linked, hlinked, h⟩ := h
    cases h
    have hattempts := (change_upsertConfirmedIdentity hlinked).2.2.1
    have hproved := Proved.of_requireAttempt hall hattempt
    have happroved : AllProved
        (approveMatchingLinkRequests linked attempt.userId (attempt.external subject)) :=
      hall.of_attempts_eq hattempts
    exact happroved.setAttempt hproved
  | requestLinkApproval userId external =>
    cases h
    exact hall.of_attempts_eq (attempts_requestInTransaction s userId external)
  | decide id approve =>
    obtain ⟨request, -, -, status, -, -, hattempts, -⟩ := decideRequest_cases h
    exact (hall.syncAttemptDecision request approve).of_attempts_eq hattempts
  | provision userId external restore => exact hall.of_attempts_eq (attempts_provisionIdentity h)
  | importIdentity userId providerId subject =>
    obtain ⟨-, rfl⟩ := importIdentity_cases h
    exact hall
  | revoke id =>
    obtain ⟨identity, -, rfl⟩ := revokeIdentity_cases h
    exact hall
  | restore id =>
    obtain ⟨identity, -, rfl⟩ := restoreIdentity_cases h
    exact hall
  | addUser user =>
    cases h
    exact hall
  | editUser id user =>
    cases h
    exact hall
  | wait seconds =>
    cases h
    exact hall

theorem proved_reachable
    (h : Reached (step settings) (fun s label => recordsFromProfile s label = true) {} s) :
    AllProved s := by
  apply Reached.invariant _ _ h
  · exact fun _ hin => by cases hin
  · exact fun _ _ _ hall hrecords hs => proved_step hall hrecords hs

/-! ## The safety of linking -/

/-- A subject whose mapping is revoked is not let in. -/
theorem revoked_refused (hunique : KeysUnique s.identities) {identity : ExternalIdentity}
    (hin : identity ∈ s.identities) (hrevoked : identity.revoked = true) {login : LoginRequest}
    (hkey : login.external.key = identity.external.key) (email : String) :
    getOrCreate settings s login email = none := by
  unfold getOrCreate
  rw [hkey, findMapping_of_mem hunique hin]
  exact if_pos hrevoked

/-- A login authenticates the user that its subject is mapped to. -/
theorem authenticates {login : LoginRequest} {email : String} {user : ℕ}
    (h : getOrCreate settings s login email = some (s', some user)) :
    ∃ identity ∈ s'.identities, identity.external.key = login.external.key ∧
      identity.userId = user ∧ identity.revoked = false := by
  rcases getOrCreate_cases h with
    ⟨identity, hfind, hrevoked, rfl, huser⟩ |
    ⟨hnone, ⟨rfl, huser⟩ | ⟨userId, hprovision, huser⟩ | ⟨userId, -, huser⟩⟩ <;> cases huser
  · have hkey := List.find?_some hfind
    exact ⟨identity, List.mem_of_find?_eq_some hfind, by simpa using hkey, rfl, hrevoked⟩
  · exact ⟨_, List.mem_append_right _ (List.mem_singleton_self _), rfl, rfl, rfl⟩
  · -- the subject had no mapping to return or to restore
    rcases provisionIdentity_cases hprovision with ⟨rfl, other, hin, hkey⟩ | ⟨hrestore, -⟩ | ⟨-, rfl⟩
    · exact absurd hkey (not_key_of_findMapping hnone other hin)
    · cases hrestore
    · rw [identities_closePending]
      exact ⟨_, List.mem_append_right _ (List.mem_singleton_self _), rfl, rfl, rfl⟩

theorem approved {id : ℕ} (h : decideRequest s id true = some s') :
    ∃ request, s.requests[id]? = some request ∧ request.isOpen s.now = true ∧
      s'.identities = s.identities ++ [⟨request.userId, request.external, .manualApproval, false⟩] := by
  obtain ⟨request, hrequest, hopen, status, -, -, -, ⟨happrove, -⟩ | ⟨-, -, hinsert⟩⟩ :=
    decideRequest_cases h
  · cases happrove
  · exact ⟨request, hrequest, hopen, hinsert⟩

theorem confirmed {id : ℕ} {hash : Option String} {attempt : LinkAttempt}
    (hall : AllProved s) (h : confirm settings s id hash = some s')
    (hattempt : s.attempts[id]? = some attempt) (hsource : attempt.source ≠ .profile) :
    ∃ subject, attempt.subject = some subject ∧ attempt.provedSubject = some subject ∧
      ∃ identity ∈ s'.identities, identity.external = attempt.external subject ∧
        identity.userId = attempt.userId := by
  simp only [confirm, Option.bind_eq_bind, Option.bind_eq_some_iff] at h
  obtain ⟨found, hfound, user, -, ⟨⟩, hconfirm, subject, hsubject, linked, hlinked, h⟩ := h
  have heq := attempt_of_requireAttempt hfound
  rw [hattempt] at heq
  cases heq
  cases h
  have hproof : attempt.proofVerifiedAt.isSome = true := by
    by_contra hnone
    simp [guard, canConfirm, hnone] at hconfirm
  have hcollision : attempt.source = .loginCollision := by
    cases hcases : attempt.source with
    | loginCollision => rfl
    | profile => exact absurd hcases hsource
  refine ⟨subject, hsubject, ?_, (change_upsertConfirmedIdentity hlinked).2.2.2⟩
  rw [hall attempt (List.mem_of_getElem? hattempt) hcollision hproof]
  exact hsubject

/-- What a call does in a reachable store. -/
structure SafeStep (settings : Settings) (s : Store) (label : Label) (s' : Store) : Prop where
  /-- An external subject is mapped to one user, and stays with this user. -/
  unique : KeysUnique s'.identities
  kept : RowsKept (MappingKept s label) s.identities s'.identities
  authenticates : ∀ login email user, getOrCreate settings s login email = some (s', some user) →
    ∃ identity ∈ s'.identities, identity.external.key = login.external.key ∧
      identity.userId = user ∧ identity.revoked = false
  /-- The confirmation of an attempt that was not started from a profile. -/
  confirmed : Reached (step settings) (fun s label => recordsFromProfile s label = true) {} s →
    ∀ id hash attempt, label = .confirm id hash → s.attempts[id]? = some attempt →
      attempt.source ≠ .profile → ∃ subject, attempt.subject = some subject ∧
        attempt.provedSubject = some subject ∧ ∃ identity ∈ s'.identities,
          identity.external = attempt.external subject ∧ identity.userId = attempt.userId
  requests : RowsKept (RequestKept s.now) s.requests s'.requests
  approved : ∀ id, label = .decide id true → ∃ request, s.requests[id]? = some request ∧
    request.isOpen s.now = true ∧
      s'.identities = s.identities ++ [⟨request.userId, request.external, .manualApproval, false⟩]
  revoked : ∀ identity ∈ s.identities, identity.revoked = true → ∀ login email,
    login.external.key = identity.external.key → getOrCreate settings s login email = none

theorem linking_safe (settings : Settings) (s : Store) (h : Reachable settings s) (label : Label)
    (s' : Store) (hs : step settings s label = some s') : SafeStep settings s label s' where
  unique := (change_identities hs).unique (unique_reachable h)
  kept := (change_identities hs).kept
  authenticates := fun _ _ _ hlogin => ExternalLinks.authenticates hlogin
  confirmed := by
    rintro hrecords id hash attempt rfl hattempt hsource
    exact ExternalLinks.confirmed (proved_reachable hrecords) hs hattempt hsource
  requests := requests_step hs
  approved := by
    rintro id rfl
    exact ExternalLinks.approved hs
  revoked := fun _ hin hrevoked _ email hkey =>
    revoked_refused (unique_reachable h) hin hrevoked hkey email

def aliceSubject : ExternalSubject := ⟨"corp", none, "uid=alice"⟩

/-- A login whose email belongs to another user, and the password of this user. -/
def collision : List Label :=
  [.addUser ⟨"alice@x", true, true, true, false, false⟩,
    .login ⟨aliceSubject, some "alice@x", false, .reauthenticate, [], some "browser"⟩ "alice@corp",
    .verifyPassword 0 (some "browser") true]

/-- The attempt after the password. -/
def provedAttempt : LinkAttempt where
  userId := 0
  providerId := "corp"
  issuer := none
  subject := some "uid=alice"
  source := .loginCollision
  browserSecretHash := "browser"
  proofMethod := some .password
  proofVerifiedAt := some 0
  expiresAt := 600
  provedSubject := some "uid=alice"

def provedStore : Store where
  users := [⟨"alice@x", true, true, true, false, false⟩]
  attempts := [provedAttempt]

/-- The attempt is confirmed: its subject is mapped to the user whose password was given. -/
theorem linking_safe_confirmed : ∃ s s',
    SafeStep ⟨600, 900⟩ s (.confirm 0 (some "browser")) s' ∧ s.identities = [] ∧
      ∃ identity ∈ s'.identities, identity.external = aliceSubject ∧ identity.userId = 0 := by
  have hrun : afterOk (step ⟨600, 900⟩) recordsFromProfile {} collision = some provedStore := by
    decide +kernel
  have hrecords := Reached.init.afterOk hrun
  have hstep : step ⟨600, 900⟩ provedStore (.confirm 0 (some "browser")) = some
      { provedStore with
        identities := [⟨0, aliceSubject, .reauthenticated, false⟩]
        attempts := [{ provedAttempt with status := .completed, consumedAt := some 0 }] } := by
    decide +kernel
  have hsafe := linking_safe ⟨600, 900⟩ provedStore (hrecords.mono fun _ _ _ => trivial) _ _ hstep
  obtain ⟨subject, hsubject, -, identity, hin, hexternal, huser⟩ :=
    hsafe.confirmed hrecords 0 _ provedAttempt rfl rfl (by decide)
  cases hsubject
  exact ⟨provedStore, _, hsafe, rfl, identity, hin, hexternal, huser⟩

/-- The same subject collides with the email of another user after its request has expired: the request
is prepared again for this user, under its id. -/
theorem linking_not_safe :
    ¬∀ (settings : Settings) (s : Store), Reachable settings s → ∀ label s',
      step settings s label = some s' → ∀ (id : ℕ) (request request' : LinkRequest),
      s.requests[id]? = some request → s'.requests[id]? = some request' →
      request'.userId = request.userId ∧ request'.external = request.external := by
  intro h
  have hrun : after (step ⟨600, 900⟩) {} [.addUser ⟨"a@x", true, true, true, false, false⟩,
      .addUser ⟨"b@x", true, true, true, false, false⟩, .requestLinkApproval 0 aliceSubject,
      .wait 86400] = some
        ⟨86400, [⟨"a@x", true, true, true, false, false⟩, ⟨"b@x", true, true, true, false, false⟩], [],
          [⟨0, aliceSubject, .pending, 86400⟩], []⟩ := by
    decide +kernel
  have hsame := h ⟨600, 900⟩ _ (Reached.init.after hrun) (.requestLinkApproval 1 aliceSubject) _ rfl 0
    ⟨0, aliceSubject, .pending, 86400⟩ ⟨1, aliceSubject, .pending, 172800⟩ rfl (by decide +kernel)
  exact absurd hsame.1 (by decide)

end ExternalLinks
end BucketReef

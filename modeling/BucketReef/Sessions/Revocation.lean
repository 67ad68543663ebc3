import BucketReef.Sessions.Commits

/-!
# Single-use tokens and final revocation

A claimed token is locked until its rotation ends, so it is rotated once. A call that read a live
session started before every revocation of it that commits later. The version of a user protects the
sessions that a revocation of the whole user does not see, as long as no revocation writes a version
computed from an older one.
-/

namespace BucketReef
namespace Sessions

open Transitions

/-! ## What a phase carries -/

/-- A session a call has read, and whether it has checked the principal. -/
structure Reading where
  startedAt : ℕ
  id : ℕ
  session : AuthSession
  checked : Bool

namespace Phase

def reading : Phase → Option Reading
  | rotatePrincipal r => some ⟨r.startedAt, r.row.authSessionId, r.session, false⟩
  | rotateClaim r | rotateInsert r | rotateTouch r | rotateCommit r =>
    some ⟨r.startedAt, r.row.authSessionId, r.session, true⟩
  | validatePrincipal startedAt _ id session => some ⟨startedAt, id, session, false⟩
  | validateTouch startedAt _ id session | validateCommit startedAt id session =>
    some ⟨startedAt, id, session, true⟩
  | _ => none

/-- The start of a call that has not read its session. -/
def started : Phase → Option ℕ
  | rotateToken startedAt _ _ | rotateSession startedAt _ _ _ | validateSession startedAt _ _ _ =>
    some startedAt
  | _ => none

/-- The token a rotation has claimed. -/
def claims : Phase → Option ℕ
  | rotateInsert r | rotateTouch r | rotateCommit r => some r.token
  | _ => none

/-- The sessions a family revocation has revoked. -/
def revokes : Phase → Option (List ℕ)
  | familyCommit sessions => some sessions
  | _ => none

end Phase

/-! ## The invariant -/

def WriteOk (db : Db) (nextId : ℕ) : Write → Prop
  | .addSession id row =>
    id < nextId ∧ db.sessions id = none ∧ row.idleExpiresAt ≤ row.absoluteExpiresAt
  | .addToken id _ => id < nextId ∧ db.tokens id = none
  | .touchSession id idle => ∃ row, db.sessions id = some row ∧ idle ≤ row.absoluteExpiresAt
  | _ => True

structure PhaseOk (s : State) (p : ℕ) (phase : Phase) : Prop where
  started : ∀ t, phase.started = some t → t < s.time
  /-- The session was live when it was read, so its revocations came later. -/
  reading : ∀ r, phase.reading = some r → r.startedAt < s.time ∧
    (∃ row, s.db.sessions r.id = some row ∧ Same r.session row) ∧
      ∀ e ∈ s.familyRevoked, e.1 = r.id → r.startedAt < e.2
  /-- The claimed token is not used yet for anybody else. -/
  claims : ∀ t, phase.claims = some t → (∃ now, Write.useToken t now ∈ s.writes p) ∧
    ∃ row, s.db.tokens t = some row ∧ row.usedAt = none
  revokes : ∀ sessions, phase.revokes = some sessions → ∀ id ∈ sessions,
    (∃ now, Write.revokeSession id now ∈ s.writes p) ∧ ∃ row, s.db.sessions id = some row

structure Inv (s : State) : Prop where
  locks : ∀ p, ∀ w ∈ s.writes p, s.locks w.row = some p
  writeOk : ∀ p, ∀ w ∈ s.writes p, WriteOk s.db s.nextId w
  sessionIds : ∀ id row, s.db.sessions id = some row → id < s.nextId
  tokenIds : ∀ id row, s.db.tokens id = some row → id < s.nextId
  idle : ∀ id row, s.db.sessions id = some row → row.idleExpiresAt ≤ row.absoluteExpiresAt
  phases : ∀ p, PhaseOk s p (s.phase p)
  familyRevoked : ∀ e ∈ s.familyRevoked, e.2 < s.time ∧
    ∃ row, s.db.sessions e.1 = some row ∧ row.revokedAt ≠ none
  rotated : s.rotated.Nodup
  used : ∀ t ∈ s.rotated, Used s.db t
  accepted : ∀ a ∈ s.accepted, a.startedAt < s.time ∧
    ∀ e ∈ s.familyRevoked, e.1 = a.session → a.startedAt < e.2

theorem init_inv (users : ℕ → Option User) (clock : ℕ) : Inv (State.init users clock) := by
  constructor <;> simp [State.init]
  intro p
  constructor <;> simp [Phase.started, Phase.reading, Phase.claims, Phase.revokes]

variable {s s' : State}

/-! ## Frames -/

theorem PhaseOk.frame {p : ℕ} {phase : Phase} (h : PhaseOk s p phase) (htime : s.time ≤ s'.time)
    (hwrites : s'.writes p = s.writes p)
    (hsessions : ∀ id row, s.db.sessions id = some row →
      ∃ row', s'.db.sessions id = some row' ∧ Same row row')
    (htokens : ∀ t now, Write.useToken t now ∈ s.writes p → s'.db.tokens t = s.db.tokens t)
    (hlog : ∀ e ∈ s'.familyRevoked, e ∈ s.familyRevoked ∨ s.time ≤ e.2) : PhaseOk s' p phase where
  started t ht := Nat.lt_of_lt_of_le (h.started t ht) htime
  reading r hr := by
    obtain ⟨hlt, ⟨row, hrow, hsame⟩, hquiet⟩ := h.reading r hr
    obtain ⟨row', hrow', hsame'⟩ := hsessions r.id row hrow
    refine ⟨Nat.lt_of_lt_of_le hlt htime, ⟨row', hrow', hsame.trans hsame'⟩, ?_⟩
    intro e he hid
    rcases hlog e he with hold | hnew
    · exact hquiet e hold hid
    · omega
  claims t ht := by
    obtain ⟨⟨now, hnow⟩, hrow⟩ := h.claims t ht
    rw [hwrites, htokens t now hnow]
    exact ⟨⟨now, hnow⟩, hrow⟩
  revokes sessions hsessions' id hid := by
    obtain ⟨hmem, row, hrow⟩ := h.revokes sessions hsessions' id hid
    obtain ⟨row', hrow', _⟩ := hsessions id row hrow
    rw [hwrites]
    exact ⟨hmem, row', hrow'⟩

/-- A step of one transaction that is no commit. -/
theorem Inv.move (h : Inv s) {p : ℕ} (ws : List Write) {phase : Phase}
    (htime : s'.time = s.time + 1) (hdb : s'.db = s.db) (hnext : s.nextId ≤ s'.nextId)
    (hwrites : s'.writes = Function.update s.writes p ws)
    (hphase : s'.phase = Function.update s.phase p phase) (hrotated : s'.rotated = s.rotated)
    (haccepted : s'.accepted = s.accepted) (hfamily : s'.familyRevoked = s.familyRevoked)
    (hlocks : ∀ q, ∀ w ∈ s'.writes q, s'.locks w.row = some q)
    (hws : ∀ w ∈ ws, w ∈ s.writes p ∨ WriteOk s.db s'.nextId w)
    (hok : PhaseOk s' p phase) : Inv s' := by
  have hmono : ∀ w, WriteOk s.db s.nextId w → WriteOk s'.db s'.nextId w := by
    intro w hw
    rw [hdb]
    cases w with
    | addSession id row => exact ⟨Nat.lt_of_lt_of_le hw.1 hnext, hw.2⟩
    | addToken id row => exact ⟨Nat.lt_of_lt_of_le hw.1 hnext, hw.2⟩
    | touchSession id idle => exact hw
    | useToken => trivial
    | revokeToken => trivial
    | revokeSession => trivial
    | setVersion => trivial
  refine ⟨hlocks, ?_, ?_, ?_, ?_, ?_, ?_, ?_, ?_, ?_⟩
  · intro q w hw
    rw [hwrites] at hw
    by_cases hq : q = p
    · subst hq
      rw [Function.update_self] at hw
      rcases hws w hw with hold | hnew
      · exact hmono w (h.writeOk q w hold)
      · rw [hdb]
        exact hnew
    · rw [Function.update_of_ne hq] at hw
      exact hmono w (h.writeOk q w hw)
  · rw [hdb]
    exact fun id row hrow => Nat.lt_of_lt_of_le (h.sessionIds id row hrow) hnext
  · rw [hdb]
    exact fun id row hrow => Nat.lt_of_lt_of_le (h.tokenIds id row hrow) hnext
  · rw [hdb]
    exact h.idle
  · intro q
    rw [hphase]
    by_cases hq : q = p
    · subst hq
      rw [Function.update_self]
      exact hok
    · rw [Function.update_of_ne hq]
      refine (h.phases q).frame (by omega) ?_ ?_ ?_ ?_
      · rw [hwrites, Function.update_of_ne hq]
      · rw [hdb]
        exact fun id row hrow => ⟨row, hrow, .refl row⟩
      · intro t now _
        rw [hdb]
      · rw [hfamily]
        exact fun e he => .inl he
  · rw [hfamily, hdb]
    exact fun e he => (h.familyRevoked e he).imp_left fun hlt => by omega
  · rw [hrotated]
    exact h.rotated
  · rw [hrotated, hdb]
    exact h.used
  · rw [haccepted, hfamily]
    exact fun a ha => (h.accepted a ha).imp_left fun hlt => by omega

def State.next (s : State) : State := { s with time := s.time + 1 }

theorem Inv.goto (h : Inv s) {p : ℕ} {phase : Phase} (hok : PhaseOk (s.goto p phase).next p phase) :
    Inv (s.goto p phase).next := by
  refine h.move (s.writes p) rfl rfl (Nat.le_refl _) ?_ rfl rfl rfl rfl ?_ ?_ hok
  · exact (Function.update_eq_self p s.writes).symm
  · exact h.locks
  · exact fun w hw => .inl hw

/-- A statement that writes rows. -/
theorem Inv.write (h : Inv s) {t : State} {p : ℕ} {ws : List Write} {phase : Phase}
    (hs : t.write p ws phase = some s') (htime : t.time = s.time) (hdb : t.db = s.db)
    (hnext : s.nextId ≤ t.nextId) (hlocks : t.locks = s.locks) (hwrites : t.writes = s.writes)
    (hphase : t.phase = s.phase) (hrotated : t.rotated = s.rotated)
    (haccepted : t.accepted = s.accepted) (hfamily : t.familyRevoked = s.familyRevoked)
    (hws : ∀ w ∈ ws, WriteOk s.db t.nextId w) (hok : PhaseOk s'.next p phase) : Inv s'.next := by
  unfold State.write at hs
  split at hs
  · rename_i hfree
    cases hs
    rw [List.all_eq_true] at hfree
    refine h.move (p := p) (s.writes p ++ ws) (congrArg (· + 1) htime) hdb hnext ?_ ?_ hrotated
      haccepted hfamily ?_ ?_ hok
    · show Function.update t.writes p (t.writes p ++ ws) = _
      rw [hwrites]
    · show Function.update t.phase p phase = _
      rw [hphase]
    · intro q w hw
      change w ∈ Function.update t.writes p (t.writes p ++ ws) q at hw
      show (if ws.any fun w' => w'.row = w.row then some p else t.locks w.row) = some q
      rw [hwrites] at hw
      rw [hlocks]
      by_cases hq : q = p
      · subst hq
        rw [Function.update_self] at hw
        rcases List.mem_append.mp hw with hold | hnew
        · rw [h.locks q w hold]
          split <;> rfl
        · rw [if_pos (List.any_eq_true.mpr ⟨w, hnew, by simp⟩)]
      · rw [Function.update_of_ne hq] at hw
        have hmine := h.locks q w hw
        rw [if_neg]
        · exact hmine
        · -- the row is locked by another transaction, so the statement would have waited
          intro hany
          obtain ⟨w', hw', hrow⟩ := List.any_eq_true.mp hany
          have hlock := hfree w' hw'
          rw [hlocks, of_decide_eq_true hrow, hmine] at hlock
          simp [hq] at hlock
    · intro w hw
      exact (List.mem_append.mp hw).imp_right (hws w)
  · cases hs

theorem Inv.rollback (h : Inv s) {p : ℕ} {phase : Phase}
    (hok : PhaseOk (s.rollback p phase).next p phase) : Inv (s.rollback p phase).next := by
  refine h.move [] rfl rfl (Nat.le_refl _) rfl rfl rfl rfl rfl ?_ (by simp) hok
  intro q w hw
  change w ∈ Function.update s.writes p [] q at hw
  show (if s.locks w.row = some p then none else s.locks w.row) = some q
  by_cases hq : q = p
  · rw [hq, Function.update_self] at hw
    cases hw
  · rw [Function.update_of_ne hq] at hw
    rw [h.locks q w hw, if_neg (by simpa using hq)]

/-! ## Commits -/

/-- The rows a transaction adds are new. -/
theorem Inv.not_add (h : Inv s) {p id : ℕ} {row : AuthSession} (hrow : s.db.sessions id = some row)
    (r : AuthSession) : Write.addSession id r ∉ s.writes p := by
  intro hmem
  have := (h.writeOk p _ hmem).2.1
  rw [hrow] at this
  cases this

theorem Inv.not_addToken (h : Inv s) {p id : ℕ} {row : RefreshToken}
    (hrow : s.db.tokens id = some row) (r : RefreshToken) : Write.addToken id r ∉ s.writes p := by
  intro hmem
  have := (h.writeOk p _ hmem).2
  rw [hrow] at this
  cases this

/-- Two transactions write different rows. -/
theorem Inv.disjoint (h : Inv s) {p q : ℕ} (hne : q ≠ p) {w w' : Write} (hw : w ∈ s.writes p)
    (hw' : w' ∈ s.writes q) : w.row ≠ w'.row := by
  intro hrow
  have hp := h.locks p w hw
  rw [hrow, h.locks q w' hw'] at hp
  exact hne (Option.some.inj hp)

section Commit

variable {p : ℕ}

theorem Inv.commit_session (h : Inv s) (hdb : s'.db = (s.commit p).db) {id : ℕ} {row : AuthSession}
    (hrow : s.db.sessions id = some row) :
    ∃ row', s'.db.sessions id = some row' ∧ Same row row' ∧
      (row.revokedAt ≠ none → row'.revokedAt ≠ none) := by
  rw [hdb]
  exact commit_session_kept hrow (h.not_add hrow)

theorem Inv.commit_used (h : Inv s) (hdb : s'.db = (s.commit p).db) {t : ℕ} (ht : Used s.db t) :
    Used s'.db t := by
  rw [hdb]
  obtain ⟨row, hrow, _⟩ := id ht
  exact ht.commit (h.not_addToken hrow)

/-- A session after a commit was there before or is added by it. -/
theorem commit_origin (hdb : s'.db = (s.commit p).db) {id : ℕ} {row' : AuthSession}
    (hrow' : s'.db.sessions id = some row') :
    ∃ row, (s.db.sessions id = some row ∨ ∃ r, Write.addSession id r ∈ s.writes p ∧
        row = { r with committedAt := s.time }) ∧ Same row row' ∧
      (row'.idleExpiresAt = row.idleExpiresAt ∨
        Write.touchSession id row'.idleExpiresAt ∈ s.writes p) := by
  rw [hdb] at hrow'
  obtain ⟨row, hrow, hsame, _, hidle⟩ := Sessions.commit_session hrow'
  exact ⟨row, hrow, hsame, hidle⟩

/-- What is still uncommitted belongs to other transactions. -/
theorem uncommitted_other (hwrites : s'.writes = (s.commit p).writes) {q : ℕ} {w : Write}
    (hw : w ∈ s'.writes q) : q ≠ p ∧ w ∈ s.writes q := by
  rw [hwrites] at hw
  change w ∈ Function.update s.writes p [] q at hw
  by_cases hq : q = p
  · rw [hq, Function.update_self] at hw
    cases hw
  · rw [Function.update_of_ne hq] at hw
    exact ⟨hq, hw⟩

theorem Inv.commit_writeOk (h : Inv s) (hdb : s'.db = (s.commit p).db) (hnext : s'.nextId = s.nextId)
    (hwrites : s'.writes = (s.commit p).writes) {q : ℕ} {w : Write} (hw : w ∈ s'.writes q) :
    WriteOk s'.db s'.nextId w := by
  obtain ⟨hq, hw⟩ := uncommitted_other hwrites hw
  have hok := h.writeOk q w hw
  have hother : ∀ w' ∈ s.writes p, w'.row ≠ w.row := fun w' hw' => h.disjoint hq hw' hw
  rw [hnext]
  cases w with
  | addSession id row =>
    refine ⟨hok.1, ?_, hok.2.2⟩
    cases hnone : s'.db.sessions id with
    | none => rfl
    | some row' =>
      obtain ⟨_, hold | ⟨r, hr, _⟩, _⟩ := commit_origin hdb hnone
      · rw [hok.2.1] at hold
        cases hold
      · exact absurd rfl (hother (Write.addSession id r) hr)
  | addToken id row =>
    refine ⟨hok.1, ?_⟩
    cases hnone : s'.db.tokens id with
    | none => rfl
    | some row' =>
      rw [hdb] at hnone
      rcases commit_token_some hnone with ⟨old, hold⟩ | ⟨r, hr⟩
      · rw [hok.2] at hold
        cases hold
      · exact absurd rfl (hother (Write.addToken id r) hr)
  | touchSession id idle =>
    obtain ⟨row, hrow, hle⟩ := hok
    obtain ⟨row', hrow', hsame, _⟩ := h.commit_session hdb hrow
    exact ⟨row', hrow', hsame.absoluteExpiresAt ▸ hle⟩
  | useToken => trivial
  | revokeToken => trivial
  | revokeSession => trivial
  | setVersion => trivial

theorem Inv.commit_idle (h : Inv s) (hdb : s'.db = (s.commit p).db) {id : ℕ} {row' : AuthSession}
    (hrow' : s'.db.sessions id = some row') : row'.idleExpiresAt ≤ row'.absoluteExpiresAt := by
  obtain ⟨row, horig, hsame, hidle⟩ := commit_origin hdb hrow'
  rw [hsame.absoluteExpiresAt]
  rcases hidle with heq | htouch
  · rw [heq]
    rcases horig with hold | ⟨r, hr, rfl⟩
    · exact h.idle id row hold
    · exact (h.writeOk p _ hr).2.2
  · obtain ⟨old, hold, hle⟩ := h.writeOk p _ htouch
    rcases horig with hold' | ⟨r, hr, _⟩
    · rw [hold] at hold'
      cases hold'
      exact hle
    · exact absurd hr (h.not_add hold r)

theorem Inv.commit_phases (h : Inv s) (htime : s'.time = s.time + 1) (hdb : s'.db = (s.commit p).db)
    (hwrites : s'.writes = (s.commit p).writes) (hphase : s'.phase = (s.commit p).phase)
    (hlog : ∀ e ∈ s'.familyRevoked, e ∈ s.familyRevoked ∨ s.time ≤ e.2) (q : ℕ) :
    PhaseOk s' q (s'.phase q) := by
  rw [hphase]
  show PhaseOk s' q (Function.update s.phase p .idle q)
  by_cases hq : q = p
  · rw [hq, Function.update_self]
    constructor <;> simp [Phase.started, Phase.reading, Phase.claims, Phase.revokes]
  · rw [Function.update_of_ne hq]
    refine (h.phases q).frame (by omega) ?_ ?_ ?_ hlog
    · rw [hwrites]
      exact Function.update_of_ne hq ..
    · intro id row hrow
      obtain ⟨row', hrow', hsame, _⟩ := h.commit_session hdb hrow
      exact ⟨row', hrow', hsame⟩
    · intro t now hmem
      rw [hdb]
      exact commit_token fun w hw => h.disjoint hq hw hmem

/-- A commit, with what it adds to the logs. -/
theorem Inv.commit (h : Inv s) (ts : List ℕ) (as : List Accepted) (es : List (ℕ × ℕ))
    (htime : s'.time = s.time + 1) (hdb : s'.db = (s.commit p).db) (hnext : s'.nextId = s.nextId)
    (hlocks : s'.locks = (s.commit p).locks) (hwrites : s'.writes = (s.commit p).writes)
    (hphase : s'.phase = (s.commit p).phase) (hrotated : s'.rotated = s.rotated ++ ts)
    (haccepted : s'.accepted = s.accepted ++ as) (hfamily : s'.familyRevoked = s.familyRevoked ++ es)
    (hts : ts = [] ∨ ∃ t, ts = [t] ∧ (s.phase p).claims = some t)
    (has : ∀ a ∈ as, ∃ r, (s.phase p).reading = some r ∧ r.id = a.session ∧
      r.startedAt = a.startedAt)
    (hes : ∀ e ∈ es, e.2 = s.time ∧ ∃ sessions, (s.phase p).revokes = some sessions ∧
      e.1 ∈ sessions) : Inv s' := by
  have hlog : ∀ e ∈ s'.familyRevoked, e ∈ s.familyRevoked ∨ s.time ≤ e.2 := by
    intro e he
    rw [hfamily] at he
    exact (List.mem_append.mp he).imp_right fun hnew => Nat.le_of_eq (hes e hnew).1.symm
  refine ⟨?_, fun q w hw => h.commit_writeOk hdb hnext hwrites hw, ?_, ?_,
    fun id row' hrow' => h.commit_idle hdb hrow', h.commit_phases htime hdb hwrites hphase hlog,
    ?_, ?_, ?_, ?_⟩
  · intro q w hw
    obtain ⟨hq, hw⟩ := uncommitted_other hwrites hw
    rw [hlocks]
    show (if s.locks w.row = some p then none else s.locks w.row) = some q
    rw [h.locks q w hw, if_neg (by simpa using hq)]
  · intro id row' hrow'
    rw [hnext]
    obtain ⟨row, hold | ⟨r, hr, _⟩, _⟩ := commit_origin hdb hrow'
    · exact h.sessionIds id row hold
    · exact (h.writeOk p _ hr).1
  · intro id row' hrow'
    rw [hnext]
    rw [hdb] at hrow'
    rcases commit_token_some hrow' with ⟨row, hold⟩ | ⟨r, hr⟩
    · exact h.tokenIds id row hold
    · exact (h.writeOk p _ hr).1
  · intro e he
    rw [hfamily] at he
    rcases List.mem_append.mp he with hold | hnew
    · obtain ⟨hlt, row, hrow, hrevoked⟩ := h.familyRevoked e hold
      obtain ⟨row', hrow', _, hkept⟩ := h.commit_session hdb hrow
      exact ⟨by omega, row', hrow', hkept hrevoked⟩
    · obtain ⟨htime', sessions, hrevokes, hmem⟩ := hes e hnew
      obtain ⟨⟨now, hnow⟩, row, hrow⟩ := (h.phases p).revokes sessions hrevokes e.1 hmem
      rw [hdb]
      exact ⟨by omega, commit_session_revoked hrow (h.not_add hrow) hnow⟩
  · rw [hrotated]
    rcases hts with rfl | ⟨t, rfl, hclaims⟩
    · simpa using h.rotated
    · refine List.nodup_append.mpr ⟨h.rotated, by simp, ?_⟩
      rintro t' ht' t'' ht'' rfl
      rw [List.mem_singleton.mp ht''] at ht'
      obtain ⟨_, row, hrow, hunused⟩ := (h.phases p).claims t hclaims
      obtain ⟨row', hrow', hused'⟩ := h.used t ht'
      rw [hrow] at hrow'
      cases hrow'
      exact hused' hunused
  · intro t ht
    rw [hrotated] at ht
    rcases List.mem_append.mp ht with hold | hnew
    · exact h.commit_used hdb (h.used t hold)
    · rcases hts with rfl | ⟨t', rfl, hclaims⟩
      · cases hnew
      · rw [List.mem_singleton.mp hnew, hdb]
        obtain ⟨⟨now, hnow⟩, row, hrow, _⟩ := (h.phases p).claims t' hclaims
        exact used_of_commit hrow (h.not_addToken hrow) hnow
  · intro a ha
    rw [haccepted] at ha
    have hbase : a.startedAt < s.time ∧ ∀ e ∈ s.familyRevoked, e.1 = a.session →
        a.startedAt < e.2 := by
      rcases List.mem_append.mp ha with hold | hnew
      · exact h.accepted a hold
      · obtain ⟨r, hr, hid, hstarted⟩ := has a hnew
        obtain ⟨hlt, _, hquiet'⟩ := (h.phases p).reading r hr
        rw [hstarted] at hlt
        exact ⟨hlt, fun e he hid' => hstarted ▸ hquiet' e he (hid'.trans hid.symm)⟩
    refine ⟨by omega, ?_⟩
    intro e he hid
    rcases hlog e he with hold | hnew
    · exact hbase.2 e hold hid
    · omega

end Commit

/-- A step that touches nothing but users and the clock. -/
theorem Inv.environment (h : Inv s) (users : ℕ → Option User) (clock : ℕ) :
    Inv ({ s with clock := clock, db := { s.db with users := users } } : State).next where
  locks := h.locks
  writeOk p w hw := by
    have hok := h.writeOk p w hw
    cases w with
    | addSession id row => exact hok
    | addToken id row => exact hok
    | touchSession id idle => exact hok
    | useToken => trivial
    | revokeToken => trivial
    | revokeSession => trivial
    | setVersion => trivial
  sessionIds := h.sessionIds
  tokenIds := h.tokenIds
  idle := h.idle
  phases p := (h.phases p).frame (Nat.le_succ _) rfl (fun id row hrow => ⟨row, hrow, .refl row⟩)
    (fun _ _ _ => rfl) fun e he => .inl he
  familyRevoked e he := (h.familyRevoked e he).imp_left Nat.lt_succ_of_lt
  rotated := h.rotated
  used := h.used
  accepted a ha := (h.accepted a ha).imp_left Nat.lt_succ_of_lt

/-! ## The steps of a call -/

theorem PhaseOk.plain {p : ℕ} {phase : Phase} (hstarted : phase.started = none)
    (hreading : phase.reading = none) (hclaims : phase.claims = none)
    (hrevokes : phase.revokes = none) : PhaseOk s p phase := by
  constructor
  · rw [hstarted]
    nofun
  · rw [hreading]
    nofun
  · rw [hclaims]
    nofun
  · rw [hrevokes]
    nofun

/-- What a phase takes over from the one before. -/
theorem PhaseOk.carry {p : ℕ} {phase phase' : Phase} (h : PhaseOk s p phase)
    (htime : s'.time = s.time + 1) (hdb : s'.db = s.db) (hfamily : s'.familyRevoked = s.familyRevoked)
    (hwrites : ∀ w ∈ s.writes p, w ∈ s'.writes p)
    (hstarted : ∀ t, phase'.started = some t → phase.started = some t)
    (hreading : ∀ r, phase'.reading = some r → ∃ checked, phase.reading = some { r with checked })
    (hclaims : ∀ t, phase'.claims = some t → phase.claims = some t ∨
      (∃ now, Write.useToken t now ∈ s'.writes p) ∧
        ∃ row, s.db.tokens t = some row ∧ row.usedAt = none)
    (hrevokes : ∀ ids, phase'.revokes = some ids → ∀ id ∈ ids,
      (∃ now, Write.revokeSession id now ∈ s'.writes p) ∧ ∃ row, s.db.sessions id = some row) :
    PhaseOk s' p phase' where
  started t ht := by
    have := h.started t (hstarted t ht)
    omega
  reading r hr := by
    obtain ⟨checked, hr'⟩ := hreading r hr
    obtain ⟨hlt, hrow, hquiet⟩ := h.reading _ hr'
    rw [hdb, hfamily, htime]
    exact ⟨Nat.lt_succ_of_lt hlt, hrow, hquiet⟩
  claims t ht := by
    rw [hdb]
    rcases hclaims t ht with hold | hnew
    · obtain ⟨⟨now, hnow⟩, hrow⟩ := h.claims t hold
      exact ⟨⟨now, hwrites _ hnow⟩, hrow⟩
    · exact hnew
  revokes ids hids id hid := by
    rw [hdb]
    exact hrevokes ids hids id hid

/-- A session that is active when it is read has no committed family revocation. -/
theorem Inv.read (h : Inv s) {p startedAt id now : ℕ} {session : AuthSession} {phase : Phase}
    (hstarted : startedAt < s.time) (hsession : s.db.sessions id = some session)
    (hactive : session.active now = true) (hphase : phase.started = none)
    (hreading : phase.reading = some ⟨startedAt, id, session, false⟩)
    (hclaims : phase.claims = none) (hrevokes : phase.revokes = none) :
    PhaseOk (s.goto p phase).next p phase where
  started t ht := by
    rw [hphase] at ht
    cases ht
  reading r hr := by
    rw [hreading] at hr
    cases hr
    refine ⟨Nat.lt_succ_of_lt hstarted, ⟨session, hsession, .refl session⟩, ?_⟩
    rintro e he rfl
    obtain ⟨_, row, hrow, hrevoked⟩ := h.familyRevoked e he
    cases hsession.symm.trans hrow
    simp [AuthSession.active, hrevoked] at hactive
  claims t ht := by
    rw [hclaims] at ht
    cases ht
  revokes ids hids := by
    rw [hrevokes] at hids
    cases hids

theorem State.of_write {t : State} {p : ℕ} {ws : List Write} {phase : Phase}
    (hs : t.write p ws phase = some s') : s'.writes p = t.writes p ++ ws ∧ s'.time = t.time ∧
      s'.db = t.db ∧ s'.familyRevoked = t.familyRevoked := by
  unfold State.write at hs
  split at hs
  · cases hs
    exact ⟨Function.update_self .., rfl, rfl, rfl⟩
  · cases hs

variable {settings : Settings}

/-- A statement that writes rows of the same ids, and carries what the phase before it carried. -/
theorem Inv.statement (h : Inv s) {p : ℕ} {ws : List Write} {phase : Phase}
    (hs : s.write p ws phase = some s') (hws : ∀ w ∈ ws, WriteOk s.db s.nextId w)
    (hstarted : phase.started = none)
    (hreading : ∀ r, phase.reading = some r → ∃ checked, (s.phase p).reading = some { r with checked })
    (hclaims : ∀ t, phase.claims = some t → (s.phase p).claims = some t ∨
      (∃ now, Write.useToken t now ∈ ws) ∧ ∃ row, s.db.tokens t = some row ∧ row.usedAt = none)
    (hrevokes : ∀ ids, phase.revokes = some ids → ∀ id ∈ ids,
      (∃ now, Write.revokeSession id now ∈ ws) ∧ ∃ row, s.db.sessions id = some row) :
    Inv s'.next := by
  obtain ⟨hwrites, htime, hdb, hfamily⟩ := State.of_write hs
  have hnew : ∀ w ∈ ws, w ∈ s'.writes p := by
    intro w hw
    rw [hwrites]
    exact List.mem_append_right _ hw
  refine h.write hs rfl rfl (Nat.le_refl _) rfl rfl rfl rfl rfl rfl hws ?_
  refine (h.phases p).carry (congrArg (· + 1) htime) hdb hfamily ?_ ?_ hreading ?_ ?_
  · intro w hw
    show w ∈ s'.writes p
    rw [hwrites]
    exact List.mem_append_left _ hw
  · rw [hstarted]
    nofun
  · intro t ht
    exact (hclaims t ht).imp_right fun ⟨⟨now, hnow⟩, hrow⟩ => ⟨⟨now, hnew _ hnow⟩, hrow⟩
  · intro ids hids id hid
    obtain ⟨⟨now, hnow⟩, hrow⟩ := hrevokes ids hids id hid
    exact ⟨⟨now, hnew _ hnow⟩, hrow⟩

/-- The idle expiry a call writes for the session it has read. -/
theorem Inv.touch_ok (h : Inv s) {p : ℕ} {r : Reading} (hr : (s.phase p).reading = some r)
    (idle : ℕ) : ∀ w ∈ [Write.touchSession r.id (min idle r.session.absoluteExpiresAt)],
      WriteOk s.db s.nextId w := by
  intro w hw
  rw [List.mem_singleton] at hw
  subst hw
  obtain ⟨_, ⟨row, hrow, hsame⟩, _⟩ := (h.phases p).reading r hr
  refine ⟨row, hrow, ?_⟩
  rw [hsame.absoluteExpiresAt]
  exact Nat.min_le_right ..

theorem insertSession_inv (h : Inv s) {p : ℕ} {userId : Option ℕ} {authVersion now absolute : ℕ}
    (hs : insertSession settings s p userId authVersion now absolute = some s') : Inv s'.next := by
  unfold insertSession at hs
  have hnoSession : s.db.sessions s.nextId = none := by
    by_contra hsome
    obtain ⟨row, hrow⟩ := Option.ne_none_iff_exists'.mp hsome
    exact absurd (h.sessionIds _ row hrow) (Nat.lt_irrefl _)
  have hnoToken : s.db.tokens s.nextId = none := by
    by_contra hsome
    obtain ⟨row, hrow⟩ := Option.ne_none_iff_exists'.mp hsome
    exact absurd (h.tokenIds _ row hrow) (Nat.lt_irrefl _)
  refine h.write hs rfl rfl (Nat.le_succ _) rfl rfl rfl rfl rfl rfl ?_ (.plain rfl rfl rfl rfl)
  intro w hw
  rcases List.mem_cons.mp hw with rfl | hw
  · exact ⟨Nat.lt_succ_self _, hnoSession, Nat.min_le_right ..⟩
  · rw [List.mem_singleton] at hw
    subst hw
    exact ⟨Nat.lt_succ_self _, hnoToken⟩

theorem rotateInsert_inv (h : Inv s) {p : ℕ} {s3Active : Bool} {rotation : Rotation}
    (hphase : s.phase p = .rotateInsert rotation)
    (hs : advance settings s p s3Active (.rotateInsert rotation) = some s') : Inv s'.next := by
  simp only [advance] at hs
  have hnoToken : s.db.tokens s.nextId = none := by
    by_contra hsome
    obtain ⟨row, hrow⟩ := Option.ne_none_iff_exists'.mp hsome
    exact absurd (h.tokenIds _ row hrow) (Nat.lt_irrefl _)
  obtain ⟨hwrites, htime, hdb, hfamily⟩ := State.of_write hs
  refine h.write hs rfl rfl (Nat.le_succ _) rfl rfl rfl rfl rfl rfl ?_ ?_
  · intro w hw
    rw [List.mem_singleton] at hw
    subst hw
    exact ⟨Nat.lt_succ_self _, hnoToken⟩
  · have hold := h.phases p
    rw [hphase] at hold
    refine hold.carry (congrArg (· + 1) htime) hdb hfamily ?_ nofun ?_ ?_ nofun
    · intro w hw
      show w ∈ s'.writes p
      rw [hwrites]
      exact List.mem_append_left _ hw
    · exact fun r hr => ⟨r.checked, hr⟩
    · exact fun t ht => .inl ht

theorem rotateToken_inv (h : Inv s) {p : ℕ} {s3Active : Bool} {startedAt now token : ℕ}
    (hphase : s.phase p = .rotateToken startedAt now token)
    (hs : advance settings s p s3Active (.rotateToken startedAt now token) = some s') : Inv s'.next := by
  have hold := h.phases p
  rw [hphase] at hold
  cases hs
  refine h.goto ?_
  split
  · exact .plain rfl rfl rfl rfl
  · split
    · exact hold.carry rfl rfl rfl (fun w hw => hw) (fun t ht => ht) nofun nofun nofun
    · exact .plain rfl rfl rfl rfl

theorem rotateSession_inv (h : Inv s) {p : ℕ} {s3Active : Bool} {startedAt now token : ℕ}
    {row : RefreshToken} (hphase : s.phase p = .rotateSession startedAt now token row)
    (hs : advance settings s p s3Active (.rotateSession startedAt now token row) = some s') :
    Inv s'.next := by
  have hold := h.phases p
  rw [hphase] at hold
  cases hs
  refine h.goto ?_
  split
  · exact .plain rfl rfl rfl rfl
  · split
    · rename_i session hsession hactive
      rw [Bool.and_eq_true] at hactive
      exact h.read (hold.started startedAt rfl) hsession hactive.1 rfl rfl rfl rfl
    · exact .plain rfl rfl rfl rfl

theorem rotateClaim_inv (h : Inv s) {p : ℕ} {s3Active : Bool} {rotation : Rotation}
    (hphase : s.phase p = .rotateClaim rotation)
    (hs : advance settings s p s3Active (.rotateClaim rotation) = some s') : Inv s'.next := by
  simp only [advance] at hs
  split at hs
  · rename_i hany
    obtain ⟨row, hrow, hlive⟩ := (Option.any_eq_true _ _).mp hany
    simp only [Bool.and_eq_true, decide_eq_true_eq] at hlive
    refine h.statement hs ?_ rfl ?_ ?_ nofun
    · simp [WriteOk]
    · rw [hphase]
      exact fun r hr => ⟨r.checked, hr⟩
    · rintro t ⟨⟩
      exact .inr ⟨⟨rotation.now, List.mem_singleton.mpr rfl⟩, row, hrow, hlive.1⟩
  · cases hs
    exact h.rollback (.plain rfl rfl rfl rfl)

theorem rotateTouch_inv (h : Inv s) {p : ℕ} {s3Active : Bool} {rotation : Rotation}
    (hphase : s.phase p = .rotateTouch rotation)
    (hs : advance settings s p s3Active (.rotateTouch rotation) = some s') : Inv s'.next := by
  refine h.statement hs ?_ rfl ?_ ?_ nofun
  · exact h.touch_ok (r := ⟨rotation.startedAt, _, _, true⟩) (by rw [hphase]; rfl) _
  · rw [hphase]
    exact fun r hr => ⟨r.checked, hr⟩
  · rw [hphase]
    exact fun t ht => .inl ht

theorem rotateCommit_inv (h : Inv s) {p : ℕ} {s3Active : Bool} {rotation : Rotation}
    (hphase : s.phase p = .rotateCommit rotation)
    (hs : advance settings s p s3Active (.rotateCommit rotation) = some s') : Inv s'.next := by
  cases hs
  refine h.commit _ _ [] rfl rfl rfl rfl rfl rfl rfl rfl (by simp; rfl) ?_ ?_ nofun
  · exact .inr ⟨rotation.token, rfl, by rw [hphase]; rfl⟩
  · intro a ha
    rw [List.mem_singleton] at ha
    subst ha
    exact ⟨_, by rw [hphase]; rfl, rfl, rfl⟩

theorem validateSession_inv (h : Inv s) {p : ℕ} {s3Active : Bool} {startedAt now id : ℕ}
    {expectsUser : Bool} (hphase : s.phase p = .validateSession startedAt now id expectsUser)
    (hs : advance settings s p s3Active (.validateSession startedAt now id expectsUser) = some s') :
    Inv s'.next := by
  have hold := h.phases p
  rw [hphase] at hold
  cases hs
  refine h.goto ?_
  split
  · exact .plain rfl rfl rfl rfl
  · split
    · rename_i session hsession hactive
      exact h.read (hold.started startedAt rfl) hsession hactive.1 rfl rfl rfl rfl
    · exact .plain rfl rfl rfl rfl

theorem validateCommit_inv (h : Inv s) {p : ℕ} {s3Active : Bool} {startedAt id : ℕ} {session : AuthSession}
    (hphase : s.phase p = .validateCommit startedAt id session)
    (hs : advance settings s p s3Active (.validateCommit startedAt id session) = some s') :
    Inv s'.next := by
  cases hs
  refine h.commit [] _ [] rfl rfl rfl rfl rfl rfl (by simp; rfl) rfl
    (by simp; rfl) (.inl rfl) ?_ nofun
  intro a ha
  rw [List.mem_singleton] at ha
  subst ha
  exact ⟨_, by rw [hphase]; rfl, rfl, rfl⟩

theorem familySessions_inv (h : Inv s) {p : ℕ} {s3Active : Bool} {now : ℕ} {sessions : List ℕ}
    (hs : advance settings s p s3Active (.familySessions now sessions) = some s') : Inv s'.next := by
  refine h.statement hs ?_ rfl nofun nofun ?_
  · intro w hw
    obtain ⟨id, _, rfl⟩ := List.mem_map.mp hw
    trivial
  · rintro ids ⟨⟩ id hid
    have hsome := (List.mem_filter.mp hid).2
    exact ⟨⟨now, List.mem_map_of_mem hid⟩, Option.isSome_iff_exists.mp hsome⟩

theorem familyCommit_inv (h : Inv s) {p : ℕ} {s3Active : Bool} {sessions : List ℕ}
    (hphase : s.phase p = .familyCommit sessions)
    (hs : advance settings s p s3Active (.familyCommit sessions) = some s') : Inv s'.next := by
  cases hs
  refine h.commit [] [] _ rfl rfl rfl rfl rfl rfl (by simp; rfl) (by simp; rfl) rfl
    (.inl rfl) nofun ?_
  intro e he
  obtain ⟨id, hid, rfl⟩ := List.mem_map.mp he
  exact ⟨rfl, sessions, by rw [hphase]; rfl, hid⟩

theorem advance_inv (h : Inv s) {p : ℕ} {s3Active : Bool}
    (hs : advance settings s p s3Active (s.phase p) = some s') : Inv s'.next := by
  have hold := h.phases p
  cases hphase : s.phase p with
  | idle =>
    rw [hphase] at hs
    cases hs
  | createLoad userId =>
    rw [hphase] at hs
    cases hs
    refine h.goto ?_
    split <;> exact .plain rfl rfl rfl rfl
  | createInsert userId authVersion now absolute =>
    rw [hphase] at hs
    exact insertSession_inv h hs
  | createCommit =>
    rw [hphase] at hs
    cases hs
    exact h.commit [] [] [] rfl rfl rfl rfl rfl rfl (by simp; rfl)
      (by simp; rfl) (by simp; rfl) (.inl rfl) nofun nofun
  | rotateToken startedAt now token =>
    rw [hphase] at hs
    exact rotateToken_inv h hphase hs
  | rotateSession startedAt now token row =>
    rw [hphase] at hs
    exact rotateSession_inv h hphase hs
  | rotatePrincipal rotation =>
    rw [hphase] at hs hold
    cases hs
    refine h.goto ?_
    split
    · exact hold.carry rfl rfl rfl (fun w hw => hw) nofun (fun r hr => by cases hr; exact ⟨false, rfl⟩) nofun nofun
    · exact .plain rfl rfl rfl rfl
  | rotateClaim rotation =>
    rw [hphase] at hs
    exact rotateClaim_inv h hphase hs
  | rotateInsert rotation =>
    rw [hphase] at hs
    exact rotateInsert_inv h hphase hs
  | rotateTouch rotation =>
    rw [hphase] at hs
    exact rotateTouch_inv h hphase hs
  | rotateCommit rotation =>
    rw [hphase] at hs
    exact rotateCommit_inv h hphase hs
  | validateSession startedAt now id expectsUser =>
    rw [hphase] at hs
    exact validateSession_inv h hphase hs
  | validatePrincipal startedAt now id session =>
    rw [hphase] at hs hold
    cases hs
    refine h.goto ?_
    split
    · exact hold.carry rfl rfl rfl (fun w hw => hw) nofun (fun r hr => by cases hr; exact ⟨false, rfl⟩) nofun nofun
    · exact .plain rfl rfl rfl rfl
  | validateTouch startedAt now id session =>
    rw [hphase] at hs
    refine h.statement hs ?_ rfl ?_ nofun nofun
    · exact h.touch_ok (r := ⟨startedAt, id, session, true⟩) (by rw [hphase]; rfl) _
    · rw [hphase]
      exact fun r hr => ⟨r.checked, hr⟩
  | validateCommit startedAt id session =>
    rw [hphase] at hs
    exact validateCommit_inv h hphase hs
  | familySelect family now =>
    rw [hphase] at hs
    cases hs
    exact h.goto (.plain rfl rfl rfl rfl)
  | familyTokens family now sessions =>
    rw [hphase] at hs
    refine h.statement hs ?_ rfl nofun nofun nofun
    simp [WriteOk]
  | familySessions now sessions =>
    rw [hphase] at hs
    exact familySessions_inv h hs
  | familyCommit sessions =>
    rw [hphase] at hs
    exact familyCommit_inv h hphase hs
  | revokeSession session now =>
    rw [hphase] at hs
    exact h.statement hs (by simp [WriteOk]) rfl nofun nofun nofun
  | revokeSessionTokens session now =>
    rw [hphase] at hs
    exact h.statement hs (by simp [WriteOk]) rfl nofun nofun nofun
  | revokeSessionCommit =>
    rw [hphase] at hs
    cases hs
    exact h.commit [] [] [] rfl rfl rfl rfl rfl rfl (by simp; rfl)
      (by simp; rfl) (by simp; rfl) (.inl rfl) nofun nofun
  | allLoad userId incrementVersion =>
    rw [hphase] at hs
    cases hs
    refine h.goto ?_
    split <;> exact .plain rfl rfl rfl rfl
  | allSelect userId version now =>
    rw [hphase] at hs
    cases hs
    refine h.goto ?_
    split <;> exact .plain rfl rfl rfl rfl
  | allVersion userId version now sessions =>
    rw [hphase] at hs
    exact h.statement hs (by simp [WriteOk]) rfl nofun nofun nofun
  | allSessions userId version now sessions =>
    rw [hphase] at hs
    exact h.statement hs (by simp [WriteOk]) rfl nofun nofun nofun
  | allTokens userId version now sessions =>
    rw [hphase] at hs
    exact h.statement hs (by simp [WriteOk]) rfl nofun nofun nofun
  | allCommit userId version =>
    rw [hphase] at hs
    cases hs
    exact h.commit [] [] [] rfl rfl rfl rfl rfl rfl (by simp; rfl)
      (by simp; rfl) (by simp; rfl) (.inl rfl) nofun nofun

theorem step_inv {label : Label} (h : Inv s) (hs : step settings s label = some s') : Inv s' := by
  obtain ⟨t, ht, rfl⟩ := Option.map_eq_some_iff.mp hs
  have hstart : ∀ p phase, start s p phase = some t → (∀ u, phase.started = some u → u = s.time) →
      phase.reading = none → phase.claims = none → phase.revokes = none → Inv t.next := by
    intro p phase hp hstarted hreading hclaims hrevokes
    obtain ⟨_, rfl⟩ := Option.ite_none_right_eq_some.mp hp |>.imp_right Option.some.inj
    refine h.goto ⟨?_, ?_, ?_, ?_⟩
    · intro u hu
      rw [hstarted u hu]
      exact Nat.lt_succ_self _
    · rw [hreading]
      nofun
    · rw [hclaims]
      nofun
    · rw [hrevokes]
      nofun
  cases label with
  | tick elapsed =>
    cases ht
    exact h.environment s.db.users (s.clock + elapsed)
  | createForUser p userId => exact hstart p _ ht nofun rfl rfl rfl
  | createForS3 p absolute => exact hstart p _ ht nofun rfl rfl rfl
  | rotate p token => exact hstart p _ ht (fun u hu => (Option.some.inj hu).symm) rfl rfl rfl
  | validateAccess p session expectsUser =>
    exact hstart p _ ht (fun u hu => (Option.some.inj hu).symm) rfl rfl rfl
  | revokeFamily p family => exact hstart p _ ht nofun rfl rfl rfl
  | revokeAllForUser p userId incrementVersion => exact hstart p _ ht nofun rfl rfl rfl
  | advance p s3Active => exact advance_inv h ht
  | abort p =>
    cases ht
    exact h.rollback (.plain rfl rfl rfl rfl)
  | setActive userId isActive =>
    cases ht
    exact h.environment _ s.clock

end Sessions
end BucketReef

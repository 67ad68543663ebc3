import BucketReef.Sessions.Revocation

/-!
# Versions of a user

In the runs where every revocation writes the version after the committed one, the version of a user
only grows. A session remembers the version it was created with, so that a committed revocation of the
user leaves it behind for good.
-/

namespace BucketReef
namespace Sessions

open Transitions

/-- The user exists and has this version or a later one. -/
def AtLeast (db : Db) (userId version : ℕ) : Prop :=
  ∃ user, db.users userId = some user ∧ version ≤ user.authVersion

namespace Phase

/-- The version of a user a call has loaded. -/
def loaded : Phase → Option (ℕ × ℕ)
  | createInsert (some userId) version _ _ => some (userId, version)
  | allSelect userId (some version) _ => some (userId, version)
  | allVersion userId version _ _ => some (userId, version)
  | _ => none

/-- The version of a user a call has written. -/
def written : Phase → Option (ℕ × ℕ)
  | allSessions userId (some version) _ _ | allTokens userId (some version) _ _
  | allCommit userId (some version) => some (userId, version)
  | _ => none

end Phase

def VersionOk (db : Db) : Write → Prop
  | .addSession _ row => ∀ userId, row.userId = some userId → AtLeast db userId row.authVersion
  | .setVersion userId version =>
    ∃ user, db.users userId = some user ∧ version = user.authVersion + 1
  | _ => True

structure PhaseVersion (s : State) (p : ℕ) (phase : Phase) : Prop where
  loaded : ∀ userId version, phase.loaded = some (userId, version) → AtLeast s.db userId version
  written : ∀ userId version, phase.written = some (userId, version) →
    Write.setVersion userId version ∈ s.writes p
  /-- A checked session was not revoked when the call started. -/
  reading : ∀ r, phase.reading = some r → r.checked = true → ∀ e ∈ s.allRevoked,
    r.session.userId = some e.userId → r.session.committedAt < e.time → r.startedAt < e.time

structure Versioned (s : State) : Prop where
  sessions : ∀ id row, s.db.sessions id = some row → row.committedAt < s.time ∧
    ∀ userId, row.userId = some userId → AtLeast s.db userId row.authVersion
  writes : ∀ p, ∀ w ∈ s.writes p, VersionOk s.db w
  phases : ∀ p, PhaseVersion s p (s.phase p)
  allRevoked : ∀ e ∈ s.allRevoked, e.time < s.time ∧ AtLeast s.db e.userId e.version ∧
    ∀ id row, s.db.sessions id = some row → row.userId = some e.userId →
      row.committedAt < e.time → row.authVersion < e.version
  accepted : ∀ a ∈ s.accepted, ∀ e ∈ s.allRevoked, a.row.userId = some e.userId →
    a.row.committedAt < e.time → a.startedAt < e.time

theorem init_versioned (users : ℕ → Option User) (clock : ℕ) :
    Versioned (State.init users clock) := by
  constructor <;> simp [State.init]
  intro p
  constructor <;> simp [Phase.loaded, Phase.written, Phase.reading]

variable {s s' : State}

/-! ## Frames -/

theorem PhaseVersion.plain {p : ℕ} {phase : Phase} (hloaded : phase.loaded = none)
    (hwritten : phase.written = none)
    (hreading : ∀ r, phase.reading = some r → r.checked = false) : PhaseVersion s p phase := by
  constructor
  · rw [hloaded]
    nofun
  · rw [hwritten]
    nofun
  · intro r hr hchecked
    rw [hreading r hr] at hchecked
    cases hchecked

theorem PhaseVersion.bare {p : ℕ} {phase : Phase} (hloaded : phase.loaded = none)
    (hwritten : phase.written = none) (hreading : phase.reading = none) : PhaseVersion s p phase :=
  .plain hloaded hwritten (by simp [hreading])

theorem PhaseVersion.frame {p : ℕ} {phase : Phase} (h : PhaseVersion s p phase)
    (hreading : ∀ r, phase.reading = some r → r.startedAt < s.time)
    (husers : ∀ userId version, AtLeast s.db userId version → AtLeast s'.db userId version)
    (hwrites : ∀ w ∈ s.writes p, w ∈ s'.writes p)
    (hrevoked : ∀ e ∈ s'.allRevoked, e ∈ s.allRevoked ∨ s.time ≤ e.time) :
    PhaseVersion s' p phase where
  loaded userId version hload := husers _ _ (h.loaded userId version hload)
  written userId version hwritten := hwrites _ (h.written userId version hwritten)
  reading r hr hchecked e he huser hbefore := by
    rcases hrevoked e he with hold | hnew
    · exact h.reading r hr hchecked e hold huser hbefore
    · exact Nat.lt_of_lt_of_le (hreading r hr) hnew

/-- What a step may change: rows as a commit changes them, and a version that grows. -/
theorem Versioned.change (h : Versioned s) (hinv : Inv s) (htime : s'.time = s.time + 1)
    (husers : ∀ userId version, AtLeast s.db userId version → AtLeast s'.db userId version)
    (hsessions : ∀ id row', s'.db.sessions id = some row' →
      (∃ row, s.db.sessions id = some row ∧ Same row row') ∨ row'.committedAt = s.time ∧
        ∀ userId, row'.userId = some userId → AtLeast s'.db userId row'.authVersion)
    (hwrites : ∀ p, ∀ w ∈ s'.writes p, VersionOk s'.db w)
    (hphases : ∀ p, PhaseVersion s' p (s'.phase p))
    (hrevoked : ∀ e ∈ s'.allRevoked, e ∈ s.allRevoked ∨ e.time = s.time ∧
      AtLeast s'.db e.userId e.version ∧ ∀ id row, s.db.sessions id = some row →
        row.userId = some e.userId → row.authVersion < e.version)
    (haccepted : ∀ a ∈ s'.accepted, a ∈ s.accepted ∨ a.startedAt < s.time ∧
      ∀ e ∈ s.allRevoked, a.row.userId = some e.userId → a.row.committedAt < e.time →
        a.startedAt < e.time) : Versioned s' where
  sessions id row' hrow' := by
    rcases hsessions id row' hrow' with ⟨row, hrow, hsame⟩ | ⟨hnow, hversion⟩
    · obtain ⟨hbefore, hversion⟩ := h.sessions id row hrow
      rw [hsame.committedAt, hsame.userId, hsame.authVersion]
      exact ⟨by omega, fun userId huser => husers _ _ (hversion userId huser)⟩
    · exact ⟨by omega, hversion⟩
  writes := hwrites
  phases := hphases
  allRevoked e he := by
    rcases hrevoked e he with hold | ⟨hnow, hversion, hbehind⟩
    · obtain ⟨hbefore, hversion, hbehind⟩ := h.allRevoked e hold
      refine ⟨by omega, husers _ _ hversion, ?_⟩
      intro id row' hrow' huser hcommitted
      rcases hsessions id row' hrow' with ⟨row, hrow, hsame⟩ | ⟨hnow, _⟩
      · rw [hsame.authVersion]
        rw [hsame.userId] at huser
        rw [hsame.committedAt] at hcommitted
        exact hbehind id row hrow huser hcommitted
      · omega
    · refine ⟨by omega, hversion, ?_⟩
      intro id row' hrow' huser hcommitted
      rcases hsessions id row' hrow' with ⟨row, hrow, hsame⟩ | ⟨hnow', _⟩
      · rw [hsame.authVersion]
        rw [hsame.userId] at huser
        exact hbehind id row hrow huser
      · omega
  accepted a ha e he huser hcommitted := by
    have hstarted : a.startedAt < s.time := by
      rcases haccepted a ha with hold | hnew
      · exact (hinv.accepted a hold).1
      · exact hnew.1
    rcases hrevoked e he with hold | ⟨hnow, _⟩
    · rcases haccepted a ha with holdAccepted | hnew
      · exact h.accepted a holdAccepted e hold huser hcommitted
      · exact hnew.2 e hold huser hcommitted
    · omega

/-- A step of one transaction that is no commit. -/
theorem Versioned.move (h : Versioned s) (hinv : Inv s) {p : ℕ} (ws : List Write) {phase : Phase}
    (htime : s'.time = s.time + 1) (hdb : s'.db = s.db)
    (hwrites : s'.writes = Function.update s.writes p ws)
    (hphase : s'.phase = Function.update s.phase p phase)
    (haccepted : s'.accepted = s.accepted) (hrevoked : s'.allRevoked = s.allRevoked)
    (hws : ∀ w ∈ ws, w ∈ s.writes p ∨ VersionOk s.db w) (hok : PhaseVersion s' p phase) :
    Versioned s' := by
  have husers : ∀ userId version, AtLeast s.db userId version → AtLeast s'.db userId version := by
    rw [hdb]
    exact fun _ _ hversion => hversion
  refine h.change hinv htime husers ?_ ?_ ?_ ?_ ?_
  · rw [hdb]
    exact fun id row hrow => .inl ⟨row, hrow, .refl row⟩
  · intro q w hw
    rw [hdb]
    rw [hwrites] at hw
    by_cases hq : q = p
    · subst hq
      rw [Function.update_self] at hw
      exact (hws w hw).elim (h.writes q w) fun hnew => hnew
    · rw [Function.update_of_ne hq] at hw
      exact h.writes q w hw
  · intro q
    rw [hphase]
    by_cases hq : q = p
    · subst hq
      rw [Function.update_self]
      exact hok
    · rw [Function.update_of_ne hq]
      refine (h.phases q).frame ?_ husers ?_ ?_
      · exact fun r hr => ((hinv.phases q).reading r hr).1
      · rw [hwrites, Function.update_of_ne hq]
        exact fun w hw => hw
      · rw [hrevoked]
        exact fun e he => .inl he
  · rw [hrevoked]
    exact fun e he => .inl he
  · rw [haccepted]
    exact fun a ha => .inl ha

theorem Versioned.goto (h : Versioned s) (hinv : Inv s) {p : ℕ} {phase : Phase}
    (hok : PhaseVersion (s.goto p phase).next p phase) : Versioned (s.goto p phase).next := by
  refine h.move hinv (s.writes p) rfl rfl ?_ rfl rfl rfl ?_ hok
  · exact (Function.update_eq_self p s.writes).symm
  · exact fun w hw => .inl hw

theorem State.write_eq {t : State} {p : ℕ} {ws : List Write} {phase : Phase}
    (hs : t.write p ws phase = some s') :
    s'.writes = Function.update t.writes p (t.writes p ++ ws) ∧
      s'.phase = Function.update t.phase p phase ∧ s'.time = t.time ∧ s'.db = t.db ∧
      s'.accepted = t.accepted ∧ s'.allRevoked = t.allRevoked := by
  unfold State.write at hs
  split at hs
  · cases hs
    exact ⟨rfl, rfl, rfl, rfl, rfl, rfl⟩
  · cases hs

theorem Versioned.write (h : Versioned s) (hinv : Inv s) {t : State} {p : ℕ} {ws : List Write}
    {phase : Phase} (hs : t.write p ws phase = some s') (htime : t.time = s.time)
    (hdb : t.db = s.db) (hwrites : t.writes = s.writes) (hphase : t.phase = s.phase)
    (haccepted : t.accepted = s.accepted) (hrevoked : t.allRevoked = s.allRevoked)
    (hws : ∀ w ∈ ws, VersionOk s.db w) (hloaded : phase.loaded = none)
    (hwritten : ∀ userId version, phase.written = some (userId, version) →
      (s.phase p).written = some (userId, version) ∨ Write.setVersion userId version ∈ ws)
    (hreading : ∀ r, phase.reading = some r → (s.phase p).reading = some r) :
    Versioned s'.next := by
  obtain ⟨hwrites', hphase', htime', hdb', haccepted', hrevoked'⟩ := State.write_eq hs
  rw [hwrites] at hwrites'
  rw [hphase] at hphase'
  refine h.move hinv _ (congrArg (· + 1) (htime'.trans htime)) (hdb'.trans hdb) hwrites' hphase'
    (haccepted'.trans haccepted) (hrevoked'.trans hrevoked) ?_ ⟨?_, ?_, ?_⟩
  · exact fun w hw => (List.mem_append.mp hw).imp_right (hws w)
  · rw [hloaded]
    nofun
  · intro userId version hphaseWritten
    show _ ∈ s'.writes p
    rw [hwrites', Function.update_self]
    rcases hwritten userId version hphaseWritten with hold | hnew
    · exact List.mem_append_left _ ((h.phases p).written userId version hold)
    · exact List.mem_append_right _ hnew
  · intro r hr hchecked e he
    have he' : e ∈ s.allRevoked := by
      change e ∈ s'.allRevoked at he
      rw [hrevoked', hrevoked] at he
      exact he
    exact (h.phases p).reading r (hreading r hr) hchecked e he'

theorem Versioned.rollback (h : Versioned s) (hinv : Inv s) {p : ℕ} {phase : Phase}
    (hok : PhaseVersion (s.rollback p phase).next p phase) : Versioned (s.rollback p phase).next :=
  h.move hinv [] rfl rfl rfl rfl rfl rfl (by simp) hok

theorem Versioned.environment (h : Versioned s) (hinv : Inv s) (users : ℕ → Option User)
    (husers : ∀ userId user, s.db.users userId = some user →
      ∃ user', users userId = some user' ∧ user'.authVersion = user.authVersion) (clock : ℕ) :
    Versioned ({ s with clock := clock, db := { s.db with users := users } } : State).next := by
  have hkept : ∀ userId version, AtLeast s.db userId version →
      AtLeast { s.db with users := users } userId version := by
    rintro userId version ⟨user, huser, hle⟩
    obtain ⟨user', huser', heq⟩ := husers userId user huser
    exact ⟨user', huser', by omega⟩
  refine h.change hinv rfl hkept ?_ ?_ ?_ ?_ ?_
  · exact fun id row hrow => .inl ⟨row, hrow, .refl row⟩
  · intro p w hw
    have hok := h.writes p w hw
    cases w with
    | addSession id row => exact fun userId huser => hkept _ _ (hok userId huser)
    | setVersion userId version =>
      obtain ⟨user, huser, hversion⟩ := hok
      obtain ⟨user', huser', heq⟩ := husers userId user huser
      exact ⟨user', huser', by omega⟩
    | addToken => trivial
    | useToken => trivial
    | revokeToken => trivial
    | revokeSession => trivial
    | touchSession => trivial
  · intro p
    refine (h.phases p).frame ?_ hkept ?_ ?_
    · exact fun r hr => ((hinv.phases p).reading r hr).1
    · exact fun w hw => hw
    · exact fun e he => .inl he
  · exact fun e he => .inl he
  · exact fun a ha => .inl ha

/-! ## Commits -/

/-- The user row after the commit of a transaction. -/
theorem Versioned.commit_user (h : Versioned s) {p userId : ℕ} {user : User}
    (huser : s.db.users userId = some user) :
    ∃ user', (s.commit p).db.users userId = some user' ∧
      ((Write.setVersion userId (user.authVersion + 1) ∈ s.writes p ∧
          user'.authVersion = user.authVersion + 1) ∨
        ((∀ version, Write.setVersion userId version ∉ s.writes p) ∧
          user'.authVersion = user.authVersion)) := by
  have hnext : ∀ version, Write.setVersion userId version ∈ s.writes p →
      version = user.authVersion + 1 := by
    intro version hmem
    obtain ⟨user', huser', hversion⟩ := h.writes p _ hmem
    rw [huser] at huser'
    cases huser'
    exact hversion
  obtain ⟨user', huser', _, hwritten | ⟨hnone, hsame⟩⟩ :=
    Sessions.commit_user (t := s.time) huser hnext
  · exact ⟨user', huser', .inl hwritten⟩
  · refine ⟨user', huser', .inr ⟨?_, hsame⟩⟩
    intro version hmem
    rw [hnext version hmem] at hmem
    exact hnone hmem

theorem Versioned.commit (h : Versioned s) (hinv : Inv s) {p : ℕ} (as : List Accepted)
    (es : List RevokedAll) (htime : s'.time = s.time + 1) (hdb : s'.db = (s.commit p).db)
    (hwrites : s'.writes = (s.commit p).writes) (hphase : s'.phase = (s.commit p).phase)
    (haccepted : s'.accepted = s.accepted ++ as) (hrevoked : s'.allRevoked = s.allRevoked ++ es)
    (has : ∀ a ∈ as, ∃ r, (s.phase p).reading = some r ∧ r.checked = true ∧ r.session = a.row ∧
      r.startedAt = a.startedAt)
    (hes : ∀ e ∈ es, e.time = s.time ∧ (s.phase p).written = some (e.userId, e.version)) :
    Versioned s' := by
  have husers : ∀ userId version, AtLeast s.db userId version → AtLeast s'.db userId version := by
    rintro userId version ⟨user, huser, hle⟩
    obtain ⟨user', huser', hversion⟩ := h.commit_user (p := p) huser
    rw [hdb]
    refine ⟨user', huser', ?_⟩
    rcases hversion with ⟨_, hversion⟩ | ⟨_, hversion⟩ <;> omega
  have hothers : ∀ q w, w ∈ s'.writes q → q ≠ p ∧ w ∈ s.writes q := by
    intro q w hw
    rw [hwrites] at hw
    change w ∈ Function.update s.writes p [] q at hw
    by_cases hq : q = p
    · rw [hq, Function.update_self] at hw
      cases hw
    · rw [Function.update_of_ne hq] at hw
      exact ⟨hq, hw⟩
  have hnewer : ∀ e ∈ s'.allRevoked, e ∈ s.allRevoked ∨ s.time ≤ e.time := by
    intro e he
    rw [hrevoked] at he
    exact (List.mem_append.mp he).imp_right fun hnew => Nat.le_of_eq (hes e hnew).1.symm
  refine h.change hinv htime husers ?_ ?_ ?_ ?_ ?_
  · intro id row' hrow'
    rw [hdb] at hrow'
    obtain ⟨row, hrow | ⟨r, hr, rfl⟩, hsame, _⟩ := commit_session hrow'
    · exact .inl ⟨row, hrow, hsame⟩
    · right
      rw [hsame.committedAt, hsame.userId, hsame.authVersion]
      exact ⟨rfl, fun userId huser => husers _ _ (h.writes p _ hr userId huser)⟩
  · intro q w hw
    obtain ⟨hq, hw⟩ := hothers q w hw
    have hok := h.writes q w hw
    cases w with
    | addSession id row => exact fun userId huser => husers _ _ (hok userId huser)
    | setVersion userId version =>
      obtain ⟨user, huser, hversion⟩ := hok
      obtain ⟨user', huser', hwritten | ⟨_, hsame⟩⟩ := h.commit_user (p := p) huser
      · -- both transactions would hold the lock of the user
        exact (hinv.disjoint hq hwritten.1 hw rfl).elim
      · rw [hdb]
        exact ⟨user', huser', by omega⟩
    | addToken => trivial
    | useToken => trivial
    | revokeToken => trivial
    | revokeSession => trivial
    | touchSession => trivial
  · intro q
    rw [hphase]
    show PhaseVersion s' q (Function.update s.phase p .idle q)
    by_cases hq : q = p
    · rw [hq, Function.update_self]
      exact .plain rfl rfl nofun
    · rw [Function.update_of_ne hq]
      refine (h.phases q).frame ?_ husers ?_ hnewer
      · exact fun r hr => ((hinv.phases q).reading r hr).1
      · rw [hwrites]
        show ∀ w ∈ s.writes q, w ∈ Function.update s.writes p [] q
        rw [Function.update_of_ne hq]
        exact fun w hw => hw
  · intro e he
    rw [hrevoked] at he
    refine (List.mem_append.mp he).imp_right fun hnew => ?_
    obtain ⟨hnow, hwritten⟩ := hes e hnew
    have hmem := (h.phases p).written _ _ hwritten
    obtain ⟨user, huser, hversion⟩ := h.writes p _ hmem
    obtain ⟨user', huser', ⟨_, hset⟩ | ⟨hnone, _⟩⟩ := h.commit_user (p := p) huser
    · rw [hdb]
      refine ⟨hnow, ⟨user', huser', by omega⟩, ?_⟩
      intro id row hrow hid
      obtain ⟨user'', huser'', hle⟩ := (h.sessions id row hrow).2 _ hid
      rw [huser] at huser''
      cases huser''
      omega
    · exact absurd hmem (hnone _)
  · intro a ha
    rw [haccepted] at ha
    refine (List.mem_append.mp ha).imp_right fun hnew => ?_
    obtain ⟨r, hr, hchecked, hrow, hstarted⟩ := has a hnew
    rw [← hrow, ← hstarted]
    exact ⟨((hinv.phases p).reading r hr).1, (h.phases p).reading r hr hchecked⟩

/-! ## The steps of a call -/

/-- A session with the version of its user was not revoked before. -/
theorem Versioned.principal (h : Versioned s) (hinv : Inv s) {p : ℕ} {s3Active : Bool} {r : Reading}
    (hr : (s.phase p).reading = some r) (hactive : principalActive s.db s3Active r.session = true) :
    ∀ e ∈ s.allRevoked, r.session.userId = some e.userId → r.session.committedAt < e.time →
      r.startedAt < e.time := by
  intro e he huser hcommitted
  exfalso
  obtain ⟨_, ⟨row, hrow, hsame⟩, _⟩ := (hinv.phases p).reading r hr
  obtain ⟨_, ⟨user, hcurrent, hle⟩, hbehind⟩ := h.allRevoked e he
  have hlt := hbehind r.id row hrow (hsame.userId.trans huser) (by rw [hsame.committedAt]; exact hcommitted)
  rw [hsame.authVersion] at hlt
  simp [principalActive, huser, hcurrent] at hactive
  omega

variable {settings : Settings}

theorem createLoad_versioned (h : Versioned s) (hinv : Inv s) {p : ℕ} {s3Active : Bool} {userId : ℕ}
    (hs : advance settings s p s3Active (.createLoad userId) = some s') : Versioned s'.next := by
  cases hs
  refine h.goto hinv ?_
  split
  · rename_i user huser
    refine ⟨?_, by rintro _ _ ⟨⟩, by rintro _ ⟨⟩⟩
    rintro _ _ ⟨⟩
    exact ⟨user, huser, Nat.le_refl _⟩
  · exact .bare rfl rfl rfl

theorem createInsert_versioned (h : Versioned s) (hinv : Inv s) {p : ℕ} {s3Active : Bool}
    {userId : Option ℕ} {authVersion now absolute : ℕ}
    (hphase : s.phase p = .createInsert userId authVersion now absolute)
    (hs : advance settings s p s3Active (.createInsert userId authVersion now absolute) = some s') :
    Versioned s'.next := by
  have hold := h.phases p
  rw [hphase] at hold
  refine h.write hinv hs rfl rfl rfl rfl rfl rfl ?_ rfl (by rintro _ _ ⟨⟩) (by rintro _ ⟨⟩)
  intro w hw
  rcases List.mem_cons.mp hw with rfl | hw
  · rintro uid (rfl : userId = some uid)
    exact hold.loaded uid authVersion rfl
  · rw [List.mem_singleton] at hw
    subst hw
    trivial

theorem rotateSession_versioned (h : Versioned s) (hinv : Inv s) {p : ℕ} {s3Active : Bool}
    {startedAt now token : ℕ} {row : RefreshToken}
    (hs : advance settings s p s3Active (.rotateSession startedAt now token row) = some s') :
    Versioned s'.next := by
  cases hs
  refine h.goto hinv ?_
  split
  · exact .bare rfl rfl rfl
  · split
    · exact .plain rfl rfl (by rintro r ⟨⟩; rfl)
    · exact .bare rfl rfl rfl

theorem rotatePrincipal_versioned (h : Versioned s) (hinv : Inv s) {p : ℕ} {s3Active : Bool}
    {rotation : Rotation} (hphase : s.phase p = .rotatePrincipal rotation)
    (hs : advance settings s p s3Active (.rotatePrincipal rotation) = some s') : Versioned s'.next := by
  cases hs
  refine h.goto hinv ?_
  split
  · rename_i hactive
    refine ⟨by rintro _ _ ⟨⟩, by rintro _ _ ⟨⟩, ?_⟩
    rintro r ⟨⟩ _
    exact h.principal hinv (p := p) (r := ⟨_, _, _, false⟩) (by rw [hphase]; rfl) hactive
  · exact .bare rfl rfl rfl

theorem rotateClaim_versioned (h : Versioned s) (hinv : Inv s) {p : ℕ} {s3Active : Bool}
    {rotation : Rotation} (hphase : s.phase p = .rotateClaim rotation)
    (hs : advance settings s p s3Active (.rotateClaim rotation) = some s') : Versioned s'.next := by
  simp only [advance] at hs
  split at hs
  · refine h.write hinv hs rfl rfl rfl rfl rfl rfl (by simp [VersionOk]) rfl (by rintro _ _ ⟨⟩) ?_
    rw [hphase]
    exact fun r hr => hr
  · cases hs
    exact h.rollback hinv (.bare rfl rfl rfl)

theorem rotateCommit_versioned (h : Versioned s) (hinv : Inv s) {p : ℕ} {s3Active : Bool}
    {rotation : Rotation} (hphase : s.phase p = .rotateCommit rotation)
    (hs : advance settings s p s3Active (.rotateCommit rotation) = some s') : Versioned s'.next := by
  cases hs
  refine h.commit hinv _ [] rfl rfl rfl rfl rfl (by simp; rfl) ?_ (by rintro _ ⟨⟩)
  intro a ha
  rw [List.mem_singleton] at ha
  subst ha
  exact ⟨_, by rw [hphase]; rfl, rfl, rfl, rfl⟩

theorem validateSession_versioned (h : Versioned s) (hinv : Inv s) {p : ℕ} {s3Active : Bool}
    {startedAt now id : ℕ} {expectsUser : Bool}
    (hs : advance settings s p s3Active (.validateSession startedAt now id expectsUser) = some s') :
    Versioned s'.next := by
  cases hs
  refine h.goto hinv ?_
  split
  · exact .bare rfl rfl rfl
  · split
    · exact .plain rfl rfl (by rintro r ⟨⟩; rfl)
    · exact .bare rfl rfl rfl

theorem validatePrincipal_versioned (h : Versioned s) (hinv : Inv s) {p : ℕ} {s3Active : Bool}
    {startedAt now id : ℕ} {session : AuthSession}
    (hphase : s.phase p = .validatePrincipal startedAt now id session)
    (hs : advance settings s p s3Active (.validatePrincipal startedAt now id session) = some s') :
    Versioned s'.next := by
  cases hs
  refine h.goto hinv ?_
  split
  · rename_i hactive
    refine ⟨by rintro _ _ ⟨⟩, by rintro _ _ ⟨⟩, ?_⟩
    rintro r ⟨⟩ _
    exact h.principal hinv (p := p) (r := ⟨_, _, _, false⟩) (by rw [hphase]; rfl) hactive
  · exact .bare rfl rfl rfl

theorem validateCommit_versioned (h : Versioned s) (hinv : Inv s) {p : ℕ} {s3Active : Bool}
    {startedAt id : ℕ} {session : AuthSession} (hphase : s.phase p = .validateCommit startedAt id session)
    (hs : advance settings s p s3Active (.validateCommit startedAt id session) = some s') :
    Versioned s'.next := by
  cases hs
  refine h.commit hinv _ [] rfl rfl rfl rfl rfl (by simp; rfl) ?_ (by rintro _ ⟨⟩)
  intro a ha
  rw [List.mem_singleton] at ha
  subst ha
  exact ⟨_, by rw [hphase]; rfl, rfl, rfl, rfl⟩

theorem allLoad_versioned (h : Versioned s) (hinv : Inv s) {p : ℕ} {s3Active : Bool} {userId : ℕ}
    {incrementVersion : Bool}
    (hs : advance settings s p s3Active (.allLoad userId incrementVersion) = some s') :
    Versioned s'.next := by
  cases hs
  refine h.goto hinv ?_
  split
  · exact .bare rfl rfl rfl
  · rename_i user huser
    cases incrementVersion
    · exact .bare rfl rfl rfl
    · refine ⟨?_, by rintro _ _ ⟨⟩, by rintro _ ⟨⟩⟩
      rintro _ _ ⟨⟩
      exact ⟨user, huser, Nat.le_refl _⟩

theorem allVersion_versioned (h : Versioned s) (hinv : Inv s) {p : ℕ} {s3Active : Bool}
    {userId version now : ℕ} {sessions : List ℕ}
    (hphase : s.phase p = .allVersion userId version now sessions)
    (hunmoved : versionUnmoved s (.advance p s3Active) = true)
    (hs : advance settings s p s3Active (.allVersion userId version now sessions) = some s') :
    Versioned s'.next := by
  have hold := h.phases p
  rw [hphase] at hold
  have hcurrent : (s.db.users userId).all (fun user => user.authVersion = version) = true := by
    simp only [versionUnmoved, hphase] at hunmoved
    exact hunmoved
  refine h.write hinv hs rfl rfl rfl rfl rfl rfl ?_ rfl ?_ (by rintro _ ⟨⟩)
  · intro w hw
    rw [List.mem_singleton] at hw
    subst hw
    obtain ⟨user, huser, _⟩ := hold.loaded userId version rfl
    rw [huser] at hcurrent
    exact ⟨user, huser, congrArg (· + 1) (of_decide_eq_true hcurrent).symm⟩
  · rintro _ _ ⟨⟩
    exact .inr (List.mem_singleton.mpr rfl)

theorem allCommit_versioned (h : Versioned s) (hinv : Inv s) {p : ℕ} {s3Active : Bool} {userId : ℕ}
    {version : Option ℕ} (hphase : s.phase p = .allCommit userId version)
    (hs : advance settings s p s3Active (.allCommit userId version) = some s') : Versioned s'.next := by
  cases hs
  refine h.commit hinv [] _ rfl rfl rfl rfl (by simp; rfl) rfl (by rintro _ ⟨⟩) ?_
  rw [hphase]
  cases version with
  | none => rintro _ ⟨⟩
  | some version =>
    intro e he
    rw [List.mem_singleton] at he
    subst he
    exact ⟨rfl, rfl⟩

theorem advance_versioned (h : Versioned s) (hinv : Inv s) {p : ℕ} {s3Active : Bool}
    (hunmoved : versionUnmoved s (.advance p s3Active) = true)
    (hs : advance settings s p s3Active (s.phase p) = some s') : Versioned s'.next := by
  have hold := h.phases p
  cases hphase : s.phase p with
  | idle =>
    rw [hphase] at hs
    cases hs
  | createLoad userId =>
    rw [hphase] at hs
    exact createLoad_versioned h hinv hs
  | createInsert userId authVersion now absolute =>
    rw [hphase] at hs
    exact createInsert_versioned h hinv hphase hs
  | createCommit =>
    rw [hphase] at hs
    cases hs
    exact h.commit hinv [] [] rfl rfl rfl rfl (by simp; rfl) (by simp; rfl) (by rintro _ ⟨⟩) (by rintro _ ⟨⟩)
  | rotateToken startedAt now token =>
    rw [hphase] at hs
    cases hs
    refine h.goto hinv ?_
    split
    · exact .bare rfl rfl rfl
    · split <;> exact .bare rfl rfl rfl
  | rotateSession startedAt now token row =>
    rw [hphase] at hs
    exact rotateSession_versioned h hinv hs
  | rotatePrincipal rotation =>
    rw [hphase] at hs
    exact rotatePrincipal_versioned h hinv hphase hs
  | rotateClaim rotation =>
    rw [hphase] at hs
    exact rotateClaim_versioned h hinv hphase hs
  | rotateInsert rotation =>
    rw [hphase] at hs
    simp only [advance] at hs
    refine h.write hinv hs rfl rfl rfl rfl rfl rfl (by simp [VersionOk]) rfl (by rintro _ _ ⟨⟩) ?_
    rw [hphase]
    exact fun r hr => hr
  | rotateTouch rotation =>
    rw [hphase] at hs
    refine h.write hinv hs rfl rfl rfl rfl rfl rfl (by simp [VersionOk]) rfl (by rintro _ _ ⟨⟩) ?_
    rw [hphase]
    exact fun r hr => hr
  | rotateCommit rotation =>
    rw [hphase] at hs
    exact rotateCommit_versioned h hinv hphase hs
  | validateSession startedAt now id expectsUser =>
    rw [hphase] at hs
    exact validateSession_versioned h hinv hs
  | validatePrincipal startedAt now id session =>
    rw [hphase] at hs
    exact validatePrincipal_versioned h hinv hphase hs
  | validateTouch startedAt now id session =>
    rw [hphase] at hs
    refine h.write hinv hs rfl rfl rfl rfl rfl rfl (by simp [VersionOk]) rfl (by rintro _ _ ⟨⟩) ?_
    rw [hphase]
    exact fun r hr => hr
  | validateCommit startedAt id session =>
    rw [hphase] at hs
    exact validateCommit_versioned h hinv hphase hs
  | familySelect family now =>
    rw [hphase] at hs
    cases hs
    exact h.goto hinv (.bare rfl rfl rfl)
  | familyTokens family now sessions =>
    rw [hphase] at hs
    exact h.write hinv hs rfl rfl rfl rfl rfl rfl (by simp [VersionOk]) rfl (by rintro _ _ ⟨⟩) (by rintro _ ⟨⟩)
  | familySessions now sessions =>
    rw [hphase] at hs
    simp only [advance] at hs
    refine h.write hinv hs rfl rfl rfl rfl rfl rfl ?_ rfl (by rintro _ _ ⟨⟩) (by rintro _ ⟨⟩)
    intro w hw
    obtain ⟨id, _, rfl⟩ := List.mem_map.mp hw
    trivial
  | familyCommit sessions =>
    rw [hphase] at hs
    cases hs
    exact h.commit hinv [] [] rfl rfl rfl rfl (by simp; rfl) (by simp; rfl) (by rintro _ ⟨⟩) (by rintro _ ⟨⟩)
  | revokeSession session now =>
    rw [hphase] at hs
    exact h.write hinv hs rfl rfl rfl rfl rfl rfl (by simp [VersionOk]) rfl (by rintro _ _ ⟨⟩) (by rintro _ ⟨⟩)
  | revokeSessionTokens session now =>
    rw [hphase] at hs
    exact h.write hinv hs rfl rfl rfl rfl rfl rfl (by simp [VersionOk]) rfl (by rintro _ _ ⟨⟩) (by rintro _ ⟨⟩)
  | revokeSessionCommit =>
    rw [hphase] at hs
    cases hs
    exact h.commit hinv [] [] rfl rfl rfl rfl (by simp; rfl) (by simp; rfl) (by rintro _ ⟨⟩) (by rintro _ ⟨⟩)
  | allLoad userId incrementVersion =>
    rw [hphase] at hs
    exact allLoad_versioned h hinv hs
  | allSelect userId version now =>
    rw [hphase] at hs hold
    cases hs
    refine h.goto hinv ?_
    cases version with
    | none => exact .bare rfl rfl rfl
    | some version => exact ⟨hold.loaded, by rintro _ _ ⟨⟩, by rintro _ ⟨⟩⟩
  | allVersion userId version now sessions =>
    rw [hphase] at hs
    exact allVersion_versioned h hinv hphase hunmoved hs
  | allSessions userId version now sessions =>
    rw [hphase] at hs
    refine h.write hinv hs rfl rfl rfl rfl rfl rfl (by simp [VersionOk]) rfl ?_ (by rintro _ ⟨⟩)
    rw [hphase]
    cases version with
    | none => rintro _ _ ⟨⟩
    | some version => exact fun _ _ hwritten => .inl hwritten
  | allTokens userId version now sessions =>
    rw [hphase] at hs
    refine h.write hinv hs rfl rfl rfl rfl rfl rfl (by simp [VersionOk]) rfl ?_ (by rintro _ ⟨⟩)
    rw [hphase]
    cases version with
    | none => rintro _ _ ⟨⟩
    | some version => exact fun _ _ hwritten => .inl hwritten
  | allCommit userId version =>
    rw [hphase] at hs
    exact allCommit_versioned h hinv hphase hs

theorem step_versioned {label : Label} (h : Versioned s) (hinv : Inv s)
    (hunmoved : versionUnmoved s label = true) (hs : step settings s label = some s') :
    Versioned s' := by
  obtain ⟨t, ht, rfl⟩ := Option.map_eq_some_iff.mp hs
  have hstart : ∀ p phase, start s p phase = some t →
      PhaseVersion (s.goto p phase).next p phase → Versioned t.next := by
    intro p phase hp hok
    obtain ⟨_, rfl⟩ := Option.ite_none_right_eq_some.mp hp |>.imp_right Option.some.inj
    exact h.goto hinv hok
  cases label with
  | tick elapsed =>
    cases ht
    exact h.environment hinv s.db.users (fun _ user huser => ⟨user, huser, rfl⟩) _
  | createForUser p userId => exact hstart p _ ht (.plain rfl rfl nofun)
  | createForS3 p absolute => exact hstart p _ ht (.plain rfl rfl nofun)
  | rotate p token => exact hstart p _ ht (.plain rfl rfl nofun)
  | validateAccess p session expectsUser => exact hstart p _ ht (.plain rfl rfl nofun)
  | revokeFamily p family => exact hstart p _ ht (.plain rfl rfl nofun)
  | revokeAllForUser p userId incrementVersion => exact hstart p _ ht (.plain rfl rfl nofun)
  | advance p s3Active => exact advance_versioned h hinv hunmoved ht
  | abort p =>
    cases ht
    exact h.rollback hinv (.plain rfl rfl nofun)
  | setActive userId isActive =>
    cases ht
    refine h.environment hinv _ ?_ s.clock
    intro uid user huser
    by_cases hid : uid = userId
    · subst hid
      exact ⟨{ user with isActive := isActive }, by rw [Function.update_self, huser]; rfl, rfl⟩
    · exact ⟨user, by rw [Function.update_of_ne hid]; exact huser, rfl⟩

/-! ## Revocation is final -/

theorem reached_inv {users : ℕ → Option User} {clock : ℕ}
    (h : Reached (step settings) anyStep (State.init users clock) s) : Inv s :=
  h.invariant (init_inv users clock) fun _ _ _ hinv _ hs => step_inv hinv hs

theorem reached_versioned {users : ℕ → Option User} {clock : ℕ}
    (h : Reached (step settings) (fun s label => versionUnmoved s label = true)
      (State.init users clock) s) : Inv s ∧ Versioned s := by
  induction h with
  | init => exact ⟨init_inv users clock, init_versioned users clock⟩
  | step _ hunmoved hs ih => exact ⟨step_inv ih.1 hs, step_versioned ih.2 ih.1 hunmoved hs⟩

/-- In every run, each refresh token is rotated at most once, no call that starts after a committed
family revocation uses the session, and no session idles past its absolute expiry. In the runs where
every revocation of a user writes the version after the committed one, no call that starts after it
uses a session of the user that was there before. -/
theorem session_revocation_is_final (settings : Settings) (users : ℕ → Option User) (clock : ℕ) :
    (∀ s, Reached (step settings) anyStep (State.init users clock) s →
      s.rotated.Nodup ∧
      (∀ a ∈ s.accepted, ∀ e ∈ s.familyRevoked, e.1 = a.session → a.startedAt < e.2) ∧
      ∀ id row, s.db.sessions id = some row → row.idleExpiresAt ≤ row.absoluteExpiresAt) ∧
    ∀ s, Reached (step settings) (fun s label => versionUnmoved s label = true)
        (State.init users clock) s →
      ∀ a ∈ s.accepted, ∀ e ∈ s.allRevoked, a.row.userId = some e.userId →
        a.row.committedAt < e.time → a.startedAt < e.time := by
  constructor
  · intro s hs
    have hinv := reached_inv hs
    exact ⟨hinv.rotated, fun a ha => (hinv.accepted a ha).2, hinv.idle⟩
  · intro s hs
    exact (reached_versioned hs).2.accepted

/-! ### One user -/

def halfHour : Settings := ⟨fun _ => 30, 60⟩

def oneUser : ℕ → Option User := fun id => if id = 1 then some ⟨true, 1⟩ else none

def advances (p n : ℕ) : List Label := List.replicate n (.advance p true)

/-- A login, a rotation of its first token, a logout everywhere and one more login. -/
def logoutEverywhere : List Label :=
  List.flatten [[.createForUser 0 1], advances 0 3, [.rotate 0 0], advances 0 7,
    [.revokeAllForUser 0 1 true], advances 0 6, [.createForUser 0 1], advances 0 3,
    [.validateAccess 0 2 true], advances 0 4]

theorem session_revocation_is_final_logoutEverywhere :
    ∃ s, Reached (step halfHour) (fun s label => versionUnmoved s label = true)
        (State.init oneUser 0) s ∧ s.rotated = [0] ∧ s.accepted.length = 2 ∧
      s.allRevoked.map RevokedAll.version = [2] ∧
      ∀ a ∈ s.accepted, ∀ e ∈ s.allRevoked, a.row.userId = some e.userId →
        a.row.committedAt < e.time → a.startedAt < e.time := by
  have hrun : (afterOk (step halfHour) versionUnmoved (State.init oneUser 0) logoutEverywhere).any
      (fun s => s.rotated = [0] && s.accepted.length = 2 &&
        s.allRevoked.map RevokedAll.version = [2]) = true := by
    decide +kernel
  obtain ⟨s, hs, hend⟩ := (Option.any_eq_true _ _).mp hrun
  simp only [Bool.and_eq_true, decide_eq_true_eq] at hend
  have hreached := Reached.init.afterOk hs
  exact ⟨s, hreached, hend.1.1, hend.1.2, hend.2,
    (session_revocation_is_final halfHour oneUser 0).2 s hreached⟩

/-- Two revocations load version 1. The first commits version 2, a login starts a session with it, and
the second commits version 2 again without having seen the session. -/
def crossedLogouts : List Label :=
  List.flatten [[.revokeAllForUser 0 1 true, .revokeAllForUser 1 1 true], advances 0 1, advances 1 2,
    advances 0 5, [.createForUser 2 1], advances 2 3, advances 1 4, [.validateAccess 3 0 true],
    advances 3 4]

theorem crossed_logouts_leave_session :
    ¬ ∀ (settings : Settings) (users : ℕ → Option User) (clock : ℕ) (s : State),
      Reached (step settings) anyStep (State.init users clock) s →
      ∀ a ∈ s.accepted, ∀ e ∈ s.allRevoked, a.row.userId = some e.userId →
        a.row.committedAt < e.time → a.startedAt < e.time := by
  intro h
  have hrun : (after (step halfHour) (State.init oneUser 0) crossedLogouts).any (fun s =>
      s.accepted.any fun a => s.allRevoked.any fun e => a.row.userId = some e.userId &&
        a.row.committedAt < e.time && e.time ≤ a.startedAt) = true := by
    decide +kernel
  obtain ⟨s, hs, hend⟩ := (Option.any_eq_true _ _).mp hrun
  obtain ⟨a, ha, hend⟩ := List.any_eq_true.mp hend
  obtain ⟨e, he, hend⟩ := List.any_eq_true.mp hend
  simp only [Bool.and_eq_true, decide_eq_true_eq] at hend
  have := h halfHour oneUser 0 s (Reached.init.after hs) a ha e he hend.1.1 hend.1.2
  omega

end Sessions
end BucketReef

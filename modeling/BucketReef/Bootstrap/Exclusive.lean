import BucketReef.Bootstrap.FirstAdmin

/-!
# Only one first administrator

A call that is about to commit holds the row and found it unconsumed. So a commit that creates the
administrator is the last one, and the token it accepts is the one the commit before has issued.
-/

namespace BucketReef
namespace Bootstrap

open Transitions

/-- The token that was issued before the run. -/
def Db.issuedBefore (db : Db) : List Event :=
  match db.row with
  | some { tokenDigest := some token, expiresAt := some expiresAt, .. } => [.issued token expiresAt]
  | _ => []

def Event.created? : Event → Bool
  | issued _ _ => false
  | created _ _ _ => true

/-- A creation ends the history, and accepts the token that was issued last. -/
def Exclusive (before history : List Event) : Prop :=
  ∀ past token email now later, history = past ++ .created token email now :: later →
    later = [] ∧ ∀ digest, token = some digest →
      ∃ expiresAt, (before ++ past).getLast? = some (.issued digest expiresAt) ∧ now < expiresAt

/-- A call may commit `event` now. -/
def Ready (db : Db) : Event → Prop
  | .issued _ _ => ∀ row, db.row = some row → row.consumedAt = none
  | .created token _ now =>
    (∀ row, db.row = some row → row.consumedAt = none) ∧ ∀ digest, token = some digest →
      ∃ row expiresAt, db.row = some row ∧ row.tokenDigest = some digest ∧
        row.expiresAt = some expiresAt ∧ now < expiresAt

/-- A phase that has written the row holds it. -/
def PhaseOk (s : State) (p : ℕ) : Phase → Prop
  | .insertUser token email now => s.lock = some p ∧ Ready s.db (.created token email now)
  | .commit event => s.lock = some p ∧ Ready s.db event
  | _ => True

structure Inv (db : Db) (s : State) : Prop where
  replayed : s.db = s.history.foldl Event.apply db
  exclusive : Exclusive db.issuedBefore s.history
  consumed : ∀ event ∈ s.history, event.created? = true →
    ∃ row, s.db.row = some row ∧ row.consumedAt ≠ none
  issued : ∀ row token expiresAt, s.db.row = some row → row.tokenDigest = some token →
    row.expiresAt = some expiresAt →
      (db.issuedBefore ++ s.history).getLast? = some (.issued token expiresAt)
  phases : ∀ p, PhaseOk s p (s.phase p)

variable {db : Db} {s s' : State} {p : ℕ}

/-! ## Phases -/

theorem phaseOk_of {q : ℕ} {phase : Phase} (h : PhaseOk s q phase) (hdb : s'.db = s.db)
    (hlock : s.lock = some q → s'.lock = some q) : PhaseOk s' q phase := by
  cases phase with
  | insertUser token email now => exact ⟨hlock h.1, hdb ▸ h.2⟩
  | commit event => exact ⟨hlock h.1, hdb ▸ h.2⟩
  | _ => trivial

theorem goto_inv {phase : Phase} (h : Inv db s) (hphase : PhaseOk s p phase) :
    Inv db (s.goto p phase) := by
  refine ⟨h.replayed, h.exclusive, h.consumed, h.issued, ?_⟩
  intro q
  show PhaseOk (s.goto p phase) q (Function.update s.phase p phase q)
  by_cases hq : q = p
  · subst hq
    rw [Function.update_self]
    exact phaseOk_of hphase rfl id
  · rw [Function.update_of_ne hq]
    exact phaseOk_of (h.phases q) rfl id

theorem leave_inv (h : Inv db s) : Inv db (s.leave p) := by
  refine ⟨h.replayed, h.exclusive, h.consumed, h.issued, ?_⟩
  intro q
  show PhaseOk (s.leave p) q (Function.update s.phase p .idle q)
  by_cases hq : q = p
  · subst hq
    rw [Function.update_self]
    trivial
  · rw [Function.update_of_ne hq]
    refine phaseOk_of (h.phases q) rfl ?_
    intro hlock
    have hother : ¬s.lock = some p := by
      rw [hlock]
      exact fun hsame => hq (Option.some.inj hsame)
    exact (if_neg hother).trans hlock

theorem finish_inv {outcome : Outcome} (h : Inv db s) : Inv db (s.finish p outcome) := by
  obtain ⟨hreplayed, hexclusive, hconsumed, hissued, hphases⟩ := leave_inv (p := p) h
  refine ⟨hreplayed, hexclusive, hconsumed, hissued, fun q => ?_⟩
  exact phaseOk_of (hphases q) rfl id

theorem write_inv {allowed : Bool} {next : Phase} (h : Inv db s)
    (hs : s.write p allowed next = some s')
    (hnext : allowed = true → PhaseOk { s with lock := some p } p next) : Inv db s' := by
  unfold State.write at hs
  split at hs
  · cases hs
    exact finish_inv h
  · rename_i hallowed
    split at hs
    · rename_i hfree
      cases hs
      refine ⟨h.replayed, h.exclusive, h.consumed, h.issued, ?_⟩
      intro q
      show PhaseOk _ q (Function.update s.phase p next q)
      by_cases hq : q = p
      · subst hq
        rw [Function.update_self]
        exact phaseOk_of (hnext (by simpa using hallowed)) rfl id
      · rw [Function.update_of_ne hq]
        refine phaseOk_of (h.phases q) rfl ?_
        intro hlock
        cases hfree.symm.trans hlock
    · cases hs

/-! ## Commits -/

theorem apply_consumed {event : Event} (h : event.created? = true) :
    ∃ row, (event.apply db).row = some row ∧ row.consumedAt ≠ none := by
  cases event with
  | issued token expiresAt => cases h
  | created token email now => exact ⟨_, rfl, nofun⟩

/-- Nothing was created before a call that is about to commit. -/
theorem not_created_of_ready {event past : Event} (h : Inv db s) (hready : Ready s.db event)
    (hpast : past ∈ s.history) : past.created? = false := by
  by_contra hcreated
  obtain ⟨row, hrow, hconsumed⟩ := h.consumed past hpast (by simpa using hcreated)
  cases event with
  | issued token expiresAt => exact hconsumed (hready row hrow)
  | created token email now => exact hconsumed (hready.1 row hrow)

theorem exclusive_append {event : Event} (h : Inv db s) (hready : Ready s.db event) :
    Exclusive db.issuedBefore (s.history ++ [event]) := by
  rintro past token email now later hhistory
  have hnone : ∀ e ∈ s.history, e.created? = false := fun e he => not_created_of_ready h hready he
  rcases List.append_eq_append_iff.mp hhistory with ⟨middle, hpast, hrest⟩ | ⟨middle, hhistory', hrest⟩
  · cases middle with
    | nil =>
      simp only [List.nil_append, List.cons.injEq] at hrest
      obtain ⟨rfl, rfl⟩ := hrest
      refine ⟨rfl, ?_⟩
      rintro digest rfl
      obtain ⟨row, expiresAt, hrow, hdigest, hexpires, hnow⟩ := hready.2 digest rfl
      rw [hpast, List.append_nil]
      exact ⟨expiresAt, h.issued row digest expiresAt hrow hdigest hexpires, hnow⟩
    | cons e middle => simp at hrest
  · cases middle with
    | nil =>
      simp only [List.nil_append, List.cons.injEq] at hrest
      obtain ⟨rfl, rfl⟩ := hrest
      refine ⟨rfl, ?_⟩
      rintro digest rfl
      obtain ⟨row, expiresAt, hrow, hdigest, hexpires, hnow⟩ := hready.2 digest rfl
      rw [List.append_nil] at hhistory'
      rw [← hhistory']
      exact ⟨expiresAt, h.issued row digest expiresAt hrow hdigest hexpires, hnow⟩
    | cons e middle =>
      simp only [List.cons_append, List.cons.injEq] at hrest
      obtain ⟨rfl, -⟩ := hrest
      have := hnone (.created token email now) (by rw [hhistory']; simp)
      cases this

theorem commit_inv {event : Event} (h : Inv db s) (hlock : s.lock = some p)
    (hready : Ready s.db event) : Inv db (s.commit p event) := by
  refine ⟨?_, exclusive_append h hready, ?_, ?_, ?_⟩
  · show event.apply s.db = (s.history ++ [event]).foldl Event.apply db
    rw [List.foldl_append, ← h.replayed]
    rfl
  · intro e he hcreated
    rcases List.mem_append.mp he with he | he
    · rw [not_created_of_ready h hready he] at hcreated
      cases hcreated
    · rw [List.mem_singleton.mp he] at hcreated
      exact apply_consumed hcreated
  · intro row token expiresAt hrow htoken hexpires
    show (db.issuedBefore ++ (s.history ++ [event])).getLast? = _
    rw [← List.append_assoc, List.getLast?_concat]
    cases event with
    | issued token' expiresAt' =>
      cases hrow
      cases htoken
      cases hexpires
      rfl
    | created token' email now =>
      cases hrow
      cases htoken
  · intro q
    show PhaseOk _ q (Function.update s.phase p (.audit event) q)
    by_cases hq : q = p
    · subst hq
      rw [Function.update_self]
      trivial
    · rw [Function.update_of_ne hq]
      have hphase := h.phases q
      have hother : s.lock ≠ some q := by
        rw [hlock]
        exact fun hsame => hq (Option.some.inj hsame).symm
      cases hp : s.phase q with
      | insertUser token email now =>
        rw [hp] at hphase
        exact absurd hphase.1 hother
      | commit event =>
        rw [hp] at hphase
        exact absurd hphase.1 hother
      | _ => trivial

/-! ## One step -/

theorem unconsumed_of_open (h : s.db.open = true) : ∀ row, s.db.row = some row → row.consumedAt = none := by
  intro row hrow
  simp only [Db.open, hrow, Bool.and_eq_true, Option.any_some, decide_eq_true_eq] at h
  exact h.1

theorem unconsumed_of_allowed {rowFound : Bool}
    (h : (if rowFound then s.db.open else s.db.row.isNone) = true) :
    ∀ row, s.db.row = some row → row.consumedAt = none := by
  cases rowFound with
  | true => exact unconsumed_of_open h
  | false =>
    intro row hrow
    simp [hrow] at h

theorem advance_inv {newToken : ℕ} {phase : Phase} (h : Inv db s) (hphase : PhaseOk s p phase)
    (hs : advance s p newToken phase = some s') : Inv db s' := by
  cases phase with
  | idle => cases hs
  | issueUsers ttlMinutes =>
    cases hs
    split
    · exact goto_inv h trivial
    · exact finish_inv h
  | issueRead token expiresAt =>
    cases hs
    exact goto_inv h trivial
  | issueWrite rowFound token expiresAt =>
    exact write_inv h hs fun hallowed => ⟨rfl, unconsumed_of_allowed hallowed⟩
  | createUsers email =>
    cases hs
    split
    · exact goto_inv h trivial
    · exact finish_inv h
  | createRead token email now =>
    cases token with
    | none =>
      cases hs
      exact goto_inv h trivial
    | some token =>
      cases hs
      split
      · exact goto_inv h trivial
      · exact finish_inv h
  | createWrite rowFound token email now =>
    cases token with
    | none => exact write_inv h hs fun hallowed => ⟨rfl, unconsumed_of_allowed hallowed, nofun⟩
    | some token =>
      refine write_inv h hs ?_
      intro hallowed
      rw [Bool.and_eq_true] at hallowed
      refine ⟨rfl, unconsumed_of_open hallowed.1, ?_⟩
      rintro digest hdigest
      cases hdigest
      obtain ⟨row, hrow, haccepts⟩ := (Option.any_eq_true _ _).mp hallowed.2
      simp only [FirstAdminBootstrap.accepts, Bool.and_eq_true, decide_eq_true_eq] at haccepts
      obtain ⟨expiresAt, hexpires, hnow⟩ := (Option.any_eq_true _ _).mp haccepts.2
      exact ⟨row, expiresAt, hrow, haccepts.1.1, hexpires, of_decide_eq_true hnow⟩
  | insertUser token email now =>
    cases hs
    split
    · exact finish_inv h
    · exact goto_inv h hphase
  | commit event =>
    cases hs
    exact commit_inv h hphase.1 hphase.2
  | audit event =>
    cases hs
    exact finish_inv h

theorem start_inv {phase : Phase} (h : Inv db s) (hs : start s p phase = some s')
    (hphase : PhaseOk s p phase) : Inv db s' := by
  unfold start at hs
  split at hs
  · cases hs
    exact goto_inv h hphase
  · cases hs

theorem step_inv {label : Label} (h : Inv db s) (hs : step s label = some s') : Inv db s' := by
  cases label with
  | tick elapsed =>
    cases hs
    refine ⟨h.replayed, h.exclusive, h.consumed, h.issued, ?_⟩
    intro q
    have hphase := h.phases q
    show PhaseOk _ q (s.phase q)
    cases hp : s.phase q <;> rw [hp] at hphase <;> exact hphase
  | issueToken p ttlMinutes =>
    simp only [step] at hs
    split at hs
    · exact start_inv h hs trivial
    · cases hs
  | createWithToken p token email => exact start_inv h hs trivial
  | createFromCli p email => exact start_inv h hs trivial
  | advance p newToken => exact advance_inv h (h.phases p) hs
  | fail p =>
    simp only [step] at hs
    split at hs
    · cases hs
    · cases hs
      exact finish_inv h
    · cases hs
      exact finish_inv h
  | crash p =>
    cases hs
    exact leave_inv h

theorem init_inv (clock : ℕ) (db : Db) : Inv db (State.init clock db) := by
  refine ⟨rfl, ?_, fun _ he => absurd he List.not_mem_nil, ?_, fun _ => trivial⟩
  · intro past token email now later hhistory
    exact absurd hhistory (by simp [State.init])
  · intro row token expiresAt hrow htoken hexpires
    obtain ⟨tokenDigest, expires, consumedAt⟩ := row
    cases htoken
    cases hexpires
    have hbefore : db.issuedBefore = [.issued token expiresAt] := by
      unfold Db.issuedBefore
      rw [show db.row = _ from hrow]
    show (db.issuedBefore ++ []).getLast? = _
    rw [hbefore]
    rfl

/-! ## The ends of the calls -/

def Outcome.committed? : Outcome → Option Event
  | .returned event => some event
  | .raised committed => committed

/-- The event that a call has committed when it has not ended yet. -/
def Phase.pending? : Phase → Option Event
  | .audit event => some event
  | _ => none

/-- The end of a call that has created an administrator. -/
def Outcome.creates (outcome : Outcome) : Bool := outcome.committed?.any Event.created?

/-- Calls end with what they have committed, and one of them at most has created an administrator. -/
structure Answered (s : State) : Prop where
  known : ∀ p outcome, (p, outcome) ∈ s.outcomes → ∀ event, outcome.committed? = some event →
    event ∈ s.history
  pending : ∀ p event, (s.phase p).pending? = some event → event ∈ s.history
  once : s.outcomes.countP (fun ended => ended.2.creates) ≤ 1
  alone : ∀ p event, (s.phase p).pending? = some event → event.created? = true →
    s.outcomes.countP (fun ended => ended.2.creates) = 0 ∧
      ∀ q other, (s.phase q).pending? = some other → other.created? = true → q = p

theorem pending_goto {phase : Phase} {q : ℕ} {event : Event}
    (h : ((s.goto p phase).phase q).pending? = some event) :
    q = p ∧ phase.pending? = some event ∨ q ≠ p ∧ (s.phase q).pending? = some event := by
  have hphase : (s.goto p phase).phase q = Function.update s.phase p phase q := rfl
  rw [hphase] at h
  by_cases hq : q = p
  · subst hq
    rw [Function.update_self] at h
    exact .inl ⟨rfl, h⟩
  · rw [Function.update_of_ne hq] at h
    exact .inr ⟨hq, h⟩

theorem pending_of_goto {phase : Phase} (hphase : phase.pending? = none) {q : ℕ} {event : Event}
    (h : ((s.goto p phase).phase q).pending? = some event) :
    q ≠ p ∧ (s.phase q).pending? = some event := by
  rcases pending_goto h with ⟨-, hnew⟩ | hold
  · rw [hphase] at hnew
    cases hnew
  · exact hold

/-- A statement before the commit. -/
theorem goto_answered {phase : Phase} (h : Answered s) (hphase : phase.pending? = none) :
    Answered (s.goto p phase) where
  known := h.known
  pending q event hq := h.pending q event (pending_of_goto hphase hq).2
  once := h.once
  alone q event hq hcreated :=
    have hold := h.alone q event (pending_of_goto hphase hq).2 hcreated
    ⟨hold.1, fun r other hr => hold.2 r other (pending_of_goto hphase hr).2⟩

theorem leave_answered (h : Answered s) : Answered (s.leave p) :=
  have hgoto : Answered (s.goto p .idle) := goto_answered h rfl
  ⟨hgoto.known, hgoto.pending, hgoto.once, hgoto.alone⟩

theorem finish_answered {outcome : Outcome} (h : Answered s)
    (hout : ∀ event, outcome.committed? = some event → (s.phase p).pending? = some event) :
    Answered (s.finish p outcome) := by
  have hleave := leave_answered (p := p) h
  -- a call that ends with a creation was the only one
  have hcreates : outcome.creates = true →
      ∃ event, (s.phase p).pending? = some event ∧ event.created? = true := by
    intro hcreates
    obtain ⟨event, hevent, hcreated⟩ := (Option.any_eq_true _ _).mp hcreates
    exact ⟨event, hout event hevent, hcreated⟩
  refine ⟨?_, hleave.pending, ?_, ?_⟩
  · intro q ended hended event hevent
    rcases List.mem_append.mp hended with hold | hnew
    · exact h.known q ended hold event hevent
    · cases List.mem_singleton.mp hnew
      exact h.pending p event (hout event hevent)
  · show (s.outcomes ++ [(p, outcome)]).countP _ ≤ 1
    rw [List.countP_append, List.countP_singleton]
    split
    · rename_i hnew
      obtain ⟨event, hevent, hcreated⟩ := hcreates hnew
      have hnone := (h.alone p event hevent hcreated).1
      exact Nat.le_of_eq (congrArg (· + 1) hnone)
    · exact h.once
  · intro q event hq hcreated
    have hidle : Phase.idle.pending? = none := rfl
    obtain ⟨hne, hq⟩ := pending_of_goto hidle hq
    refine ⟨?_, (hleave.alone q event ?_ hcreated).2⟩
    · show (s.outcomes ++ [(p, outcome)]).countP _ = 0
      rw [List.countP_append, List.countP_singleton, (h.alone q event hq hcreated).1]
      split
      · rename_i hnew
        obtain ⟨other, hother, hcreated'⟩ := hcreates hnew
        exact absurd ((h.alone q event hq hcreated).2 p other hother hcreated').symm hne
      · rfl
    · show (Function.update s.phase p .idle q).pending? = some event
      rw [Function.update_of_ne hne]
      exact hq

theorem commit_answered {event : Event} (hinv : Inv db s) (h : Answered s) (hready : Ready s.db event) :
    Answered (s.commit p event) := by
  have hnone : ∀ past ∈ s.history, past.created? = true → False := fun past hpast hcreated => by
    rw [not_created_of_ready hinv hready hpast] at hcreated
    cases hcreated
  refine ⟨?_, ?_, h.once, ?_⟩
  · intro q ended hended past hpast
    exact List.mem_append_left _ (h.known q ended hended past hpast)
  · intro q past hq
    rcases pending_goto hq with ⟨-, hnew⟩ | ⟨-, hold⟩
    · cases hnew
      exact List.mem_append_right _ List.mem_cons_self
    · exact List.mem_append_left _ (h.pending q past hold)
  · intro q past hq hcreated
    constructor
    · refine List.countP_eq_zero.mpr fun ended hended hcreates => ?_
      obtain ⟨other, hother, hcreated'⟩ := (Option.any_eq_true _ _).mp hcreates
      exact hnone other (h.known ended.1 ended.2 hended other hother) hcreated'
    · intro r other hr hcreated'
      rcases pending_goto hq with ⟨rfl, -⟩ | ⟨-, hold⟩
      · rcases pending_goto hr with ⟨rfl, -⟩ | ⟨-, hold⟩
        · rfl
        · exact (hnone other (h.pending r other hold) hcreated').elim
      · exact (hnone past (h.pending q past hold) hcreated).elim

theorem rollback_answered (h : Answered s) : Answered (s.rollback p) :=
  finish_answered h fun _ hevent => by cases hevent

theorem write_answered {allowed : Bool} {next : Phase} (h : Answered s)
    (hs : s.write p allowed next = some s') (hnext : next.pending? = none) : Answered s' := by
  unfold State.write at hs
  split at hs
  · cases hs
    exact rollback_answered h
  · split at hs
    · cases hs
      have hgoto := goto_answered (p := p) h hnext
      exact ⟨hgoto.known, hgoto.pending, hgoto.once, hgoto.alone⟩
    · cases hs

theorem advance_answered {newToken : ℕ} {phase : Phase} (hinv : Inv db s) (h : Answered s)
    (hphase : s.phase p = phase) (hs : advance s p newToken phase = some s') : Answered s' := by
  cases phase with
  | idle => cases hs
  | issueUsers ttlMinutes =>
    cases hs
    split
    · exact goto_answered h rfl
    · exact rollback_answered h
  | issueRead token expiresAt =>
    cases hs
    exact goto_answered h rfl
  | issueWrite rowFound token expiresAt => exact write_answered h hs rfl
  | createUsers email =>
    cases hs
    split
    · exact goto_answered h rfl
    · exact rollback_answered h
  | createRead token email now =>
    cases token with
    | none =>
      cases hs
      exact goto_answered h rfl
    | some token =>
      cases hs
      split
      · exact goto_answered h rfl
      · exact rollback_answered h
  | createWrite rowFound token email now =>
    cases token with
    | none => exact write_answered h hs rfl
    | some token => exact write_answered h hs rfl
  | insertUser token email now =>
    cases hs
    split
    · exact rollback_answered h
    · exact goto_answered h rfl
  | commit event =>
    cases hs
    have hready := hinv.phases p
    rw [hphase] at hready
    exact commit_answered hinv h hready.2
  | audit event =>
    cases hs
    refine finish_answered h ?_
    rintro _ ⟨⟩
    rw [hphase]
    rfl

theorem start_answered {phase : Phase} (h : Answered s) (hs : start s p phase = some s')
    (hphase : phase.pending? = none) : Answered s' := by
  unfold start at hs
  split at hs
  · cases hs
    exact goto_answered h hphase
  · cases hs

theorem step_answered {label : Label} (hinv : Inv db s) (h : Answered s)
    (hs : step s label = some s') : Answered s' := by
  cases label with
  | tick elapsed =>
    cases hs
    exact ⟨h.known, h.pending, h.once, h.alone⟩
  | issueToken p ttlMinutes =>
    simp only [step] at hs
    split at hs
    · exact start_answered h hs rfl
    · cases hs
  | createWithToken p token email => exact start_answered h hs rfl
  | createFromCli p email => exact start_answered h hs rfl
  | advance p newToken => exact advance_answered hinv h rfl hs
  | fail p =>
    simp only [step] at hs
    split at hs
    · cases hs
    · rename_i event haudit
      cases hs
      refine finish_answered h ?_
      rintro _ ⟨⟩
      rw [haudit]
      rfl
    · cases hs
      exact rollback_answered h
  | crash p =>
    cases hs
    exact leave_answered h

theorem init_answered (clock : ℕ) (db : Db) : Answered (State.init clock db) where
  known := fun _ _ hended => absurd hended List.not_mem_nil
  pending := fun _ _ hpending => by cases hpending
  once := Nat.zero_le _
  alone := fun _ _ hpending => by cases hpending

theorem reached_inv {clock : ℕ} (hs : Reached step anyStep (State.init clock db) s) :
    Inv db s ∧ Answered s := by
  induction hs with
  | init => exact ⟨init_inv clock db, init_answered clock db⟩
  | step _ _ hstep ih => exact ⟨step_inv ih.1 hstep, step_answered ih.1 ih.2 hstep⟩

/-- Whatever the database was before, every change of it is a committed event of the history, and the
history has at most one creation: it comes last, and if it accepts a token, this is the one issued last,
and had not expired when the call read the clock. A call that returns has committed what it returns, one
that raises before its commit has changed nothing, and one call at most ends with an administrator. -/
theorem first_admin_exclusive (clock : ℕ) (db : Db) (s : State)
    (hs : Reached step anyStep (State.init clock db) s) :
    s.db = s.history.foldl Event.apply db ∧ Exclusive db.issuedBefore s.history ∧
      (∀ p outcome, (p, outcome) ∈ s.outcomes → ∀ event, outcome.committed? = some event →
        event ∈ s.history) ∧
      s.outcomes.countP (fun ended => ended.2.creates) ≤ 1 := by
  have hinv := reached_inv hs
  exact ⟨hinv.1.replayed, hinv.1.exclusive, hinv.2.known, hinv.2.once⟩

/-- A token is issued on an empty database, and two processes race to use it. -/
def race : List Label :=
  List.flatten [[.issueToken 0 15], List.replicate 5 (.advance 0 7),
    [.createWithToken 1 7 "a@example.org", .createFromCli 2 "b@example.org"],
    [.advance 1 0, .advance 2 0, .advance 2 0], List.replicate 4 (.advance 1 0), [.advance 2 0]]

theorem first_admin_exclusive_race :
    ∃ s, Reached step anyStep (State.init 0 ⟨none, []⟩) s ∧
      s.outcomes = [(0, .returned (.issued 7 900)),
        (1, .returned (.created (some 7) "a@example.org" 0)), (2, .raised none)] ∧
      s.history = [.issued 7 900, .created (some 7) "a@example.org" 0] ∧
      s.db = s.history.foldl Event.apply ⟨none, []⟩ ∧
      Exclusive (Db.issuedBefore ⟨none, []⟩) s.history := by
  have hrun : (after step (State.init 0 ⟨none, []⟩) race).any (fun s =>
      s.outcomes = [(0, .returned (.issued 7 900)),
        (1, .returned (.created (some 7) "a@example.org" 0)), (2, .raised none)] ∧
      s.history = [.issued 7 900, .created (some 7) "a@example.org" 0]) = true := by
    decide +kernel
  obtain ⟨s, hs, hend⟩ := (Option.any_eq_true _ _).mp hrun
  obtain ⟨houtcomes, hhistory⟩ := of_decide_eq_true hend
  have hreached := Reached.init.after hs
  obtain ⟨hdb, hexclusive, -⟩ := first_admin_exclusive 0 ⟨none, []⟩ s hreached
  exact ⟨s, hreached, houtcomes, hhistory, hdb, hexclusive⟩

end Bootstrap
end BucketReef

import BucketReef.Portal.Requests

/-!
# What sessions on one request rely on

A session may rely on a request it has taken over, and it must not take over one that another session
holds. A commit and an execution respect this as long as they do not interfere with another session.
-/

namespace BucketReef
namespace PortalRequests

open Effects

/-- The row still has the status the session read, and a pending request is not in the hands of
another session. -/
def World.uncontended (w : World) (me : ℕ) (object : Loaded) : Bool :=
  !object.moves || (w.requests object.id).any fun row =>
    row.status = object.base.status &&
      (row.status ≠ .pending || (w.executor object.id).all fun other => other = me)

/-- A session executes a request that it took over, or that is pending and was taken over by none. -/
def World.executable (w : World) (me id : ℕ) : Bool :=
  w.executor id = some me ||
    (w.executor id = none && (w.requests id).any fun row => row.status = .pending)

/-- The operation does not interfere with another session on the same request. -/
def Op.uncontended : Op → World → Session → Bool
  | .commit, w, s | .recordAction _, w, s => s.object.all (w.uncontended s.me)
  | .execute id, w, s => s.object.all (w.uncontended s.me) && w.executable s.me id
  | _, _, _ => true

/-! ## The rules of a session -/

/-- What session `me` may rely on. -/
structure Relies (me : ℕ) (w w' : World) : Prop where
  sessions : w.sessions ≤ w'.sessions
  row : ∀ id row, w.requests id = some row → ∃ row', w'.requests id = some row' ∧
    (row.status.final = true → row'.status = row.status) ∧
      (w.executor id = some me → row'.status = row.status)
  mine : ∀ id, w.executor id = some me →
    w'.executor id = some me ∧ w'.executions id = w.executions id
  others : ∀ id, w.executor id ≠ some me → w'.executor id ≠ some me

/-- The invariant of the rows. -/
structure Consistent (w : World) : Prop where
  once : ∀ id, w.executions id ≤ 1
  unexecuted : ∀ id, w.executor id = none → w.executions id = 0
  executor : ∀ id me, w.executor id = some me → me < w.sessions
  unused : ∀ id, w.nextRequestId ≤ id → w.requests id = none

/-- A session writes a new status only over an open one, and over `processing` only where it took
the request over itself. -/
def Entitled (w : World) (s : Session) : Prop :=
  s.me < w.sessions ∧ ∀ object, s.object = some object → object.moves = true →
    object.base.status.final = false ∧
      (object.base.status = .pending ∨ w.executor object.id = some s.me)

theorem Relies.refl (me : ℕ) (w : World) : Relies me w w :=
  ⟨Nat.le_refl _, fun _ row hrow => ⟨row, hrow, fun _ => rfl, fun _ => rfl⟩,
    fun _ h => ⟨h, rfl⟩, fun _ h => h⟩

theorem Relies.trans {me : ℕ} {w₁ w₂ w₃ : World} (h : Relies me w₁ w₂) (h' : Relies me w₂ w₃) :
    Relies me w₁ w₃ := by
  refine ⟨Nat.le_trans h.sessions h'.sessions, ?_, ?_, fun id hid => h'.others id (h.others id hid)⟩
  · intro id row hrow
    obtain ⟨row₂, hrow₂, hfinal, hmine⟩ := h.row id row hrow
    obtain ⟨row₃, hrow₃, hfinal', hmine'⟩ := h'.row id row₂ hrow₂
    refine ⟨row₃, hrow₃, ?_, ?_⟩
    · intro hf
      rw [hfinal' (by rw [hfinal hf]; exact hf), hfinal hf]
    · intro hm
      rw [hmine' (h.mine id hm).1, hmine hm]
  · intro id hid
    obtain ⟨hid₂, hexecutions⟩ := h.mine id hid
    obtain ⟨hid₃, hexecutions'⟩ := h'.mine id hid₂
    exact ⟨hid₃, hexecutions'.trans hexecutions⟩

/-- The session has no new status to write. -/
def Clean (s : Session) : Prop := ∀ object, s.object = some object → object.moves = false

def rules (me : ℕ) : Rules Op World Session where
  rely := Relies me
  inv := Consistent
  allowed op w s := op.uncontended w s = true
  require
    | .commit, w, s | .recordAction _, w, s => Entitled w s
    | .execute id, w, s =>
      s.me < w.sessions ∧ Clean s ∧ (w.executor id = some s.me → w.executions id = 0)
    | _, _, _ => True
  rely_refl := Relies.refl me
  rely_trans := Relies.trans

/-! ## What a commit changes -/

/-- Nobody gains or loses a request, and no status changes. -/
structure Unmoved (w w' : World) : Prop where
  sessions : w'.sessions = w.sessions
  executions : w'.executions = w.executions
  executor : w'.executor = w.executor
  row : ∀ id row, w.requests id = some row →
    ∃ row', w'.requests id = some row' ∧ row'.status = row.status

theorem Unmoved.relies {w w' : World} (h : Unmoved w w') (me : ℕ) : Relies me w w' := by
  refine ⟨Nat.le_of_eq h.sessions.symm, ?_, ?_, ?_⟩
  · intro id row hrow
    obtain ⟨row', hrow', hstatus⟩ := h.row id row hrow
    exact ⟨row', hrow', fun _ => hstatus, fun _ => hstatus⟩
  · intro id hid
    rw [h.executor, h.executions]
    exact ⟨hid, rfl⟩
  · intro id hid
    rw [h.executor]
    exact hid

theorem Unmoved.trans {w₁ w₂ w₃ : World} (h : Unmoved w₁ w₂) (h' : Unmoved w₂ w₃) :
    Unmoved w₁ w₃ := by
  refine ⟨h'.sessions.trans h.sessions, h'.executions.trans h.executions,
    h'.executor.trans h.executor, ?_⟩
  intro id row hrow
  obtain ⟨row₂, hrow₂, hstatus⟩ := h.row id row hrow
  obtain ⟨row₃, hrow₃, hstatus'⟩ := h'.row id row₂ hrow₂
  exact ⟨row₃, hrow₃, hstatus'.trans hstatus⟩

theorem unmoved_insert {w : World} (h : Consistent w) (row : PortalAdminRequest) :
    Unmoved w (w.insert row) := by
  refine ⟨rfl, rfl, rfl, ?_⟩
  intro id row' hrow
  have hne : id ≠ w.nextRequestId := by
    rintro rfl
    rw [h.unused _ (Nat.le_refl _)] at hrow
    cases hrow
  refine ⟨row', ?_, rfl⟩
  show Function.update w.requests w.nextRequestId (some row) id = some row'
  rw [Function.update_of_ne hne, hrow]

theorem consistent_insert {w : World} (h : Consistent w) (row : PortalAdminRequest) :
    Consistent (w.insert row) := by
  refine ⟨h.once, h.unexecuted, h.executor, ?_⟩
  intro id hid
  have hlt : w.nextRequestId < id := hid
  show Function.update w.requests w.nextRequestId (some row) id = none
  rw [Function.update_of_ne (Nat.ne_of_gt hlt)]
  exact h.unused id (Nat.le_of_lt hlt)

theorem flushed_status_of_moves {object : Loaded} (h : object.moves = true)
    (row : PortalAdminRequest) : (object.flushed row).status = object.current.status := by
  have hne : object.current.status ≠ object.base.status := by simpa [Loaded.moves] using h
  rw [Loaded.flushed, pick, if_neg hne]

theorem flushed_status_of_not_moves {object : Loaded} (h : object.moves = false)
    (row : PortalAdminRequest) : (object.flushed row).status = row.status := by
  have heq : object.current.status = object.base.status := by simpa [Loaded.moves] using h
  rw [Loaded.flushed, pick, if_pos heq]

theorem unmoved_update {w : World} {object : Loaded} (h : object.moves = false) (me : ℕ) :
    Unmoved w (w.update me object) := by
  refine ⟨rfl, rfl, by simp [World.update, h], ?_⟩
  intro id row hrow
  by_cases hid : id = object.id
  · subst hid
    exact ⟨object.flushed row, by simp [World.update, hrow], flushed_status_of_not_moves h row⟩
  · exact ⟨row, by simp [World.update, hid, hrow], rfl⟩

theorem consistent_update {w : World} {me : ℕ} (h : Consistent w) (hme : me < w.sessions)
    (object : Loaded) : Consistent (w.update me object) := by
  have hunused : ∀ id, w.nextRequestId ≤ id →
      Function.update w.requests object.id ((w.requests object.id).map object.flushed) id = none := by
    intro id hid
    by_cases heq : id = object.id
    · subst heq
      rw [Function.update_self, h.unused _ hid, Option.map_none]
    · rw [Function.update_of_ne heq, h.unused id hid]
  unfold World.update
  split
  · rename_i hmoves
    refine ⟨h.once, ?_, ?_, hunused⟩
    · intro id hnone
      by_cases heq : id = object.id
      · subst heq
        simp at hnone
      · exact h.unexecuted id (by simpa [heq] using hnone)
    · intro id other hsome
      by_cases heq : id = object.id
      · subst heq
        have hself : me = other := by simpa using hsome
        exact hself ▸ hme
      · exact h.executor id other (by simpa [heq] using hsome)
  · exact ⟨h.once, h.unexecuted, h.executor, hunused⟩

/-- The row of an object with a new status, and who holds the request. -/
theorem row_of_uncontended {w : World} {me : ℕ} {object : Loaded}
    (hentitled : object.base.status = .pending ∨ w.executor object.id = some me)
    (huncontended : w.uncontended me object = true) (hmoves : object.moves = true) :
    ∃ row, w.requests object.id = some row ∧ row.status = object.base.status ∧
      (w.executor object.id = none ∨ w.executor object.id = some me) := by
  simp only [World.uncontended, hmoves, Bool.not_true, Bool.false_or, Option.any_eq_true,
    Bool.and_eq_true, decide_eq_true_eq, Bool.or_eq_true] at huncontended
  obtain ⟨row, hrow, hstatus, hheld⟩ := huncontended
  refine ⟨row, hrow, hstatus, ?_⟩
  rcases hentitled with hpending | hmine
  · rcases hheld with hne | hall
    · exact absurd (hstatus.trans hpending) hne
    · cases hexecutor : w.executor object.id with
      | none => exact .inl rfl
      | some other =>
        rw [hexecutor] at hall
        exact .inr (by simpa using hall)
  · exact .inr hmine

/-- The update of an entitled session takes no request from another one. -/
theorem relies_update {w : World} {s : Session} {object : Loaded} (hentitled : Entitled w s)
    (hobject : s.object = some object) (huncontended : w.uncontended s.me object = true) {me : ℕ}
    (hme : me ≠ s.me) : Relies me w (w.update s.me object) := by
  cases hmoves : object.moves with
  | false => exact (unmoved_update hmoves s.me).relies me
  | true =>
    obtain ⟨hopen, hheld⟩ := hentitled.2 object hobject hmoves
    obtain ⟨row, hrow, hstatus, hexecutor⟩ := row_of_uncontended hheld huncontended hmoves
    have hnotMe : w.executor object.id ≠ some me := by
      rcases hexecutor with hnone | hmine
      · rw [hnone]
        simp
      · rw [hmine]
        simpa using hme.symm
    have hexecutor_ne : ∀ id, id ≠ object.id → (w.update s.me object).executor id = w.executor id := by
      intro id hne
      unfold World.update
      split
      · exact Function.update_of_ne hne ..
      · rfl
    refine ⟨Nat.le_refl _, ?_, ?_, ?_⟩
    · intro id row' hrow'
      by_cases hid : id = object.id
      · subst hid
        rw [hrow] at hrow'
        cases hrow'
        refine ⟨object.flushed row, by simp [World.update, hrow], ?_, fun h => absurd h hnotMe⟩
        intro hfinal
        rw [hstatus, hopen] at hfinal
        cases hfinal
      · exact ⟨row', by simp [World.update, hid, hrow'], fun _ => rfl, fun _ => rfl⟩
    · intro id hid
      have hne : id ≠ object.id := by
        rintro rfl
        exact hnotMe hid
      exact ⟨(hexecutor_ne id hne).trans hid, rfl⟩
    · intro id hid
      by_cases heq : id = object.id
      · subst heq
        unfold World.update
        split
        · simpa using hme.symm
        · exact hid
      · rw [hexecutor_ne id heq]
        exact hid

theorem consistent_updates {w : World} {s : Session} (h : Consistent w) (hme : s.me < w.sessions) :
    Consistent (s.object.elim w (w.update s.me)) := by
  cases s.object with
  | none => exact h
  | some object => exact consistent_update h hme object

theorem consistent_committed {w : World} {s : Session} (h : Consistent w) (hme : s.me < w.sessions) :
    Consistent (w.committed s) := by
  unfold World.committed
  cases s.adding with
  | none => exact consistent_updates h hme
  | some row => exact consistent_insert (consistent_updates h hme) row

/-- The insert of a commit moves no request. -/
theorem relies_inserts {w : World} {s : Session} (h : Consistent w) (hme : s.me < w.sessions) :
    Unmoved (s.object.elim w (w.update s.me)) (w.committed s) := by
  unfold World.committed
  cases s.adding with
  | none => exact ⟨rfl, rfl, rfl, fun _ row hrow => ⟨row, hrow, rfl⟩⟩
  | some row => exact unmoved_insert (consistent_updates h hme) row

theorem relies_committed {w : World} {s : Session} (h : Consistent w) (hentitled : Entitled w s)
    (huncontended : s.object.all (w.uncontended s.me) = true) {me : ℕ} (hme : me ≠ s.me) :
    Relies me w (w.committed s) := by
  refine Relies.trans ?_ ((relies_inserts h hentitled.1).relies me)
  cases hobject : s.object with
  | none => exact Relies.refl me w
  | some object =>
    rw [hobject] at huncontended
    exact relies_update hentitled hobject huncontended hme

/-- A session that has no status to write changes none. -/
theorem unmoved_committed {w : World} {s : Session} (h : Consistent w) (hme : s.me < w.sessions)
    (hclean : Clean s) : Unmoved w (w.committed s) := by
  refine Unmoved.trans ?_ (relies_inserts h hme)
  cases hobject : s.object with
  | none => exact ⟨rfl, rfl, rfl, fun _ row hrow => ⟨row, hrow, rfl⟩⟩
  | some object => exact unmoved_update (hclean object hobject) s.me

theorem Clean.entitled {w : World} {s : Session} (h : Clean s) (hme : s.me < w.sessions) :
    Entitled w s := by
  refine ⟨hme, fun object hobject hmoves => ?_⟩
  rw [h object hobject] at hmoves
  cases hmoves

/-- An execution is the first one of its request. -/
theorem executions_of_executable {w : World} {me id : ℕ} (h : Consistent w)
    (hmine : w.executor id = some me → w.executions id = 0) (hexecutable : w.executable me id = true) :
    w.executions id = 0 := by
  simp only [World.executable, Bool.or_eq_true, decide_eq_true_eq, Bool.and_eq_true] at hexecutable
  rcases hexecutable with hexecutor | ⟨hexecutor, -⟩
  · exact hmine hexecutor
  · exact h.unexecuted id hexecutor

theorem Unmoved.executable {w w' : World} (h : Unmoved w w') {me id : ℕ}
    (hexecutable : w.executable me id = true) : w'.executable me id = true := by
  simp only [World.executable, h.executor, Bool.or_eq_true, decide_eq_true_eq, Bool.and_eq_true,
    Option.any_eq_true] at hexecutable ⊢
  refine hexecutable.imp_right fun ⟨hnone, row, hrow, hpending⟩ => ?_
  obtain ⟨row', hrow', hstatus⟩ := h.row id row hrow
  exact ⟨hnone, row', hrow', hstatus.trans hpending⟩

theorem consistent_executing {w : World} {me id : ℕ} (h : Consistent w) (hme : me < w.sessions)
    (hexecutions : w.executions id = 0) : Consistent (w.executing me id) := by
  refine ⟨?_, ?_, ?_, h.unused⟩
  · intro id'
    by_cases heq : id' = id
    · subst heq
      simp [World.executing, hexecutions]
    · simpa [World.executing, heq] using h.once id'
  · intro id' hnone
    by_cases heq : id' = id
    · subst heq
      simp [World.executing] at hnone
    · simpa [World.executing, heq] using h.unexecuted id' (by simpa [World.executing, heq] using hnone)
  · intro id' other hother
    by_cases heq : id' = id
    · subst heq
      have hself : me = other := by simpa [World.executing] using hother
      exact hself ▸ hme
    · exact h.executor id' other (by simpa [World.executing, heq] using hother)

theorem relies_executing {w : World} {me other id : ℕ} (hexecutable : w.executable me id = true)
    (hother : other ≠ me) : Relies other w (w.executing me id) := by
  have hnot : w.executor id ≠ some other := by
    simp only [World.executable, Bool.or_eq_true, decide_eq_true_eq, Bool.and_eq_true] at hexecutable
    rcases hexecutable with hexecutor | ⟨hexecutor, -⟩
    · rw [hexecutor]
      simpa using hother.symm
    · rw [hexecutor]
      simp
  refine ⟨Nat.le_refl _, fun id' row hrow => ⟨row, hrow, fun _ => rfl, fun _ => rfl⟩, ?_, ?_⟩
  · intro id' hid
    have hne : id' ≠ id := by
      rintro rfl
      exact hnot hid
    simpa [World.executing, hne] using hid
  · intro id' hid
    by_cases heq : id' = id
    · subst heq
      simpa [World.executing] using hother.symm
    · simpa [World.executing, heq] using hid

end PortalRequests
end BucketReef

import BucketReef.Portal.RequestRules
import Mathlib.Logic.Relation

/-!
# Deciding a request once

Two sessions that read the same pending request both execute it. When no session moves on a request
that another one has taken over since it was read, a request is executed at most once and its final
status never changes.
-/

namespace BucketReef
namespace PortalRequests

open Effects

variable {me id : ℕ}

/-! ## Sessions with nothing to write -/

/-- A session with no new status, where `P` holds of the rows. -/
structure Quiet (me : ℕ) (P : World → Prop) (w : World) (s : Session) : Prop where
  self : s.me = me
  known : me < w.sessions
  clean : Clean s
  rows : P w

/-- What holds of the rows whatever the other sessions do. -/
def Lasting (me : ℕ) (P : World → Prop) : Prop := ∀ w w', P w → Relies me w w' → P w'

theorem lasting_true : Lasting me fun _ => True := fun _ _ _ _ => trivial

/-- The session has taken over no request. -/
def Newcomer (me : ℕ) (w : World) : Prop := ∀ id, w.executor id ≠ some me

theorem lasting_newcomer : Lasting me (Newcomer me) := fun _ _ h hrely id => hrely.others id (h id)

theorem Quiet.stable {P : World → Prop} (hP : Lasting me P) : Stable (rules me) (Quiet me P) :=
  fun w w' _ h hrely _ => ⟨h.self, Nat.lt_of_lt_of_le h.known hrely.sessions, h.clean, hP w w' h.rows hrely⟩

theorem clean_of_object_none {s : Session} (h : s.object = none) : Clean s := by
  intro object hobject
  rw [h] at hobject
  cases hobject

theorem clean_fresh {s : Session} {row : PortalAdminRequest} (h : s.object = some ⟨id, row, row⟩) :
    Clean s := by
  intro object hobject
  rw [h] at hobject
  cases hobject
  simp [Loaded.moves]

theorem Clean.loaded {s : Session} (h : Clean s) (row : PortalAdminRequest) :
    (s.loaded id row).moves = false := by
  unfold Session.loaded
  split
  · rename_i object hobject
    split
    · exact h object hobject
    · simp [Loaded.moves]
  · simp [Loaded.moves]

/-- The operation neither changes an object nor executes a request. -/
def Op.plain : Op → Bool
  | .assign _ _ | .execute _ => false
  | _ => true

theorem quiet_committed {P : World → Prop} (hP : Lasting me P) {w : World} {s : Session}
    (h : Quiet me P w s) (hinv : Consistent w) : Quiet me P (w.committed s) (s.committed w) := by
  have hme : s.me < w.sessions := h.self ▸ h.known
  have hunmoved := unmoved_committed hinv hme h.clean
  refine ⟨h.self, ?_, clean_of_object_none rfl, hP w _ h.rows (hunmoved.relies me)⟩
  rw [hunmoved.sessions]
  exact h.known

theorem quiet_rolledBack {P : World → Prop} {w : World} {s : Session} (h : Quiet me P w s) :
    Quiet me P w s.rolledBack := ⟨h.self, h.known, clean_of_object_none rfl, h.rows⟩

/-- A plain operation of a session with nothing to write. -/
theorem step_plain {P : World → Prop} (hP : Lasting me P) {op : Op} (hop : op.plain = true) {w : World}
    {s : Session} (h : Quiet me P w s) (hinv : Consistent w) :
    Step system.toMachine (rules me) op (fun _ => Quiet me P) w s := by
  have hme : s.me < w.sessions := h.self ▸ h.known
  have hcommitted := quiet_committed hP h hinv
  have hconsistent := consistent_committed hinv hme
  cases op with
  | assign | execute => cases hop
  | validate | notify =>
    refine ⟨trivial, fun _ choice => ?_⟩
    simp only [system, exec]
    split
    · exact ⟨hinv, h⟩
    · exact ⟨hinv, h⟩
  | add row => exact ⟨trivial, fun _ _ => ⟨hinv, h.self, h.known, h.clean, h.rows⟩⟩
  | insertedId => exact ⟨trivial, fun _ _ => ⟨hinv, h⟩⟩
  | select id =>
    refine ⟨trivial, fun _ choice => ?_⟩
    simp only [system, exec]
    split
    · split
      · exact ⟨hinv, h⟩
      · refine ⟨hinv, h.self, h.known, ?_, h.rows⟩
        intro object hobject
        cases hobject
        exact h.clean.loaded _
    · exact ⟨hinv, h⟩
  | refresh id =>
    refine ⟨trivial, fun _ choice => ?_⟩
    simp only [system, exec]
    split
    · exact ⟨hinv, h.self, h.known, clean_fresh rfl, h.rows⟩
    · exact ⟨hinv, h⟩
  | commit =>
    refine ⟨h.clean.entitled hme, fun _ choice => ?_⟩
    simp only [system, exec]
    split
    · exact ⟨hconsistent, hcommitted⟩
    · exact ⟨hinv, h⟩
    · exact ⟨hconsistent, hcommitted⟩
  | rollback => exact ⟨trivial, fun _ _ => ⟨hinv, quiet_rolledBack h⟩⟩
  | recordAction =>
    refine ⟨h.clean.entitled hme, fun _ choice => ?_⟩
    simp only [system, exec]
    split
    · exact ⟨hinv, quiet_rolledBack h⟩
    · exact ⟨hconsistent, hcommitted⟩

theorem keeps_plain {P : World → Prop} (hP : Lasting me P) {op : Op} (hop : op.plain = true) :
    Keeps system.toMachine (rules me) (Quiet me P) _ (Prog.perform op : Service _) :=
  keeps_perform (Quiet.stable hP) fun _ _ h hinv => step_plain hP hop h hinv

theorem keeps_commitOrRollback {P : World → Prop} (hP : Lasting me P) :
    Keeps system.toMachine (rules me) (Quiet me P) _ commitOrRollback :=
  (keeps_composes _).tryCatch (keeps_plain hP rfl) fun _ =>
    (keeps_composes _).bind (keeps_plain hP rfl) fun _ => (keeps_composes _).raise _

/-- The program runs on safely. -/
abbrev Runs (me : ℕ) (p : Service Unit) (w : World) (s : Session) : Prop :=
  wp system.toMachine (rules me) p (fun _ _ _ => True) (fun _ _ _ => True) w s

theorem runs_of_keeps {P : World → Prop} {p : Service Unit} {w : World} {s : Session}
    (hp : Keeps system.toMachine (rules me) (Quiet me P) _ p) (h : Quiet me P w s) : Runs me p w s :=
  wp_mono (hp w s h) (fun _ _ _ _ => trivial) fun _ _ _ _ => trivial

/-! ## Sessions that hold a request -/

/-- The session holds an open request, which was executed `n` times. -/
structure Held (me id n : ℕ) (w : World) (s : Session) : Prop where
  self : s.me = me
  executor : w.executor id = some me
  executions : w.executions id = n
  row : ∃ row, w.requests id = some row ∧ row.status.final = false
  object : ∀ object, s.object = some object → object.id = id ∧ object.base.status.final = false

theorem Held.stable {n : ℕ} : Stable (rules me) (Held me id n) := by
  intro w w' s h hrely _
  obtain ⟨row, hrow, hopen⟩ := h.row
  obtain ⟨row', hrow', -, hstatus⟩ := hrely.row id row hrow
  obtain ⟨hexecutor, hexecutions⟩ := hrely.mine id h.executor
  refine ⟨h.self, hexecutor, hexecutions.trans h.executions, ⟨row', hrow', ?_⟩, h.object⟩
  rw [hstatus h.executor]
  exact hopen

theorem Held.known {n : ℕ} {w : World} {s : Session} (h : Held me id n w s) (hinv : Consistent w) :
    s.me < w.sessions := h.self ▸ hinv.executor id me h.executor

theorem Held.entitled {n : ℕ} {w : World} {s : Session} (h : Held me id n w s) (hinv : Consistent w) :
    Entitled w s := by
  refine ⟨h.known hinv, fun object hobject _ => ?_⟩
  obtain ⟨hid, hopen⟩ := h.object object hobject
  exact ⟨hopen, .inr (by rw [hid, h.self]; exact h.executor)⟩

theorem Held.loaded {n : ℕ} {w : World} {s : Session} (h : Held me id n w s) {row : PortalAdminRequest}
    (hrow : w.requests id = some row) :
    (s.loaded id row).id = id ∧ (s.loaded id row).base.status.final = false := by
  obtain ⟨row', hrow', hopen⟩ := h.row
  rw [hrow] at hrow'
  cases hrow'
  unfold Session.loaded
  split
  · rename_i object hobject
    obtain ⟨hid, hbase⟩ := h.object object hobject
    rw [if_pos hid]
    exact ⟨hid, hbase⟩
  · exact ⟨rfl, hopen⟩

/-- The session commits the new status of the request it holds. -/
theorem runs_commitOrRollback {A : World → Session → Prop} {Q : World → Session → Prop}
    (hstable : Stable (rules me) A) (hentitled : ∀ w s, A w s → Consistent w → Entitled w s)
    (hQ : ∀ w s, A w s → Consistent w → s.object.all (w.uncontended s.me) = true →
      Q (w.committed s) (s.committed w)) {w : World} {s : Session} (h : A w s) :
    wp system.toMachine (rules me) commitOrRollback (fun _ => Q) (fun _ _ _ => True) w s := by
  refine wp_tryCatch (wp_perform h hstable ?_)
  intro w s hA hinv
  have hme := (hentitled w s hA hinv).1
  have hrollback : ∀ w s (e : Error), wp system.toMachine (rules me)
      (do Prog.perform Op.rollback; Prog.raise e : Service Unit) (fun _ => Q) (fun _ _ _ => True) w s := by
    intro w s e
    exact wp_bind fun _ _ hinv => ⟨trivial, fun _ _ => ⟨hinv, trivial⟩⟩
  refine ⟨hentitled w s hA hinv, fun hallowed choice => ?_⟩
  simp only [system, exec]
  split
  · exact ⟨consistent_committed hinv hme, hQ w s hA hinv hallowed⟩
  · exact ⟨hinv, hrollback _ _ _⟩
  · exact ⟨consistent_committed hinv hme, hrollback _ _ _⟩

theorem sessions_committed (w : World) (s : Session) : (w.committed s).sessions = w.sessions := by
  unfold World.committed
  cases s.object with
  | none =>
    cases s.adding with
    | none => rfl
    | some row => rfl
  | some object =>
    cases s.adding with
    | none => rfl
    | some row => rfl

/-- After its commit, a session has nothing to write. -/
theorem quiet_of_committed {w : World} {s : Session} (hself : s.me = me) (hknown : s.me < w.sessions) :
    Quiet me (fun _ => True) (w.committed s) (s.committed w) := by
  refine ⟨hself, ?_, clean_of_object_none rfl, trivial⟩
  rw [sessions_committed]
  exact hself ▸ hknown

theorem Held.withObject {n : ℕ} {w : World} {s : Session} (h : Held me id n w s) {object : Loaded}
    (hid : object.id = id) (hopen : object.base.status.final = false) :
    Held me id n w { s with object := some object } := by
  refine ⟨h.self, h.executor, h.executions, h.row, ?_⟩
  intro object' hobject
  cases hobject
  exact ⟨hid, hopen⟩

theorem Held.withoutObject {n : ℕ} {w : World} {s : Session} (h : Held me id n w s) :
    Held me id n w s.rolledBack :=
  ⟨h.self, h.executor, h.executions, h.row, fun _ hobject => by cases hobject⟩

theorem wp_loadRequest_held {n : ℕ} {w : World} {s : Session} (h : Held me id n w s) :
    wp system.toMachine (rules me) (loadRequest id) (fun _ => Held me id n) (fun _ _ _ => True) w s := by
  refine wp_bind (wp_perform h Held.stable ?_)
  intro w s h hinv
  refine ⟨trivial, fun _ choice => ?_⟩
  simp only [system, exec]
  split
  · split
    · exact ⟨hinv, trivial⟩
    · rename_i row hrow
      obtain ⟨hid, hopen⟩ := h.loaded hrow
      exact ⟨hinv, h.withObject hid hopen⟩
  · exact ⟨hinv, trivial⟩

theorem wp_assign_held {n : ℕ} {w : World} {s : Session} (h : Held me id n w s)
    (f : PortalAdminRequest → PortalAdminRequest) :
    wp system.toMachine (rules me) (Prog.perform (Op.assign id f)) (fun _ => Held me id n)
      (fun _ _ _ => True) w s := by
  refine wp_perform h Held.stable ?_
  intro w s h hinv
  refine ⟨trivial, fun _ choice => ?_⟩
  simp only [system, exec]
  split
  · rename_i row hrow
    obtain ⟨hid, hopen⟩ := h.loaded hrow
    exact ⟨hinv, h.withObject hid hopen⟩
  · exact ⟨hinv, trivial⟩

theorem wp_commit_held {n : ℕ} {w : World} {s : Session} (h : Held me id n w s) :
    wp system.toMachine (rules me) commitOrRollback (fun _ => Quiet me fun _ => True)
      (fun _ _ _ => True) w s :=
  runs_commitOrRollback Held.stable (fun _ _ h hinv => h.entitled hinv)
    (fun _ _ h hinv _ => quiet_of_committed h.self (h.known hinv)) h

theorem wp_finalizeFailedRequest {n : ℕ} {w : World} {s : Session} (h : Held me id n w s) (actor : User)
    (detail : String) :
    wp system.toMachine (rules me) (finalizeFailedRequest id actor detail)
      (fun _ => Quiet me fun _ => True) (fun _ _ _ => True) w s := by
  refine wp_bind (wp_mono (wp_loadRequest_held h) ?_ fun _ _ _ h => h)
  intro _ w s h
  refine wp_bind (wp_mono (wp_assign_held h _) ?_ fun _ _ _ h => h)
  intro _ w s h
  exact wp_commit_held h

theorem wp_finalizeApprovedRequest {n : ℕ} {w : World} {s : Session} (h : Held me id n w s)
    (actor : User) (result : String) (message : Option String) :
    wp system.toMachine (rules me) (finalizeApprovedRequest id actor result message)
      (fun _ => Quiet me fun _ => True) (fun _ _ _ => True) w s := by
  refine wp_bind (wp_mono (wp_loadRequest_held h) ?_ fun _ _ _ h => h)
  intro _ w s h
  refine wp_bind (wp_mono (wp_assign_held h _) ?_ fun _ _ _ h => h)
  intro _ w s h
  refine wp_bind (wp_mono (wp_commit_held h) ?_ fun _ _ _ h => h)
  intro _ w s h
  exact wp_mono (keeps_plain lasting_true rfl w s h) (fun _ _ _ h => h) fun _ _ _ _ => trivial

/-- The notification, the audit record and the commits that end a call. -/
theorem keeps_notify (event : String) : Keeps system.toMachine (rules me) (Quiet me fun _ => True) _
    (do Prog.perform (Op.notify event); commitOrRollback : Service Unit) :=
  (keeps_composes _).bind (keeps_plain lasting_true rfl) fun _ => keeps_commitOrRollback lasting_true

theorem runs_raiseExecutionFailure {n : ℕ} {w : World} {s : Session} (h : Held me id n w s)
    (actor : User) (e : Error) (action : String) (notifyRequester : Bool) :
    Runs me (raiseExecutionFailure id actor e action notifyRequester) w s := by
  refine wp_bind (wp_perform h Held.stable fun w s h hinv => ⟨trivial, fun _ _ => ⟨hinv, ?_⟩⟩)
  refine wp_bind (wp_mono (wp_finalizeFailedRequest h.withoutObject actor _) ?_ fun _ _ _ h => h)
  intro _ w s h
  refine runs_of_keeps ((keeps_composes _).bind ?_ fun _ => ?_) h
  · exact (keeps_composes _).when fun _ => keeps_notify "failed"
  · exact (keeps_composes _).bind (keeps_plain lasting_true rfl) fun _ => (keeps_composes _).raise _

/-- A session that may execute the request, and has not yet. -/
structure Ready (me id : ℕ) (w : World) (s : Session) : Prop where
  self : s.me = me
  clean : Clean s
  held : (me < w.sessions ∧ w.executor id ≠ some me ∧ s.object = none) ∨ Held me id 0 w s

theorem Ready.stable : Stable (rules me) (Ready me id) := by
  intro w w' s h hrely hinv
  refine ⟨h.self, h.clean, ?_⟩
  rcases h.held with ⟨hknown, hnot, hobject⟩ | hheld
  · exact .inl ⟨Nat.lt_of_lt_of_le hknown hrely.sessions, hrely.others id hnot, hobject⟩
  · exact .inr (Held.stable w w' s hheld hrely hinv)

theorem Ready.known {w : World} {s : Session} (h : Ready me id w s) (hinv : Consistent w) :
    s.me < w.sessions := by
  rcases h.held with ⟨hknown, -, -⟩ | hheld
  · exact h.self ▸ hknown
  · exact hheld.known hinv

theorem Ready.held_of_executor {w : World} {s : Session} (h : Ready me id w s)
    (hexecutor : w.executor id = some s.me) : Held me id 0 w s := by
  rw [h.self] at hexecutor
  exact h.held.resolve_left fun hnot => hnot.2.1 hexecutor

theorem Ready.object {w : World} {s : Session} (h : Ready me id w s) :
    ∀ object, s.object = some object → object.id = id ∧ object.base.status.final = false := by
  rcases h.held with ⟨-, -, hnone⟩ | hheld
  · intro object hobject
    rw [hnone] at hobject
    cases hobject
  · exact hheld.object

/-- The first execution of a request; the session holds it from then on. -/
theorem step_execute {w : World} {s : Session} (h : Ready me id w s) (hinv : Consistent w) :
    Step system.toMachine (rules me) (.execute id) (fun _ => Held me id 1) w s := by
  have hknown := h.known hinv
  have hmine : w.executor id = some s.me → w.executions id = 0 := fun hexecutor =>
    (h.held_of_executor hexecutor).executions
  refine ⟨⟨hknown, h.clean, hmine⟩, fun hallowed choice => ?_⟩
  have hexecutable : w.executable s.me id = true := by
    have huncontended : (s.object.all (w.uncontended s.me) && w.executable s.me id) = true := hallowed
    rw [Bool.and_eq_true] at huncontended
    exact huncontended.2
  have hexecutions := executions_of_executable hinv hmine hexecutable
  have hrow : ∃ row, w.requests id = some row ∧ row.status.final = false := by
    simp only [World.executable, Bool.or_eq_true, decide_eq_true_eq, Bool.and_eq_true,
      Option.any_eq_true] at hexecutable
    rcases hexecutable with hexecutor | ⟨-, row, hrow, hpending⟩
    · exact (h.held_of_executor hexecutor).row
    · exact ⟨row, hrow, by rw [hpending]; rfl⟩
  have hunmoved := unmoved_committed hinv hknown h.clean
  have hbefore : Consistent (w.executing s.me id) ∧ Held me id 1 (w.executing s.me id) s := by
    refine ⟨consistent_executing hinv hknown hexecutions, h.self, ?_, ?_, hrow, h.object⟩
    · simp [World.executing, h.self]
    · simp [World.executing, hexecutions]
  have hafter : Consistent ((w.committed s).executing s.me id) ∧
      Held me id 1 ((w.committed s).executing s.me id) (s.committed w) := by
    have hexecutions' : (w.committed s).executions id = 0 := by
      rw [hunmoved.executions]
      exact hexecutions
    obtain ⟨row, hrow, hopen⟩ := hrow
    obtain ⟨row', hrow', hstatus⟩ := hunmoved.row id row hrow
    refine ⟨consistent_executing (consistent_committed hinv hknown) (by rwa [hunmoved.sessions])
      hexecutions', h.self, ?_, ?_, ⟨row', hrow', by rw [hstatus]; exact hopen⟩, fun _ hobject => ?_⟩
    · simp [World.executing, h.self]
    · simp [World.executing, hexecutions']
    · cases hobject
  simp only [system, exec]
  split
  · exact hafter
  · exact hbefore
  · exact hafter

/-- After the execution, the session finalizes the request in either case. -/
theorem runs_execute {onError : Error → Service Unit} {onResult : String → Service Unit}
    (herror : ∀ e w s, Held me id 1 w s → Runs me (onError e) w s)
    (hresult : ∀ result w s, Held me id 1 w s → Runs me (onResult result) w s) {w : World} {s : Session}
    (h : Ready me id w s) :
    Runs me ((Prog.perform (Op.execute id)).attempt >>= fun
      | .error e => onError e
      | .ok result => onResult result) w s := by
  refine wp_bind (wp_attempt (wp_perform h Ready.stable fun w s h hinv => ?_))
  refine (step_execute h hinv).mono ?_
  rintro (e | result) w s hheld
  · exact herror e w s hheld
  · exact hresult result w s hheld

/-! ## The three calls -/

/-- The session has read the request, and its object is as it was read but for `f`. -/
structure Reading (me id : ℕ) (row current : PortalAdminRequest) (w : World) (s : Session) : Prop where
  self : s.me = me
  known : me < w.sessions
  newcomer : Newcomer me w
  object : s.object = some ⟨id, row, current⟩

theorem Reading.stable {row current : PortalAdminRequest} :
    Stable (rules me) (Reading me id row current) := fun w w' _ h hrely _ =>
  ⟨h.self, Nat.lt_of_lt_of_le h.known hrely.sessions, lasting_newcomer w w' h.newcomer hrely, h.object⟩

/-- A session that has just started. -/
structure Started (me : ℕ) (w : World) (s : Session) : Prop where
  session : s = { me := me }
  known : me < w.sessions
  newcomer : Newcomer me w

theorem Started.stable : Stable (rules me) (Started me) := fun w w' _ h hrely _ =>
  ⟨h.session, Nat.lt_of_lt_of_le h.known hrely.sessions, lasting_newcomer w w' h.newcomer hrely⟩

theorem Started.quiet {w : World} {s : Session} (h : Started me w s) : Quiet me (Newcomer me) w s :=
  ⟨by rw [h.session], h.known, clean_of_object_none (by rw [h.session]), h.newcomer⟩

theorem wp_loadRequest_started {w : World} {s : Session} (h : Started me w s) :
    wp system.toMachine (rules me) (loadRequest id) (fun row => Reading me id row row)
      (fun _ _ _ => True) w s := by
  refine wp_bind (wp_perform h Started.stable ?_)
  intro w s h hinv
  refine ⟨trivial, fun _ choice => ?_⟩
  have hobject : s.object = none := by rw [h.session]
  simp only [system, exec]
  split
  · split
    · exact ⟨hinv, trivial⟩
    · simp only [Session.loaded, hobject]
      exact ⟨hinv, h.quiet.self, h.known, h.newcomer, rfl⟩
  · exact ⟨hinv, trivial⟩

theorem wp_ensurePending {row : PortalAdminRequest} {A : World → Session → Prop} {w : World}
    {s : Session} (h : A w s) :
    wp system.toMachine (rules me) (ensurePending row) (fun _ w s => row.status = .pending ∧ A w s)
      (fun _ _ _ => True) w s := by
  unfold ensurePending
  split
  · rename_i hstatus
    exact ⟨hstatus, h⟩
  all_goals exact trivial

theorem wp_assign_reading {row : PortalAdminRequest} {w : World} {s : Session}
    (h : Reading me id row row w s) (f : PortalAdminRequest → PortalAdminRequest) :
    wp system.toMachine (rules me) (Prog.perform (Op.assign id f)) (fun _ => Reading me id row (f row))
      (fun _ _ _ => True) w s := by
  refine wp_perform h Reading.stable ?_
  intro w s h hinv
  refine ⟨trivial, fun _ choice => ?_⟩
  simp only [system, exec]
  split
  · simp only [Session.loaded, h.object]
    exact ⟨hinv, h.self, h.known, h.newcomer, rfl⟩
  · exact ⟨hinv, trivial⟩

theorem Reading.entitled {row current : PortalAdminRequest} {w : World} {s : Session}
    (h : Reading me id row current w s) (hpending : row.status = .pending) : Entitled w s := by
  refine ⟨h.self ▸ h.known, fun object hobject _ => ?_⟩
  rw [h.object] at hobject
  cases hobject
  exact ⟨by rw [hpending]; rfl, .inl hpending⟩

/-- The commit that moves a pending request to `processing` takes it over. -/
theorem held_of_processing {row current : PortalAdminRequest} {w : World} {s : Session}
    (h : Reading me id row current w s) (hinv : Consistent w) (hpending : row.status = .pending)
    (hprocessing : current.status = .processing)
    (huncontended : s.object.all (w.uncontended s.me) = true) :
    Held me id 0 (w.committed s) (s.committed w) := by
  have hknown : s.me < w.sessions := h.self ▸ h.known
  have hmoves : Loaded.moves ⟨id, row, current⟩ = true := by
    simp [Loaded.moves, hpending, hprocessing]
  rw [h.object] at huncontended
  obtain ⟨row', hrow', -, hexecutor⟩ := row_of_uncontended (.inl hpending) huncontended hmoves
  have hnone : w.executor id = none := by
    refine hexecutor.resolve_right fun hmine => h.newcomer id ?_
    exact h.self ▸ hmine
  have hunmoved := relies_inserts hinv hknown
  rw [h.object, Option.elim_some] at hunmoved
  obtain ⟨row₂, hrow₂, hstatus⟩ := hunmoved.row id (Loaded.flushed ⟨id, row, current⟩ row')
    (by simp [World.update, hrow'])
  refine ⟨h.self, ?_, ?_, ⟨row₂, hrow₂, ?_⟩, fun _ hobject => by cases hobject⟩
  · rw [hunmoved.executor]
    simp [World.update, hmoves, hprocessing, h.self]
  · rw [hunmoved.executions]
    exact hinv.unexecuted id hnone
  · rw [hstatus, flushed_status_of_moves hmoves, hprocessing]
    rfl

theorem wp_refresh_held {w : World} {s : Session} (h : Held me id 0 w s) :
    wp system.toMachine (rules me) (Prog.perform (Op.refresh id)) (fun _ => Ready me id)
      (fun _ _ _ => True) w s := by
  refine wp_perform h Held.stable ?_
  intro w s h hinv
  refine ⟨trivial, fun _ choice => ?_⟩
  simp only [system, exec]
  split
  · rename_i row hfault hrow
    obtain ⟨row', hrow', hopen⟩ := h.row
    rw [hrow] at hrow'
    cases hrow'
    exact ⟨hinv, h.self, clean_fresh rfl, .inr (h.withObject rfl hopen)⟩
  · exact ⟨hinv, trivial⟩

theorem runs_approveRequest {w : World} {s : Session} (h : Started me w s) (actor : User)
    (message : Option String) : Runs me (approveRequest id actor message) w s := by
  refine wp_bind (wp_mono (wp_loadRequest_started h) ?_ fun _ _ _ h => h)
  intro row w s h
  refine wp_bind (wp_mono (wp_ensurePending h) ?_ fun _ _ _ h => h)
  intro _ w s ⟨hpending, h⟩
  refine wp_bind (wp_mono (wp_assign_reading h _) ?_ fun _ _ _ h => h)
  intro _ w s h
  have htaken : ∀ w s, Reading me id row { row with status := .processing } w s → Consistent w →
      s.object.all (w.uncontended s.me) = true → Held me id 0 (w.committed s) (s.committed w) :=
    fun w s h hinv huncontended => held_of_processing h hinv hpending rfl huncontended
  refine wp_bind (wp_bind (wp_mono (runs_commitOrRollback Reading.stable
    (fun _ _ h _ => h.entitled hpending) htaken h) ?_ fun _ _ _ h => h))
  intro _ w s h
  refine wp_mono (wp_refresh_held h) ?_ fun _ _ _ h => h
  intro _ w s h
  refine runs_execute ?_ ?_ h
  · exact fun e w s h => runs_raiseExecutionFailure h actor e _ true
  · intro result w s h
    refine wp_bind (wp_mono (wp_finalizeApprovedRequest h actor result message) ?_ fun _ _ _ h => h)
    intro _ w s h
    exact runs_of_keeps ((keeps_composes _).bind (keeps_plain lasting_true rfl) fun _ =>
      (keeps_composes _).bind (keeps_commitOrRollback lasting_true) fun _ =>
        keeps_plain lasting_true rfl) h

theorem runs_rejectRequest {w : World} {s : Session} (h : Started me w s) (actor : User)
    (message : Option String) : Runs me (rejectRequest id actor message) w s := by
  refine wp_bind (wp_mono (wp_loadRequest_started h) ?_ fun _ _ _ h => h)
  intro row w s h
  refine wp_bind (wp_mono (wp_ensurePending h) ?_ fun _ _ _ h => h)
  intro _ w s ⟨hpending, h⟩
  refine wp_bind (wp_mono (wp_assign_reading h _) ?_ fun _ _ _ h => h)
  intro _ w s h
  refine wp_bind (wp_bind (wp_mono (runs_commitOrRollback Reading.stable
    (fun _ _ h _ => h.entitled hpending)
    (fun _ _ h _ _ => quiet_of_committed h.self (h.self ▸ h.known)) h) ?_ fun _ _ _ h => h))
  intro _ w s h
  have hrefresh : Keeps system.toMachine (rules me) (Quiet me fun _ => True) _
      (Prog.perform (Op.refresh id) : Service Unit) := keeps_plain lasting_true rfl
  refine wp_mono (hrefresh w s h) ?_ fun _ _ _ _ => trivial
  intro _ w s h
  exact runs_of_keeps ((keeps_composes _).bind (keeps_plain lasting_true rfl) fun _ =>
    (keeps_composes _).bind (keeps_commitOrRollback lasting_true) fun _ =>
      keeps_plain lasting_true rfl) h

/-- After the audit record, the object of the session is expired. -/
theorem wp_recordAction {P : World → Prop} (hP : Lasting me P) {w : World} {s : Session}
    (h : Quiet me P w s) (action : String) :
    wp system.toMachine (rules me) (Prog.perform (Op.recordAction action))
      (fun _ w s => Quiet me P w s ∧ s.object = none) (fun _ _ _ => True) w s := by
  refine wp_perform h (Quiet.stable hP) ?_
  intro w s h hinv
  have hme : s.me < w.sessions := h.self ▸ h.known
  refine ⟨h.clean.entitled hme, fun _ choice => ?_⟩
  simp only [system, exec]
  split
  · exact ⟨hinv, quiet_rolledBack h, rfl⟩
  · exact ⟨consistent_committed hinv hme, quiet_committed hP h hinv, rfl⟩

theorem runs_createRequest {w : World} {s : Session} (h : Started me w s) (actor : User)
    (account : Account) (payload : Payload) : Runs me (createRequest actor account payload) w s := by
  have hplain {op : Op} (hop : op.plain = true) {w : World} {s : Session}
      (h : Quiet me (Newcomer me) w s) :
      wp system.toMachine (rules me) (Prog.perform op : Service _)
        (fun _ => Quiet me (Newcomer me)) (fun _ _ _ => True) w s :=
    wp_mono (keeps_plain lasting_newcomer hop w s h) (fun _ _ _ h => h) fun _ _ _ _ => trivial
  refine wp_bind (wp_mono (hplain rfl h.quiet) ?_ fun _ _ _ h => h)
  intro _ w s h
  refine wp_bind (wp_mono (hplain rfl h) ?_ fun _ _ _ h => h)
  intro _ w s h
  refine wp_bind (wp_mono (keeps_commitOrRollback lasting_newcomer w s h) ?_ fun _ _ _ _ => trivial)
  intro _ w s h
  refine wp_bind (wp_mono (hplain rfl h) ?_ fun _ _ _ h => h)
  intro id w s h
  refine wp_bind (wp_mono (hplain rfl h) ?_ fun _ _ _ h => h)
  intro _ w s h
  refine wp_bind (wp_mono (wp_recordAction lasting_newcomer h _) ?_ fun _ _ _ h => h)
  intro _ w s ⟨h, hobject⟩
  split
  · refine runs_execute ?_ ?_ ⟨h.self, h.clean, .inl ⟨h.known, h.rows id, hobject⟩⟩
    · exact fun e w s h => runs_raiseExecutionFailure h actor e _ false
    · intro result w s h
      refine wp_bind (wp_mono (wp_finalizeApprovedRequest h actor result none) ?_ fun _ _ _ h => h)
      intro _ w s h
      exact runs_of_keeps (keeps_plain lasting_true rfl) h
  · exact runs_of_keeps (keeps_notify "created") ⟨h.self, h.known, h.clean, trivial⟩

theorem runs_service {w : World} {s : Session} (h : Started me w s) (job : Job) :
    Runs me job.service w s := by
  cases job with
  | create actor account payload => exact runs_createRequest h actor account payload
  | approve id actor message => exact runs_approveRequest h actor message
  | reject id actor message => exact runs_rejectRequest h actor message

/-! ## Every run -/

/-- No step interferes with another session on the same request. -/
def Uncontended (st : SystemState) (label : SystemLabel) : Bool := permitted Op.uncontended st label

/-- The operation writes rows. -/
def Op.writes : Op → Bool
  | .commit | .recordAction _ | .execute _ => true
  | _ => false

theorem exec_world {op : Op} (h : op.writes = false) (choice : Choice) (w : World) (s : Session) :
    (exec op choice w s).1 = w := by
  cases op with
  | commit | recordAction | execute => cases h
  | validate | notify =>
    simp only [exec]
    split <;> rfl
  | select id =>
    simp only [exec]
    split
    · split <;> rfl
    · rfl
  | refresh | assign =>
    simp only [exec]
    split <;> rfl
  | add | insertedId | rollback => rfl

theorem me_exec (op : Op) (choice : Choice) (w : World) (s : Session) :
    (exec op choice w s).2.1.me = s.me := by
  cases op with
  | select id =>
    simp only [exec]
    split
    · split <;> rfl
    · rfl
  | validate | notify | recordAction | refresh | assign | commit | execute =>
    simp only [exec]
    split <;> rfl
  | add | insertedId | rollback => rfl

theorem sessions_exec (op : Op) (choice : Choice) (w : World) (s : Session) :
    (exec op choice w s).1.sessions = w.sessions := by
  cases op with
  | recordAction =>
    simp only [exec]
    split
    · rfl
    · exact sessions_committed w s
  | commit | execute =>
    simp only [exec]
    split
    · exact sessions_committed w s
    · rfl
    · exact sessions_committed w s
  | _ => rw [exec_world rfl]

/-- An operation that meets its requirement leaves alone what the others rely on. -/
theorem guarantee {op : Op} {choice : Choice} {w : World} {s : Session} (hinv : Consistent w)
    (hrequire : (rules s.me).require op w s) (hallowed : op.uncontended w s = true) {other : ℕ}
    (hother : other ≠ s.me) : Relies other w (exec op choice w s).1 := by
  cases op with
  | recordAction =>
    simp only [exec]
    split
    · exact Relies.refl other w
    · exact relies_committed hinv hrequire hallowed hother
  | commit =>
    simp only [exec]
    split
    · exact relies_committed hinv hrequire hallowed hother
    · exact Relies.refl other w
    · exact relies_committed hinv hrequire hallowed hother
  | execute id =>
    obtain ⟨hknown, hclean, hmine⟩ := hrequire
    simp only [Op.uncontended, Bool.and_eq_true] at hallowed
    have hunmoved := unmoved_committed hinv hknown hclean
    have hafter := (hunmoved.relies other).trans
      (relies_executing (hunmoved.executable hallowed.2) hother)
    simp only [exec]
    split
    · exact hafter
    · exact relies_executing hallowed.2 hother
    · exact hafter
  | _ =>
    rw [exec_world rfl]
    exact Relies.refl other w

/-- A new session has taken over nothing. -/
theorem started_of_start {job : Job} {w w' : World} {s : Session} {p : Service Unit} (hinv : Consistent w)
    (h : system.start job w = some (w', s, p)) :
    w' = { w with sessions := w.sessions + 1 } ∧ p = job.service ∧ Started w.sessions w' s := by
  simp only [system, Option.some.injEq, Prod.mk.injEq] at h
  obtain ⟨rfl, rfl, rfl⟩ := h
  refine ⟨rfl, rfl, rfl, Nat.lt_succ_self _, ?_⟩
  intro id hexecutor
  exact Nat.lt_irrefl _ (hinv.executor id _ hexecutor)

theorem relies_start (me : ℕ) (w : World) : Relies me w { w with sessions := w.sessions + 1 } :=
  ⟨Nat.le_succ _, fun _ row hrow => ⟨row, hrow, fun _ => rfl, fun _ => rfl⟩, fun _ h => ⟨h, rfl⟩,
    fun _ h => h⟩

theorem soundFor :
    SoundFor system Session.me rules (fun w me => me < w.sessions) Consistent
      (fun st label => Uncontended st label = true) where
  inv_iff _ _ := Iff.rfl
  known_mono hrely hknown := Nat.lt_of_lt_of_le hknown hrely.sessions
  known_exec op choice w s hknown := by
    show s.me < (exec op choice w s).1.sessions
    rw [sessions_exec]
    exact hknown
  ident_exec := me_exec
  event := fun {_ e} => e.elim
  start hinv _ hstart := by
    obtain ⟨rfl, rfl, hstarted⟩ := started_of_start hinv hstart
    have hself : Session.me _ = _ := congrArg Session.me hstarted.session
    rw [hself]
    refine ⟨⟨Nat.lt_irrefl _, hstarted.known⟩, fun me _ => relies_start me _, ?_, runs_service hstarted _⟩
    exact ⟨hinv.once, hinv.unexecuted, fun id me h => Nat.lt_succ_of_lt (hinv.executor id me h), hinv.unused⟩
  advance hok hthread hprog := allowed_of_permitted hok hthread hprog
  guarantee hinv hrequire hallowed _ hother := guarantee hinv hrequire hallowed hother

/-- A later state of the run. -/
abbrev Later : SystemState → SystemState → Prop :=
  Relation.ReflTransGen fun st st' =>
    ∃ label, Uncontended st label = true ∧ system.next st label = some st'

/-- No request was created yet. -/
def initial : World := {}

theorem consistent_initial : Consistent initial := by
  refine ⟨fun _ => Nat.zero_le _, fun _ _ => rfl, ?_, fun _ _ => rfl⟩
  intro id me h
  cases h

abbrev ReachableState (st : SystemState) : Prop :=
  Reachable system (fun st label => Uncontended st label = true) initial st

theorem safeState_of_reachable {st : SystemState} (h : ReachableState st) :
    SafeStateFor system Session.me rules (fun w me => me < w.sessions) Consistent st :=
  SafeStateFor.of_reachable soundFor consistent_initial h

/-- A step keeps the final statuses. -/
theorem final_of_step {st st' : SystemState} (h : ReachableState st) {label : SystemLabel}
    (hok : Uncontended st label = true) (hnext : system.next st label = some st') {id : ℕ}
    {row : PortalAdminRequest} (hrow : st.world.requests id = some row)
    (hfinal : row.status.final = true) :
    ∃ row', st'.world.requests id = some row' ∧ row'.status = row.status := by
  obtain ⟨me, hrely⟩ := (safeState_of_reachable h).rely_of_step soundFor hok hnext
  obtain ⟨row', hrow', hstatus, -⟩ := (hrely (me + 1) (Nat.succ_ne_self me)).row id row hrow
  exact ⟨row', hrow', hstatus hfinal⟩

/-- In a run whose sessions do not interfere on a request, it is executed at most once, and its final
status never changes. -/
theorem decided_at_most_once {st : SystemState} (h : ReachableState st) (id : ℕ) :
    st.world.executions id ≤ 1 ∧
      ∀ row st', st.world.requests id = some row → row.status.final = true → Later st st' →
        ∃ row', st'.world.requests id = some row' ∧ row'.status = row.status := by
  refine ⟨(safeState_of_reachable h).inv.once id, ?_⟩
  intro row st' hrow hfinal hlater
  have hrun : ReachableState st' ∧
      ∃ row', st'.world.requests id = some row' ∧ row'.status = row.status := by
    induction hlater with
    | refl => exact ⟨h, row, hrow, rfl⟩
    | tail _ hstep ih =>
      obtain ⟨hreachable, row₂, hrow₂, hstatus⟩ := ih
      obtain ⟨label, hok, hnext⟩ := hstep
      obtain ⟨row₃, hrow₃, hstatus'⟩ :=
        final_of_step hreachable hok hnext hrow₂ (by rw [hstatus]; exact hfinal)
      exact ⟨hreachable.step hok hnext, row₃, hrow₃, hstatus'.trans hstatus⟩
  exact hrun.2

/-- An admin, and a request for a larger quota that waits for one. -/
def requested : List SystemLabel :=
  List.flatten [[.start (.create ⟨7, "requester"⟩ ⟨3, false, false⟩ (.quotaChange 20 true))],
    List.replicate 8 (.advance 0 {}), [.stop 0]]

/-- An approval up to its final commit. Another admin approves the request while it is processed, and
rejects it afterwards. -/
def decidedAgain : List SystemLabel :=
  List.flatten [requested,
    [.start (.approve 0 ⟨1, "admin"⟩ none)], List.replicate 4 (.advance 0 {}),
    [.start (.approve 0 ⟨2, "other admin"⟩ none), .advance 1 {}], List.replicate 4 (.advance 0 {}),
    [.start (.reject 0 ⟨2, "other admin"⟩ none), .advance 2 {}]]

/-- The request of the thread was refused. -/
def refused (t : Thread Op Reply Error Session) : Bool :=
  match t.prog with
  | .fail _ => true
  | _ => false

theorem decided_at_most_once_decidedAgain : ∃ st, ReachableState st ∧
    st.threads.map refused = [false, true, true] ∧
      (st.world.requests 0).map (·.status) = some .approved ∧ st.world.executions 0 = 1 ∧
      (st.world.executions 0 ≤ 1 ∧
        ∀ row st', st.world.requests 0 = some row → row.status.final = true → Later st st' →
          ∃ row', st'.world.requests 0 = some row' ∧ row'.status = row.status) := by
  have hrun : (system.run Uncontended ⟨initial, []⟩ decidedAgain).any (fun st =>
      st.threads.map refused = [false, true, true] &&
        ((st.world.requests 0).map (·.status) = some .approved && st.world.executions 0 = 1)) =
          true := by
    decide +kernel
  obtain ⟨st, hst, hend⟩ := (Option.any_eq_true _ _).mp hrun
  have hreachable : ReachableState st := Reachable.init.run hst
  simp only [Bool.and_eq_true, decide_eq_true_eq] at hend
  exact ⟨st, hreachable, hend.1, hend.2.1, hend.2.2, decided_at_most_once hreachable 0⟩

/-- Two admins approve the same request: both read it while it is pending. -/
def approvedTwice : List SystemLabel :=
  List.flatten [requested, [.start (.approve 0 ⟨1, "admin"⟩ none),
    .start (.approve 0 ⟨2, "other admin"⟩ none), .advance 0 {}, .advance 1 {}, .advance 0 {},
    .advance 0 {}, .advance 1 {}, .advance 1 {}, .advance 0 {}, .advance 0 {}, .advance 1 {},
    .advance 1 {}]]

/-- In a run with two approvals, the request is executed twice. -/
theorem executed_twice : ∃ st, Reachable system (fun _ _ => true = true) initial st ∧
    st.world.executions 0 = 2 := by
  have hrun : (system.run (fun _ _ => true) ⟨initial, []⟩ approvedTwice).any (fun st =>
      st.world.executions 0 = 2) = true := by
    decide +kernel
  obtain ⟨st, hst, hend⟩ := (Option.any_eq_true _ _).mp hrun
  exact ⟨st, Reachable.init.run hst, by simpa using hend⟩

end PortalRequests
end BucketReef

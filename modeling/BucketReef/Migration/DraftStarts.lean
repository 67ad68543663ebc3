import BucketReef.Migration.Drafts

/-!
# Only checked drafts start

A start reads the status and the time of the last checks, not the revision they checked. That the
checks were those of the current revision rests on how the row gets its status: every edit makes it
stale, and a worker must not publish checks of an older revision.
-/

namespace BucketReef
namespace Drafts

open Effects Migration

/-- The commit of finished checks writes their status and their time, and checks that passed are those
of the revision in the row. -/
def World.publishes (w : World) (object : Loaded) (revision : ℕ) : Bool :=
  (object.written w.row).preparationStatus = object.current.preparationStatus &&
    (object.written w.row).precheckCheckedAt = object.current.precheckCheckedAt &&
    (object.current.preparationStatus ≠ .ready || w.row.configurationRevision = revision)

/-- The operation is not late. -/
def Op.timely : Op → World → Session → Bool
  | .commit, w, s => s.checked.all fun revision => s.object.all fun object => w.publishes object revision
  | .transition .start, w, _ => w.row.precheckCheckedAt.any fun checkedAt =>
      w.clock ≤ checkedAt + precheckMaxAge
  | _, _, _ => true

/-! ## The rules -/

/-- Active checks of the revision finished without errors at that time. -/
def World.Passed (w : World) (revision : ℕ) (checkedAt : Option ℕ) : Prop :=
  ∃ t, checkedAt = some t ∧ (revision, t) ∈ w.passed

/-- Checks that passed stay so. -/
def Relies (w w' : World) : Prop := ∀ check ∈ w.passed, check ∈ w'.passed

structure Verified (w : World) : Prop where
  ready : w.row.preparationStatus = .ready → w.Passed w.row.configurationRevision w.row.precheckCheckedAt
  past : ∀ check ∈ w.passed, check.2 ≤ w.clock
  started : ∀ start ∈ w.started, ∃ t, (start.1, t) ∈ w.passed ∧ t ≤ start.2 ∧
    start.2 ≤ t + precheckMaxAge

/-- The object writes no time of checks, no revision, and not that the draft is ready. -/
structure Loaded.Plain (object : Loaded) : Prop where
  preparationStatus : object.current.preparationStatus = object.base.preparationStatus ∨
    object.current.preparationStatus ≠ .ready
  precheckCheckedAt : object.current.precheckCheckedAt = object.base.precheckCheckedAt
  configurationRevision : object.current.configurationRevision = object.base.configurationRevision

/-- The object holds finished checks of the revision. -/
structure Finished (w : World) (revision : ℕ) (object : Loaded) : Prop where
  passed : object.current.preparationStatus = .ready → w.Passed revision object.current.precheckCheckedAt
  configurationRevision : object.current.configurationRevision = object.base.configurationRevision

def Writable (w : World) (s : Session) : Prop :=
  ∀ object, s.object = some object → match s.checked with
    | none => object.Plain
    | some revision => Finished w revision object

theorem Relies.refl (w : World) : Relies w w := fun _ h => h

theorem Relies.trans {w₁ w₂ w₃ : World} (h : Relies w₁ w₂) (h' : Relies w₂ w₃) : Relies w₁ w₃ :=
  fun check hcheck => h' check (h check hcheck)

theorem World.Passed.rely {w w' : World} {revision : ℕ} {checkedAt : Option ℕ}
    (h : w.Passed revision checkedAt) (hrely : Relies w w') : w'.Passed revision checkedAt := by
  obtain ⟨t, ht, hcheck⟩ := h
  exact ⟨t, ht, hrely _ hcheck⟩

def rules : Rules Op World Session where
  rely := Relies
  inv := Verified
  allowed op w s := op.timely w s = true
  require
    | .commit, w, s => Writable w s
    | .transition .start, _, s => ∃ migration, s.object = some ⟨migration, migration⟩ ∧
        migration.preparationStatus = .ready
    | _, _, _ => True
  rely_refl := Relies.refl
  rely_trans := Relies.trans

/-! ## What the operations change -/

/-- A change that leaves the checks of the row alone. -/
theorem Verified.of_row {w w' : World} (h : Verified w)
    (hstatus : w'.row.preparationStatus = .ready → w.row.preparationStatus = .ready)
    (hrevision : w'.row.configurationRevision = w.row.configurationRevision)
    (hchecked : w'.row.precheckCheckedAt = w.row.precheckCheckedAt) (hpassed : w'.passed = w.passed)
    (hclock : w.clock ≤ w'.clock) (hstarted : w'.started = w.started) : Verified w' := by
  refine ⟨fun hready => ?_, fun check hcheck => ?_, ?_⟩
  · rw [hrevision, hchecked, World.Passed, hpassed]
    exact h.ready (hstatus hready)
  · rw [hpassed] at hcheck
    exact Nat.le_trans (h.past check hcheck) hclock
  · rw [hstarted, hpassed]
    exact h.started

/-- A change that leaves the draft not ready. -/
theorem Verified.of_not_ready {w w' : World} (h : Verified w)
    (hstatus : w'.row.preparationStatus ≠ .ready) (hpassed : w'.passed = w.passed)
    (hclock : w'.clock = w.clock) (hstarted : w'.started = w.started) : Verified w' := by
  refine ⟨fun hready => absurd hready hstatus, ?_, ?_⟩
  · rw [hpassed, hclock]
    exact h.past
  · rw [hstarted, hpassed]
    exact h.started

theorem verified_committed {w : World} {s : Session} (h : Verified w) (hwritable : Writable w s)
    (htimely : Op.timely .commit w s = true) : Verified (w.committed s) := by
  cases hobject : s.object with
  | none =>
    have hsame : w.committed s = w := by simp [World.committed, hobject]
    rw [hsame]
    exact h
  | some object =>
    have hcommitted : w.committed s = { w with row := object.written w.row } := by
      simp [World.committed, hobject]
    have hobjectWritable := hwritable object hobject
    rw [hcommitted]
    cases hchecked : s.checked with
    | none =>
      simp only [hchecked] at hobjectWritable
      obtain ⟨hstatus, htime, hrevision⟩ := hobjectWritable
      refine h.of_row (fun hready => ?_) (if_pos hrevision) (if_pos htime) rfl (Nat.le_refl _) rfl
      have hpick : pick object.base.preparationStatus object.current.preparationStatus
          w.row.preparationStatus = .ready := hready
      unfold pick at hpick
      split at hpick
      · exact hpick
      · rename_i hne
        exact absurd hpick (hstatus.resolve_left hne)
    | some revision =>
      simp only [hchecked] at hobjectWritable
      obtain ⟨hpassed, hrevision⟩ := hobjectWritable
      simp only [Op.timely, hchecked, hobject, Option.all_some, World.publishes, Bool.and_eq_true,
        Bool.or_eq_true, decide_eq_true_eq] at htimely
      obtain ⟨⟨hstatus, htime⟩, hcurrent⟩ := htimely
      refine ⟨fun hready => ?_, h.past, h.started⟩
      have hready' := hstatus.symm.trans hready
      have hrow : w.row.configurationRevision = revision := hcurrent.resolve_left (absurd hready')
      show World.Passed _ (pick _ _ _) (Loaded.written _ _).precheckCheckedAt
      rw [htime, hrevision, pick_base, hrow]
      exact hpassed hready'

theorem verified_start {w : World} {migration : Draft} (h : Verified w)
    (hready : migration.preparationStatus = .ready) (hfenced : w.fenced migration = true)
    (htimely : w.row.precheckCheckedAt.any (fun checkedAt => w.clock ≤ checkedAt + precheckMaxAge) = true) :
    Verified (w.transitioned .start ⟨migration, migration⟩) := by
  simp only [World.fenced, Bool.and_eq_true, decide_eq_true_eq] at hfenced
  obtain ⟨⟨-, hstatus⟩, -⟩ := hfenced
  obtain ⟨t, ht, hpassed⟩ := h.ready (hstatus.trans hready)
  rw [ht, Option.any_some, decide_eq_true_eq] at htimely
  refine ⟨fun _ => ?_, h.past, fun start hstart => ?_⟩
  · show World.Passed _ (pick _ _ _) (pick _ _ _)
    rw [Command.assigned, Command.values, pick_base, pick_base]
    exact ⟨t, ht, hpassed⟩
  · rcases List.mem_cons.mp hstart with rfl | hstart
    · exact ⟨t, hpassed, h.past _ hpassed, htimely⟩
    · exact h.started start hstart

/-- The other commands leave the draft not ready. -/
theorem verified_transitioned {w : World} {command : Command} (h : Verified w) (hcommand : command ≠ .start)
    (object : Loaded) : Verified (w.transitioned command object) := by
  have hpick {α : Type} [DecidableEq α] (base value : α) : pick base value value = value := by
    unfold pick
    split <;> rfl
  cases command with
  | start => exact absurd rfl hcommand
  | precheck activeChecks =>
    refine h.of_not_ready ?_ rfl rfl rfl
    show pick _ PreparationStatus.checking .checking ≠ .ready
    rw [hpick]
    nofun
  | edit =>
    refine h.of_not_ready ?_ rfl rfl rfl
    show pick _ PreparationStatus.stale .stale ≠ .ready
    rw [hpick]
    nofun

/-- What holds before a call and after its effect holds if the call may fail. -/
theorem faulty_world {α : Type} {P : World → Prop} {before after : World × Session} (hbefore : P before.1)
    (hafter : P after.1) (choice : Choice) (a : α) : P (faulty choice before after a).1 := by
  unfold faulty
  split
  · exact hafter
  · exact hbefore
  · exact hafter

theorem relies_exec (op : Op) (choice : Choice) (w : World) (s : Session) :
    Relies w (exec op choice w s).1 := by
  have hrefl := Relies.refl w
  cases op with
  | now | assign | rollback => exact hrefl
  | getMigration | ask | remote | checkpointRow => exact faulty_world hrefl hrefl choice _
  | completePrecheckReport revision activeChecks errors =>
    intro check hcheck
    simp only [exec]
    split
    · exact List.mem_cons_of_mem _ hcheck
    · exact hcheck
  | commit =>
    refine faulty_world hrefl ?_ choice ()
    unfold World.committed
    split <;> exact hrefl
  | assertWorkflowLease =>
    simp only [exec]
    split <;> exact hrefl
  | claim now leaseSeconds =>
    simp only [exec]
    split <;> exact faulty_world hrefl hrefl choice _
  | transition command =>
    simp only [exec]
    split
    · exact faulty_world hrefl hrefl choice _
    · exact hrefl

theorem verified_exec {op : Op} {w : World} {s : Session} (h : Verified w)
    (hrequire : rules.require op w s) (hallowed : op.timely w s = true) (choice : Choice) :
    Verified (exec op choice w s).1 := by
  cases op with
  | now | assign | rollback => exact h
  | getMigration | ask | remote | checkpointRow => exact faulty_world h h choice _
  | completePrecheckReport revision activeChecks errors =>
    have hpassed : ∀ check ∈ (exec (.completePrecheckReport revision activeChecks errors) choice w s).1.passed,
        check ∈ w.passed ∨ check = (revision, w.clock) := by
      simp only [exec]
      intro check hcheck
      split at hcheck
      · exact (List.mem_cons.mp hcheck).symm
      · exact .inl hcheck
    have hrely := relies_exec (.completePrecheckReport revision activeChecks errors) choice w s
    refine ⟨fun hready => (h.ready hready).rely hrely, fun check hcheck => ?_, fun start hstart => ?_⟩
    · rcases hpassed check hcheck with hcheck | rfl
      · exact h.past check hcheck
      · exact Nat.le_refl _
    · obtain ⟨t, ht, hbounds⟩ := h.started start hstart
      exact ⟨t, hrely _ ht, hbounds⟩
  | commit => exact faulty_world h (verified_committed h hrequire hallowed) choice ()
  | assertWorkflowLease =>
    simp only [exec]
    split <;> exact h
  | claim now leaseSeconds =>
    have hclaimed : Verified { w with row := { w.row with
        workerLeaseOwner := some s.me, workerLeaseUntil := some (now + max 15 leaseSeconds) } } :=
      h.of_row id rfl rfl rfl (Nat.le_refl _) rfl
    simp only [exec]
    split
    · exact faulty_world h hclaimed choice _
    · exact faulty_world h h choice _
  | transition command =>
    simp only [exec]
    split
    · rename_i hfenced
      refine faulty_world h ?_ choice _
      by_cases hcommand : command = .start
      · subst hcommand
        obtain ⟨migration, hobject, hready⟩ := hrequire
        have hloaded : s.loaded w = ⟨migration, migration⟩ := by rw [Session.loaded, hobject, Option.getD_some]
        rw [hloaded] at hfenced ⊢
        exact verified_start h hready hfenced hallowed
      · exact verified_transitioned h hcommand _
    · exact h

/-! ## The sessions -/

/-- The session holds no finished checks. -/
structure Clean (_ : World) (s : Session) : Prop where
  checked : s.checked = none
  object : ∀ object, s.object = some object → object.Plain

/-- The session holds finished checks of the revision. -/
structure Publishing (revision : ℕ) (w : World) (s : Session) : Prop where
  checked : s.checked = some revision
  object : ∃ object, s.object = some object ∧ Finished w revision object

/-- The session has loaded the draft and not changed it. -/
structure Holding (migration : Draft) (_ : World) (s : Session) : Prop where
  object : s.object = some ⟨migration, migration⟩
  checked : s.checked = none

theorem Loaded.plain_fresh (row : Draft) : (Loaded.mk row row).Plain := ⟨.inl rfl, rfl, rfl⟩

theorem Clean.stable : Stable rules Clean := fun _ _ _ h _ _ => ⟨h.checked, h.object⟩

theorem Holding.stable {migration : Draft} : Stable rules (Holding migration) :=
  fun _ _ _ h _ _ => ⟨h.object, h.checked⟩

theorem Finished.rely {w w' : World} {revision : ℕ} {object : Loaded} (h : Finished w revision object)
    (hrely : Relies w w') : Finished w' revision object :=
  ⟨fun hready => (h.passed hready).rely hrely, h.configurationRevision⟩

theorem Publishing.stable {revision : ℕ} : Stable rules (Publishing revision) := by
  intro w w' s h hrely _
  obtain ⟨object, hobject, hfinished⟩ := h.object
  exact ⟨h.checked, object, hobject, hfinished.rely hrely⟩

theorem Holding.clean {migration : Draft} {w : World} {s : Session} (h : Holding migration w s) :
    Clean w s := by
  refine ⟨h.checked, fun object hobject => ?_⟩
  obtain rfl := Option.some.inj (h.object.symm.trans hobject)
  exact Loaded.plain_fresh migration

theorem Clean.loaded {w : World} {s : Session} (h : Clean w s) : (s.loaded w).Plain := by
  unfold Session.loaded
  cases hobject : s.object with
  | none => exact Loaded.plain_fresh w.row
  | some object => exact h.object object hobject

theorem Clean.writable {w : World} {s : Session} (h : Clean w s) : Writable w s := by
  intro object hobject
  rw [h.checked]
  exact h.object object hobject

theorem Publishing.writable {revision : ℕ} {w : World} {s : Session} (h : Publishing revision w s) :
    Writable w s := by
  intro object hobject
  obtain ⟨held, hheld, hfinished⟩ := h.object
  obtain rfl := Option.some.inj (hheld.symm.trans hobject)
  rw [h.checked]
  exact hfinished

theorem clean_expired (w : World) (s : Session) : Clean w s.expired := by
  refine ⟨rfl, fun object hobject => ?_⟩
  have hnone : s.expired.object = none := rfl
  rw [hnone] at hobject
  cases hobject

/-- What holds of the session before a call and after it holds if the call may fail. -/
theorem faulty_session {α : Type} {P : World → Session → Prop} {before after : World × Session}
    (hbefore : P before.1 before.2) (hafter : P after.1 after.2) (choice : Choice) (a : α) :
    P (faulty choice before after a).1 (faulty choice before after a).2.1 := by
  unfold faulty
  split
  · exact hafter
  · exact hbefore
  · exact hafter

theorem keeps_of_exec {op : Op} {A : World → Session → Prop} (hstable : Stable rules A)
    (hrequire : ∀ w s, A w s → rules.require op w s)
    (hexec : ∀ choice w s, A w s → Relies w (exec op choice w s).1 → Verified (exec op choice w s).1 →
      A (exec op choice w s).1 (exec op choice w s).2.1) :
    Keeps system.toMachine rules A _ (Prog.perform op : Service _) :=
  keeps_perform hstable fun w s hA hinv => ⟨hrequire w s hA, fun hallowed choice => by
    have hverified := verified_exec hinv (hrequire w s hA) hallowed choice
    exact ⟨hverified, hexec choice w s hA (relies_exec op choice w s) hverified⟩⟩

/-- The operation leaves the session alone. -/
def Op.quiet : Op → Bool
  | .now | .ask _ | .remote _ | .assertWorkflowLease | .checkpointRow | .claim _ _ => true
  | _ => false

theorem session_of_quiet {op : Op} (h : op.quiet = true) (choice : Choice) (w : World) (s : Session) :
    (exec op choice w s).2.1 = s := by
  have hfaulty {α : Type} {w' : World} (a : α) : (faulty choice (w, s) (w', s) a).2.1 = s := by
    unfold faulty
    split <;> rfl
  cases op with
  | now => rfl
  | ask | remote | checkpointRow => exact hfaulty _
  | assertWorkflowLease =>
    simp only [exec]
    split <;> rfl
  | claim now leaseSeconds =>
    simp only [exec]
    split <;> exact hfaulty _
  | _ => cases h

theorem require_of_quiet {op : Op} (h : op.quiet = true) (w : World) (s : Session) :
    rules.require op w s := by
  cases op with
  | now | ask | remote | checkpointRow | assertWorkflowLease | claim => trivial
  | _ => cases h

theorem keeps_quiet {op : Op} {A : World → Session → Prop} (h : op.quiet = true) (hstable : Stable rules A) :
    Keeps system.toMachine rules A _ (Prog.perform op : Service _) :=
  keeps_of_exec hstable (fun w s _ => require_of_quiet h w s) fun choice w s hA hrely hverified => by
    rw [session_of_quiet h choice w s]
    exact hstable w _ s hA hrely hverified

/-! ## Programs without finished checks -/

/-- The program keeps the session without finished checks. -/
abbrev KeepsClean (α : Type) (p : Service α) : Prop := Keeps system.toMachine rules Clean α p

theorem clean_composes : Prog.Composes KeepsClean := keeps_composes Clean

theorem clean_quiet {op : Op} (h : op.quiet = true) : KeepsClean _ (Prog.perform op) :=
  keeps_quiet h Clean.stable

theorem clean_raise {α : Type} (e : Error) : KeepsClean α (Prog.raise e) := clean_composes.raise e

theorem clean_getMigration : KeepsClean _ (Prog.perform Op.getMigration) := by
  refine keeps_of_exec Clean.stable (fun _ _ _ => trivial) fun choice w s h _ _ => ?_
  refine faulty_session (P := Clean) h ⟨h.checked, fun object hobject => ?_⟩ choice _
  cases hobject
  exact h.loaded

theorem clean_commit : KeepsClean _ (Prog.perform Op.commit) :=
  keeps_of_exec Clean.stable (fun _ _ h => h.writable) fun choice w s _ _ _ =>
    faulty_session (P := Clean) (clean_expired w s) (clean_expired _ s) choice ()

theorem clean_rollback : KeepsClean _ (Prog.perform Op.rollback) :=
  keeps_of_exec Clean.stable (fun _ _ _ => trivial) fun _ w s _ _ _ => clean_expired w s

/-- An assignment of a status other than `ready`, or of other columns. -/
theorem clean_assign {f : Draft → Draft}
    (hstatus : ∀ migration, (f migration).preparationStatus = migration.preparationStatus ∨
      (f migration).preparationStatus ≠ .ready)
    (htime : ∀ migration, (f migration).precheckCheckedAt = migration.precheckCheckedAt)
    (hrevision : ∀ migration, (f migration).configurationRevision = migration.configurationRevision) :
    KeepsClean _ (Prog.perform (Op.assign f)) := by
  refine keeps_of_exec Clean.stable (fun _ _ _ => trivial) fun choice w s h _ _ => ?_
  refine ⟨h.checked, fun object hobject => ?_⟩
  cases hobject
  obtain ⟨hplain, hplainTime, hplainRevision⟩ := h.loaded
  refine ⟨?_, (htime _).trans hplainTime, (hrevision _).trans hplainRevision⟩
  rcases hstatus (s.loaded w).current with hsame | hne
  · rw [hsame]
    exact hplain
  · exact .inr hne

theorem clean_transition {command : Command} (hcommand : command ≠ .start) :
    KeepsClean _ (Prog.perform (Op.transition command)) := by
  refine keeps_of_exec Clean.stable (fun _ _ _ => ?_) fun choice w s _ _ _ => ?_
  · cases command with
    | start => exact absurd rfl hcommand
    | precheck | edit => trivial
  · simp only [exec]
    split
    · exact faulty_session (P := Clean) (clean_expired w s) (clean_expired _ s) choice ()
    · exact clean_expired w s

theorem clean_requireAction (migration : Draft) (current : Bool) :
    KeepsClean _ (requireAction migration current) :=
  clean_composes.bind (clean_quiet rfl) fun _ => clean_composes.bind (clean_quiet rfl) fun _ =>
    clean_composes.when fun _ => clean_raise _

theorem clean_requestPrecheck (activeChecks : Bool) : KeepsClean _ (requestPrecheck activeChecks) := by
  refine clean_composes.bind clean_getMigration fun migration => ?_
  refine clean_composes.bind (clean_quiet rfl) fun _ => ?_
  exact clean_composes.bind (clean_requireAction migration false) fun _ => clean_transition nofun

theorem clean_updateDraftMigration (configurationRevision : ℕ) :
    KeepsClean _ (updateDraftMigration configurationRevision) := by
  refine clean_composes.bind clean_getMigration fun migration => ?_
  refine clean_composes.bind (clean_composes.when fun _ => clean_raise _) fun _ => ?_
  refine clean_composes.bind (clean_requireAction migration false) fun _ => ?_
  refine clean_composes.bind (clean_composes.when fun _ => clean_raise _) fun _ => ?_
  exact clean_composes.bind (clean_quiet rfl) fun _ => clean_transition nofun

theorem clean_checkpoint (workerId : String) (revision : ℕ) :
    KeepsClean _ (checkpoint workerId revision) := by
  refine clean_composes.bind (clean_quiet rfl) fun _ => ?_
  refine clean_composes.bind (clean_quiet rfl) fun row => ?_
  refine clean_composes.bind (clean_composes.when fun _ => clean_raise _) fun _ => ?_
  exact clean_composes.bind (clean_quiet rfl) fun _ => clean_commit

theorem clean_recoverPreparationEffects (items : ℕ) : KeepsClean _ (recoverPreparationEffects items) := by
  refine clean_composes.forEach fun _ _ => clean_composes.bind (clean_quiet rfl) fun _ => ?_
  refine clean_composes.when fun _ => clean_composes.bind (clean_quiet rfl) fun _ => ?_
  refine clean_composes.bind (clean_quiet rfl) fun _ => ?_
  exact clean_composes.bind (clean_quiet rfl) fun _ => clean_commit

theorem clean_probeItem (workerId : String) (revision : ℕ) : KeepsClean _ (probeItem workerId revision) := by
  refine clean_composes.bind (clean_quiet rfl) fun _ => ?_
  refine clean_composes.bind (clean_checkpoint workerId revision) fun _ => ?_
  refine clean_composes.bind clean_commit fun _ => ?_
  refine clean_composes.bind (clean_quiet rfl) fun _ => ?_
  exact clean_composes.bind (clean_quiet rfl) fun _ => clean_commit

theorem clean_planItem (workerId : String) (revision : ℕ) : KeepsClean _ (planItem workerId revision) := by
  refine clean_composes.bind (clean_quiet rfl) fun _ => ?_
  refine clean_composes.bind (clean_quiet rfl) fun _ => ?_
  refine clean_composes.bind (clean_composes.attempt ?_) fun _ => clean_composes.pure _
  exact clean_composes.when fun _ => clean_probeItem workerId revision

theorem clean_planItems (workerId : String) (revision items : ℕ) :
    KeepsClean _ (planItems workerId revision items) := by
  refine clean_composes.bind (clean_quiet rfl) fun _ => ?_
  refine Prog.Composes.ite ?_ (clean_composes.pure true)
  refine clean_composes.foldM fun _ _ _ => ?_
  refine clean_composes.bind (clean_checkpoint workerId revision) fun _ => ?_
  refine clean_composes.bind (clean_planItem workerId revision) fun _ => ?_
  exact clean_composes.bind (clean_checkpoint workerId revision) fun _ => clean_composes.pure _

theorem clean_recordPrecheckFailure (workerId : String) : KeepsClean _ (recordPrecheckFailure workerId) := by
  refine clean_composes.bind clean_getMigration fun migration => ?_
  refine clean_composes.bind (clean_composes.when fun _ => clean_raise _) fun _ => ?_
  exact clean_assign (fun _ => .inr nofun) (fun _ => rfl) fun _ => rfl

theorem clean_recordOutcome (workerId : String) (e : Error) : KeepsClean _ (recordOutcome workerId e) := by
  refine clean_composes.bind clean_rollback fun _ => ?_
  cases e with
  | leaseLost => exact clean_raise _
  | failure message => exact clean_recordPrecheckFailure workerId

/-! ## The start and the worker -/

/-- The program runs to `Q` if it returns. -/
abbrev Returns {α : Type} (p : Service α) (Q : α → World → Session → Prop) (w : World) (s : Session) :
    Prop :=
  wp system.toMachine rules p Q (fun _ _ _ => True) w s

theorem Returns.bind {α β : Type} {p : Service α} {f : α → Service β} {Q : α → World → Session → Prop}
    {Q' : β → World → Session → Prop} {w : World} {s : Session} (hp : Returns p Q w s)
    (hf : ∀ a w s, Q a w s → Returns (f a) Q' w s) : Returns (p >>= f) Q' w s :=
  wp_bind (wp_mono hp hf fun _ _ _ h => h)

theorem Returns.of_keeps {α : Type} {p : Service α} {A : World → Session → Prop} {w : World} {s : Session}
    (hp : Keeps system.toMachine rules A α p) (h : A w s) : Returns p (fun _ => A) w s :=
  wp_mono (hp w s h) (fun _ _ _ h => h) fun _ _ _ _ => trivial

/-- An operation that may run where `A` holds. -/
theorem returns_perform {op : Op} {A : World → Session → Prop} {Q : Reply op → World → Session → Prop}
    {w : World} {s : Session} (hA : A w s) (hstable : Stable rules A)
    (hrequire : ∀ w s, A w s → rules.require op w s)
    (hQ : ∀ choice w s a, A w s → (exec op choice w s).2.2 = .ok a →
      Q a (exec op choice w s).1 (exec op choice w s).2.1) : Returns (Prog.perform op) Q w s := by
  refine wp_perform hA hstable fun w s hA hinv => ?_
  refine step_of_exec (hrequire w s hA) (verified_exec hinv (hrequire w s hA)) ?_ fun _ _ _ _ => trivial
  exact fun _ choice a hok => hQ choice w s a hA hok

theorem faulty_ok {α : Type} {before after : World × Session} {a b : α} {choice : Choice}
    (h : (faulty choice before after a).2.2 = .ok b) : choice.fault = .none ∧ a = b := by
  unfold faulty at h
  split at h
  · rename_i hfault
    exact ⟨hfault, Except.ok.inj h⟩
  · cases h
  · cases h

/-- The load of a session that has not loaded the draft yet. -/
theorem returns_getMigration {w : World} {s : Session} (hobject : s.object = none)
    (hchecked : s.checked = none) :
    Returns (Prog.perform Op.getMigration) (fun (migration : Draft) => Holding migration) w s := by
  refine returns_perform (A := fun _ s => s.object = none ∧ s.checked = none) ⟨hobject, hchecked⟩
    (fun _ _ _ h _ _ => h) (fun _ _ _ => trivial) ?_
  rintro choice w s migration ⟨hobject, hchecked⟩ hok
  have hloaded : s.loaded w = ⟨w.row, w.row⟩ := by rw [Session.loaded, hobject, Option.getD_none]
  obtain ⟨hfault, rfl⟩ := faulty_ok hok
  simp only [exec, faulty, hfault, hloaded]
  exact ⟨rfl, hchecked⟩

theorem holding_requireAction (m migration : Draft) (current : Bool) :
    Keeps system.toMachine rules (Holding m) _ (requireAction migration current) :=
  (keeps_composes _).bind (keeps_quiet rfl Holding.stable) fun _ =>
    (keeps_composes _).bind (keeps_quiet rfl Holding.stable) fun _ =>
      (keeps_composes _).when fun _ => (keeps_composes _).raise _

/-- A revalidation that fails with a `ValueError` marks the draft stale; every failure is raised. -/
theorem returns_revalidateStartPreconditions {migration : Draft} {w : World} {s : Session}
    (h : Holding migration w s) :
    Returns revalidateStartPreconditions (fun _ => Holding migration) w s := by
  have hremote : Keeps system.toMachine rules (Holding migration) _
      (Prog.perform (Op.remote "_revalidate_transfer_preconditions") : Service _) :=
    keeps_quiet rfl Holding.stable
  refine wp_tryCatch (wp_mono (hremote w s h) (fun _ _ _ h => h) fun e w s h => ?_)
  have hstale : KeepsClean _ (Prog.perform
      (Op.assign fun migration => { migration with preparationStatus := .stale })) :=
    clean_assign (fun _ => .inr nofun) (fun _ => rfl) fun _ => rfl
  have hask : Keeps system.toMachine rules (Holding migration) _
      (Prog.perform (Op.ask "the failure is a ValueError") : Service _) :=
    keeps_quiet rfl Holding.stable
  refine (Returns.of_keeps hask h).bind fun valueError w s h => ?_
  exact (Returns.of_keeps (clean_composes.when fun _ => clean_composes.bind hstale fun _ => clean_commit)
    h.clean).bind fun _ _ _ _ => trivial

theorem ready_of_preparationIsCurrent {now : ℕ} {migration : Draft}
    (h : preparationIsCurrent now migration = true) : migration.preparationStatus = .ready := by
  simp only [preparationIsCurrent, Bool.and_eq_true, decide_eq_true_eq] at h
  exact h.1

theorem returns_validateStartExecutionPlan {migration : Draft} {w : World} {s : Session}
    (h : Holding migration w s) : Returns (validateStartExecutionPlan migration)
      (fun _ w s => Holding migration w s ∧ migration.preparationStatus = .ready) w s := by
  refine Returns.bind (Q := fun _ => Holding migration) (wp_guard (fun _ => h) fun _ => trivial) ?_
  intro _ w s h
  refine (Returns.of_keeps (keeps_quiet rfl Holding.stable) h).bind fun now w s h => ?_
  refine Returns.bind (Q := fun _ w s => Holding migration w s ∧ migration.preparationStatus = .ready)
    (wp_guard (fun hcurrent => ⟨h, ?_⟩) fun _ => trivial) ?_
  · rw [Bool.not_eq_false'] at hcurrent
    exact ready_of_preparationIsCurrent hcurrent
  · intro _ w s h
    refine (Returns.of_keeps (keeps_quiet rfl Holding.stable) h.1).bind fun supported w s hkept => ?_
    exact wp_guard (fun _ => ⟨hkept, h.2⟩) fun _ => trivial

theorem returns_startMigration (configurationRevision : ℕ) {w : World} {s : Session}
    (hobject : s.object = none) (hchecked : s.checked = none) :
    Returns (startMigration configurationRevision) (fun _ _ _ => True) w s := by
  refine (returns_getMigration hobject hchecked).bind fun migration w s h => ?_
  refine (Returns.of_keeps (keeps_quiet rfl Holding.stable) h).bind fun _ w s h => ?_
  refine (Returns.of_keeps (holding_requireAction migration migration true) h).bind fun _ w s h => ?_
  refine Returns.bind (Q := fun _ => Holding migration) (wp_guard (fun _ => h) fun _ => trivial) ?_
  intro _ w s h
  refine (Returns.of_keeps (keeps_quiet rfl Holding.stable) h).bind fun confirmed w s h => ?_
  refine Returns.bind (Q := fun _ => Holding migration) (wp_guard (fun _ => h) fun _ => trivial) ?_
  intro _ w s h
  refine (returns_revalidateStartPreconditions h).bind fun _ w s h => ?_
  refine (returns_validateStartExecutionPlan h).bind fun _ w s h => ?_
  refine returns_perform (A := fun w s => Holding migration w s ∧ migration.preparationStatus = .ready) h
    (fun w w' s h hrely hinv => ⟨Holding.stable w w' s h.1 hrely hinv, h.2⟩) ?_ fun _ _ _ _ _ _ => trivial
  exact fun w s h => ⟨migration, h.1.object, h.2⟩

/-- Checks that end hold what they found; checks that fail hold nothing. -/
theorem wp_prepare (workerId : String) (revision items : ℕ) (activeChecks : Bool) {w : World} {s : Session}
    (h : Clean w s) : wp system.toMachine rules (prepare workerId revision items activeChecks)
      (fun _ => Publishing revision) (fun _ => Clean) w s := by
  refine wp_bind (wp_mono (clean_checkpoint workerId revision w s h) ?_ fun _ _ _ h => h)
  intro _ w s h
  refine wp_bind (wp_mono (clean_recoverPreparationEffects items w s h) ?_ fun _ _ _ h => h)
  intro _ w s h
  refine wp_bind (wp_mono (clean_planItems workerId revision items w s h) ?_ fun _ _ _ h => h)
  intro errors w s h
  refine wp_bind (wp_mono (clean_checkpoint workerId revision w s h) ?_ fun _ _ _ h => h)
  intro _ w s h
  refine wp_bind (wp_mono (clean_getMigration w s h) ?_ fun _ _ _ h => h)
  intro _ w s h
  have hask : KeepsClean _ (Prog.perform (Op.ask "an item has preparation effects")) :=
    clean_quiet rfl
  refine wp_bind (wp_mono (hask w s h) ?_ fun _ _ _ h => h)
  intro unrestored w s h
  refine wp_bind (wp_guard (fun _ => ?_) fun _ => h)
  refine wp_perform h Clean.stable fun w s h hinv => ⟨trivial, fun hallowed choice => ?_⟩
  have hverified := @verified_exec (.completePrecheckReport revision activeChecks errors) w s hinv trivial
    hallowed choice
  refine ⟨hverified, rfl, _, rfl, ?_⟩
  refine ⟨fun hready => ⟨w.clock, rfl, ?_⟩, h.loaded.configurationRevision⟩
  have hpassed : (!errors && activeChecks) = true := by
    cases errors with
    | true => cases hready
    | false =>
      cases activeChecks with
      | true => rfl
      | false => cases hready
  show _ ∈ (if !errors && activeChecks then (revision, w.clock) :: w.passed else w.passed)
  rw [if_pos hpassed]
  exact List.mem_cons_self

/-- The lease of the row is given up with the outcome. -/
def withoutLease (migration : Draft) : Draft :=
  { migration with workerLeaseOwner := none, workerLeaseUntil := none }

theorem returns_assign_publishing {revision : ℕ} {w : World} {s : Session} (h : Publishing revision w s) :
    Returns (Prog.perform (Op.assign withoutLease)) (fun _ => Publishing revision) w s := by
  refine returns_perform h Publishing.stable (fun _ _ _ => trivial) ?_
  intro choice w s _ h _
  obtain ⟨object, hobject, hfinished⟩ := h.object
  refine ⟨h.checked, _, rfl, ?_⟩
  have hloaded : s.loaded w = object := by rw [Session.loaded, hobject, Option.getD_some]
  rw [hloaded]
  exact ⟨hfinished.passed, hfinished.configurationRevision⟩

theorem returns_runPrecheck (workerId : String) (items : ℕ) {w : World} {s : Session} (h : Clean w s) :
    Returns (runPrecheck workerId items) (fun _ _ _ => True) w s := by
  refine (Returns.of_keeps clean_getMigration h).bind fun (migration : Draft) w s h => ?_
  refine Returns.bind (Q := fun _ => Clean) (wp_guard (fun _ => h) fun _ => trivial) ?_
  intro _ w s h
  refine (Returns.of_keeps (clean_quiet rfl) h).bind fun _ w s h => ?_
  have hassign : KeepsClean _ (Prog.perform
      (Op.assign fun migration => { migration with preparationStatus := .checking })) :=
    clean_assign (fun _ => .inr nofun) (fun _ => rfl) fun _ => rfl
  refine (Returns.of_keeps hassign h).bind fun _ w s h => ?_
  have houtcome : Returns ((prepare workerId migration.configurationRevision items
      migration.preparationActiveChecks).tryCatch (recordOutcome workerId))
      (fun _ w s => Clean w s ∨ Publishing migration.configurationRevision w s) w s := by
    refine wp_tryCatch (wp_mono (wp_prepare workerId _ items _ h) (fun _ _ _ h => .inr h) ?_)
    intro e w s h
    exact wp_mono (clean_recordOutcome workerId e w s h) (fun _ _ _ h => .inl h) fun _ _ _ _ => trivial
  refine houtcome.bind fun _ w s h => ?_
  rcases h with h | h
  · have hassign : KeepsClean _ (Prog.perform (Op.assign withoutLease)) :=
      clean_assign (fun _ => .inl rfl) (fun _ => rfl) fun _ => rfl
    refine (Returns.of_keeps hassign h).bind fun _ w s h => ?_
    exact wp_mono (Returns.of_keeps clean_commit h) (fun _ _ _ _ => trivial) fun _ _ _ h => h
  · refine (returns_assign_publishing h).bind fun _ w s h => ?_
    exact returns_perform h Publishing.stable (fun _ _ h => h.writable) fun _ _ _ _ _ _ => trivial

theorem returns_preparation (workerId : String) (leaseSeconds items : ℕ) {w : World} {s : Session}
    (h : Clean w s) : Returns (preparation workerId leaseSeconds items) (fun _ _ _ => True) w s := by
  refine (Returns.of_keeps (clean_quiet rfl) h).bind fun _ w s h => ?_
  refine (Returns.of_keeps (clean_quiet rfl) h).bind fun (claimed : Bool) w s h => ?_
  cases claimed with
  | false => trivial
  | true => exact returns_runPrecheck workerId items h

theorem clean_session (job : Job) (w : World) : Clean w job.session := by
  cases job <;>
  · refine ⟨rfl, fun object hobject => ?_⟩
    cases hobject

theorem returns_service (job : Job) (w : World) : Returns job.service (fun _ _ _ => True) w job.session := by
  have hclean := clean_session job w
  have hcommand {p : Service Unit} (hp : KeepsClean Unit p) :
      Returns p (fun _ _ _ => True) w job.session :=
    wp_mono (hp w _ hclean) (fun _ _ _ _ => trivial) fun _ _ _ _ => trivial
  cases job with
  | requestPrecheck activeChecks => exact hcommand (clean_requestPrecheck activeChecks)
  | updateDraftMigration revision => exact hcommand (clean_updateDraftMigration revision)
  | startMigration revision => exact returns_startMigration revision rfl rfl
  | preparation workerId leaseSeconds items => exact returns_preparation workerId leaseSeconds items hclean

/-! ## Every run -/

/-- The operation a step executes is not late. -/
def Timely (st : SystemState) : SystemLabel → Bool
  | .advance i _ =>
    st.threads[i]?.all fun t => t.pending.all fun op => op.timely st.world t.session
  | _ => true

theorem sound : Sound system rules fun st label => Timely st label = true where
  event := by
    intro st e world' hinv _ happly
    cases e with
    | wait seconds =>
      cases happly
      exact ⟨Relies.refl _, hinv.of_row id rfl rfl rfl (Nat.le_add_right _ _) rfl⟩
    | renewLease workerId leaseSeconds =>
      simp only [system, applyEvent, Option.ite_none_right_eq_some] at happly
      obtain ⟨-, happly⟩ := happly
      cases happly
      exact ⟨Relies.refl _, hinv.of_row id rfl rfl rfl (Nat.le_refl _) rfl⟩
  start hinv _ hstart := by
    simp only [system, Option.some.injEq, Prod.mk.injEq] at hstart
    obtain ⟨rfl, rfl, rfl⟩ := hstart
    exact ⟨Relies.refl _, hinv, returns_service _ _⟩
  advance hok hthread hprog := by
    show Op.timely _ _ _ = true
    simpa [Timely, hthread, Thread.pending, hprog] using hok
  shared _ _ hnext := by
    simp only [System.next] at hnext
    split at hnext
    · rename_i session op next hthread
      cases hnext
      exact .inr (relies_exec op _ _ session)
    · cases hnext

/-- A draft that is not ready and was not started. -/
structure Initial (w : World) : Prop where
  preparationStatus : w.row.preparationStatus ≠ .ready
  passed : w.passed = []
  started : w.started = []

theorem Initial.verified {w : World} (h : Initial w) : Verified w := by
  refine ⟨fun hready => absurd hready h.preparationStatus, fun check hcheck => ?_, fun start hstart => ?_⟩
  · rw [h.passed] at hcheck
    exact absurd hcheck List.not_mem_nil
  · rw [h.started] at hstart
    exact absurd hstart List.not_mem_nil

/-- When no finished checks are published late and no start commits late, every start finds that
active checks of exactly its revision finished without errors at most fifteen minutes earlier. -/
theorem started_after_checks {w : World} (hinitial : Initial w) {st : SystemState}
    (h : Reachable system (fun st label => Timely st label = true) w st) (revision time : ℕ)
    (hstart : (revision, time) ∈ st.world.started) :
    ∃ t, (revision, t) ∈ st.world.passed ∧ t ≤ time ∧ time ≤ t + precheckMaxAge :=
  (SafeState.of_reachable sound hinitial.verified h).inv.started (revision, time) hstart

theorem initial_created : Initial {} := by
  refine ⟨?_, rfl, rfl⟩
  nofun

/-- Thread `i` goes on without failures, and every question is answered with yes. -/
def steps (i n : ℕ) : List SystemLabel := List.replicate n (.advance i {})

/-- The next question of thread `i` is answered with no. -/
def no (i : ℕ) : List SystemLabel := [.advance i { answer := false }]

def checksRequested : List SystemLabel := .start (.requestPrecheck true) :: (steps 0 2 ++ no 0 ++ steps 0 2)

/-- A worker claims the draft of one item and checks it, up to the last commit. -/
def checksFinished : List SystemLabel := .start (.preparation "a" 60 1) ::
  (steps 1 9 ++ no 1 ++ steps 1 6 ++ no 1 ++ steps 1 9 ++ no 1 ++ steps 1 2)

theorem started_after_checks_once : ∃ st, Reachable system
    (fun st label => Timely st label = true) {} st ∧ (1, 0) ∈ st.world.started ∧
      ∃ t, (1, t) ∈ st.world.passed ∧ t ≤ 0 ∧ 0 ≤ t + precheckMaxAge := by
  have hrun : (system.run Timely ⟨{}, []⟩ (checksRequested ++ checksFinished ++ steps 1 1 ++
      .start (.startMigration 1) :: (steps 2 2 ++ no 2 ++ steps 2 6))).any (fun st =>
        decide ((1, 0) ∈ st.world.started)) = true := by
    decide +kernel
  obtain ⟨st, hst, hend⟩ := (Option.any_eq_true _ _).mp hrun
  have hstart := of_decide_eq_true hend
  have hreachable := Reachable.init.run hst
  exact ⟨st, hreachable, hstart, started_after_checks initial_created hreachable 1 0 hstart⟩

/-- The lease of the worker expires before its last commit. Another worker fails to check the draft, and
the draft is edited. -/
def edited : List SystemLabel := .event (.wait 61) :: .start (.preparation "b" 60 1) ::
  (steps 2 7 ++ [.advance 2 { fault := .before }] ++ steps 2 5 ++
    .start (.updateDraftMigration 1) :: (steps 3 1 ++ no 3 ++ steps 3 3))

/-- A late worker makes an edited draft ready, and a revision nobody checked starts. -/
theorem unchecked_revision_starts : ∃ st, Reachable system (fun _ _ => true = true) {} st ∧
    (2, 61) ∈ st.world.started ∧ ∀ t, (2, t) ∉ st.world.passed := by
  have hrun : (system.run (fun _ _ => true) ⟨{}, []⟩ (checksRequested ++ checksFinished ++ edited ++
      steps 1 1 ++ .start (.startMigration 2) :: (steps 4 2 ++ no 4 ++ steps 4 6))).any (fun st =>
        decide ((2, 61) ∈ st.world.started ∧ st.world.passed = [(1, 0)])) = true := by
    decide +kernel
  obtain ⟨st, hst, hend⟩ := (Option.any_eq_true _ _).mp hrun
  obtain ⟨hstart, hpassed⟩ := of_decide_eq_true hend
  refine ⟨st, Reachable.init.run hst, hstart, fun t ht => ?_⟩
  rw [hpassed, List.mem_singleton] at ht
  cases ht

end Drafts
end BucketReef

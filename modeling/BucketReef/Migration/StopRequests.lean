import BucketReef.Migration.Frames

/-!
# Accepted stop requests

A worker assigns the status through the object it loaded, and a commit does not compare the row with
what was loaded. An accepted stop survives a commit that changes the status only if the row still
has the status the worker decided from.
-/

namespace BucketReef
namespace Migration

open Effects Service Prog

/-- A stop request only ends with a cancellation or a failure. -/
def KeepsStop (before after : MigrationStatus) : Prop :=
  before = .cancelRequested → after = .cancelRequested ∨ after = .canceled ∨ after = .failed

/-- A worker that changes the status of a stopped migration has loaded it after the stop. -/
def SawStop (w : World) (s : Session) : Bool :=
  s.migration.all fun object => object.current.status = object.base.status ||
    w.migration.status ≠ .cancelRequested || object.base.status = .cancelRequested

/-- One worker at a time; no stop request is committed between the moment a worker loads the status
it decides from and its commit. -/
def StopFenced : SystemState → SystemLabel → Bool :=
  Fenced (fun _ _ => true) fun op w s => !op.commits || SawStop w s

/-- What a worker relies on: no command takes an accepted stop back. -/
def stopRules : Rules Op World Session where
  rely w w' := w.migration.status = .cancelRequested → w'.migration.status = .cancelRequested
  inv _ := True
  allowed op w s := op.commits = true → SawStop w s = true
  require op w s := (op.commits = true → SawStop w s = true) → ∀ choice,
    KeepsStop w.migration.status (exec op choice w s).1.migration.status
  rely_refl _ := id
  rely_trans h₁ h₂ h := h₂ (h₁ h)

/-- A worker that has seen the stop request only assigns a status that ends it. -/
def HeedsStop (w : World) (s : Session) : Prop :=
  ∀ object ∈ s.migration, object.base.status = .cancelRequested →
    w.migration.status = .cancelRequested ∧ KeepsStop .cancelRequested object.current.status

/-- The object of the migration was loaded before any stop request. -/
def LoadedBeforeStop (s : Session) : Prop :=
  ∃ object ∈ s.migration, object.base.status ≠ .cancelRequested

theorem KeepsStop.refl (status : MigrationStatus) : KeepsStop status status := fun h => .inl h

theorem HeedsStop.of_none {w : World} {s : Session} (h : s.migration = none) : HeedsStop w s := by
  intro object hobject
  rw [h] at hobject
  cases hobject

theorem HeedsStop.of_loaded {w : World} {s : Session} (h : LoadedBeforeStop s) : HeedsStop w s := by
  obtain ⟨object, hobject, hbase⟩ := h
  intro other hother heq
  rw [Option.mem_def.mp hobject] at hother
  cases hother
  exact absurd heq hbase

theorem HeedsStop.of_row {w : World} {s : Session} (h : s.migration = some (fresh w.migration)) :
    HeedsStop w s := by
  intro object hobject hbase
  rw [h] at hobject
  cases hobject
  exact ⟨hbase, fun _ => .inl hbase⟩

theorem heedsStop_stable : Stable stopRules HeedsStop := by
  intro w w' s h hrely _ object hobject hbase
  exact ⟨hrely (h object hobject hbase).1, (h object hobject hbase).2⟩

theorem loadedBeforeStop_stable : Stable stopRules fun _ s => LoadedBeforeStop s :=
  fun _ _ _ h _ _ => h

/-! ## One operation -/

/-- A commit keeps an accepted stop. -/
theorem keepsStop_committed {w w' : World} {s : Session} (hstatus : w'.migration.status = w.migration.status)
    (hsaw : SawStop w s = true) (h : HeedsStop w s) :
    KeepsStop w.migration.status (w'.committed s).migration.status := by
  intro hstop
  simp only [World.committed]
  cases hobject : s.migration with
  | none => exact .inl (hstatus.trans hstop)
  | some object =>
    simp only [BucketMigration.merge]
    by_cases hchanged : object.current.status = object.base.status
    · rw [hchanged, pick_base]
      exact .inl (hstatus.trans hstop)
    · have hbase : object.base.status = .cancelRequested := by
        simpa [SawStop, hobject, hchanged, hstop] using hsaw
      rw [hstatus, hstop, hbase, pick_row]
      exact (h object hobject hbase).2 rfl

theorem markedRunning_status (w : World) (h : w.migration.status = .cancelRequested) :
    w.markedRunning = w := by
  unfold World.markedRunning
  rw [h]
  simp

/-- Every operation meets the rules where the worker heeds the stop. -/
theorem stopRules_require {op : Op} {w : World} {s : Session} (h : HeedsStop w s) :
    stopRules.require op w s := by
  intro hsaw choice
  cases hcommits : op.commits with
  | false =>
    rw [exec_migration hcommits]
    exact .refl _
  | true =>
    have hseen := hsaw hcommits
    cases op with
    | commit =>
      rcases faulty_cases choice (w, s.expired) (w.committed s, s.expired) () with h' | h'
      · exact fun hstop => .inl ((congrArg (fun w => w.migration.status) h'.1).trans hstop)
      · exact fun hstop => (congrArg (fun w => w.migration.status) h'.1) ▸
          keepsStop_committed rfl hseen h hstop
    | renewLease leaseSeconds =>
      simp only [exec]
      split
      · rcases faulty_cases choice (w, s.expired) ((w.renewed leaseSeconds).committed s, s.expired)
          true with h' | h'
        · exact fun hstop => .inl ((congrArg (fun w => w.migration.status) h'.1).trans hstop)
        · exact fun hstop => (congrArg (fun w => w.migration.status) h'.1) ▸
            keepsStop_committed rfl hseen h hstop
      · exact .refl _
    | markRunning =>
      intro hstop
      simp only [exec, markedRunning_status w hstop]
      rcases faulty_cases choice (w, s.expired) (w.committed s, s.expired) () with h' | h'
      · exact .inl ((congrArg (fun w => w.migration.status) h'.1).trans hstop)
      · exact (congrArg (fun w => w.migration.status) h'.1) ▸
          keepsStop_committed rfl hseen h hstop
    | _ => cases hcommits

/-- Assignments that leave the status or end a stop request. -/
def Op.HeedsStop : Op → Prop
  | .setMigration f => ∀ now row,
      (f now row).status = row.status ∨ KeepsStop .cancelRequested (f now row).status
  | _ => True

/-- An operation that heeds the stop leaves a session that does. -/
theorem heedsStop_exec (op : Op) (hop : op.HeedsStop) (choice : Choice) {w : World} {s : Session}
    (h : HeedsStop w s) : HeedsStop (exec op choice w s).1 (exec op choice w s).2.1 := by
  by_cases hexpires : op.commits = true ∨ op = .rollback ∨ op = .newSession
  · exact .of_none (exec_expires op hexpires).1
  · simp only [not_or, Bool.not_eq_true] at hexpires
    obtain ⟨hcommits, hrollback, hsession⟩ := hexpires
    have hrow : (exec op choice w s).1.migration = w.migration := exec_migration hcommits
    cases htouches : op.touchesMigration with
    | false =>
      intro object hobject hbase
      rw [exec_session_migration htouches] at hobject
      rw [hrow]
      exact h object hobject hbase
    | true =>
      have hloaded : HeedsStop w { s with migration := some (s.loadedMigration w) } := by
        cases hobject : s.migration with
        | none =>
          refine .of_row ?_
          simp [Session.loadedMigration, hobject]
        | some object =>
          intro other hother
          simp only [Session.loadedMigration, hobject, Option.getD_some] at hother
          cases hother
          exact h object hobject
      cases op with
      | getMigration => exact hloaded
      | refreshMigration => exact .of_row rfl
      | setMigration f =>
        intro object hobject hbase
        simp only [exec, Option.mem_def, Option.some.injEq] at hobject
        subst hobject
        obtain ⟨hrow', hcurrent⟩ := hloaded _ rfl hbase
        refine ⟨hrow', ?_⟩
        rcases hop w.clock (s.loadedMigration w).current with hsame | hends
        · exact fun _ => hsame ▸ hcurrent rfl
        · exact hends
      | commit => cases hcommits
      | renewLease leaseSeconds => cases hcommits
      | markRunning => cases hcommits
      | rollback => exact absurd rfl hrollback
      | newSession => exact absurd rfl hsession
      | _ => cases htouches

/-! ## Programs -/

section Programs

variable {hashing : Hashing} {config : Configuration} {J : (α : Type) → Service α → Prop}

theorem Op.OffSource.heedsStop {op : Op} (h : op.OffSource) : op.HeedsStop := by
  cases op with
  | setMigration f => exact fun now row => .inl (h now row)
  | _ => trivial

theorem access_heeds (hJ : Composes J) (hop : ∀ op, op.HeedsStop → J _ (.perform op)) :
    J _ assertMigrationCreatorAccess :=
  hJ.bind (hop .getMigration trivial) fun _ => hJ.bind (hop (.ask _) trivial) fun _ =>
    hJ.when fun _ => hJ.bind (hJ.when fun _ =>
      hJ.bind (hop (.setMigration _) fun _ _ => .inr fun _ => .inr (.inr rfl)) fun _ =>
        hop .commit trivial) fun _ => hJ.raise _

theorem writePolicy_heeds (hop : ∀ op, op.HeedsStop → J _ (.perform op)) (b : BucketRef)
    (policy : Option Policy) : J _ (writePolicy b policy) := by
  cases policy with
  | none => exact hop (.deletePolicy b) trivial
  | some policy => exact hop (.putPolicy b policy) trivial

theorem restoreCheckedPolicy_heeds (hJ : Composes J) (hop : ∀ op, op.HeedsStop → J _ (.perform op))
    (b : BucketRef) (policy : Option Policy) : J _ (restoreCheckedPolicy b policy) :=
  hJ.bind (hop .assertLease trivial) fun _ => hJ.bind (writePolicy_heeds hop b policy) fun _ =>
    hJ.bind (hop (.getPolicy b) trivial) fun _ => hJ.when fun _ => hJ.raise _

theorem restoreSourceCopyGrantPolicy_heeds (hJ : Composes J)
    (hop : ∀ op, op.HeedsStop → J _ (.perform op)) (i : ℕ) (backup : Option Policy) :
    J _ (restoreSourceCopyGrantPolicy i backup) :=
  hJ.bind (hop .assertLease trivial) fun _ => writePolicy_heeds hop _ _

theorem journalPreparationEffect_heeds (hJ : Composes J)
    (hop : ∀ op, op.HeedsStop → J _ (.perform op)) {checkpoint : Option (Service Unit)}
    (hcheckpoint : ∀ p ∈ checkpoint, J _ p) (i : ℕ) (name : EffectName)
    (payload : PreparationEffect) : J _ (journalPreparationEffect checkpoint i name payload) := by
  refine hJ.bind (hop .assertLease trivial) fun _ => hJ.bind ?_ fun _ =>
    hJ.bind (hop (.getItem i) trivial) fun item => ?_
  · cases checkpoint with
    | none => exact hJ.pure ()
    | some p => exact hcheckpoint p rfl
  · split
    · exact hJ.raise _
    · exact hJ.bind (hop (.setItem i _) trivial) fun _ => hop .commit trivial

theorem clearPreparationEffect_heeds (hJ : Composes J)
    (hop : ∀ op, op.HeedsStop → J _ (.perform op)) (i : ℕ) (name : EffectName) :
    J _ (clearPreparationEffect i name) :=
  hJ.bind (hop .assertLease trivial) fun _ => hJ.bind (hop (.setItem i _) trivial) fun _ =>
    hop .commit trivial

theorem temporarySourceCopyGrant_heeds (hJ : Composes J)
    (hop : ∀ op, op.HeedsStop → J _ (.perform op)) {checkpoint : Option (Service Unit)}
    (hcheckpoint : ∀ p ∈ checkpoint, J _ p) (i : ℕ) (sample : Bool) {α : Type} {body : Service α}
    (hbody : J _ body) : J _ (temporarySourceCopyGrant config checkpoint i sample body) := by
  refine hJ.bind (hop (.getPolicy _) trivial) fun backup =>
    hJ.bind (journalPreparationEffect_heeds hJ hop hcheckpoint i _ _) fun _ =>
      hJ.tryFinally ?_ (hJ.bind (restoreCheckedPolicy_heeds hJ hop _ _) fun _ =>
        clearPreparationEffect_heeds hJ hop i _)
  refine hJ.bind (hop (.getPolicy _) trivial) fun backup =>
    hJ.bind (hJ.bind (hop (.choose _) trivial) fun _ => hJ.pure _) fun candidates =>
      hJ.bind (hJ.when fun _ => hJ.raise _) fun _ => hJ.bind (hJ.findM fun candidate _ => ?_)
        fun principal => ?_
  · refine hJ.bind (hop .assertLease trivial) fun _ => hJ.bind (hop (.putPolicy _ _) trivial) fun _ => ?_
    split
    · exact hJ.bind (hop (.ask _) trivial) fun _ => hJ.pure _
    · exact hJ.pure _
  · split
    · exact hJ.bind (hJ.tryCatch (restoreSourceCopyGrantPolicy_heeds hJ hop i _) fun _ =>
        hJ.pure _) fun _ => hJ.raise _
    · exact hJ.tryFinally hbody (restoreSourceCopyGrantPolicy_heeds hJ hop i _)

theorem cleanupDestinationProbeBucket_heeds (hJ : Composes J)
    (hop : ∀ op, op.HeedsStop → J _ (.perform op)) (policyTested : Bool) :
    J _ (cleanupDestinationProbeBucket policyTested) := by
  refine hJ.bind (hop .assertLease trivial) fun _ =>
    hJ.bind (hop (.headBucket _) trivial) fun exists_ => ?_
  cases exists_ with
  | none => exact hJ.raise _
  | some exists_ =>
    refine hJ.bind (hJ.when fun _ => ?_) fun _ => hJ.bind (hop (.headBucket _) trivial) fun _ =>
      hJ.when fun _ => hJ.raise _
    exact hJ.bind (hJ.when fun _ => hop (.deletePolicy _) trivial) fun _ =>
      hop (.deleteBucket _) trivial

theorem recoverPreparationEffects_heeds (hJ : Composes J)
    (hop : ∀ op, op.HeedsStop → J _ (.perform op)) : J _ (recoverPreparationEffects config) := by
  refine hJ.forEach fun i _ => hJ.bind (hop (.getItem i) trivial) fun item =>
    hJ.forEach fun effect _ => hJ.bind (hop .assertLease trivial) fun _ => hJ.bind ?_ fun _ =>
      clearPreparationEffect_heeds hJ hop i _
  split
  · exact cleanupDestinationProbeBucket_heeds hJ hop _
  · exact restoreCheckedPolicy_heeds hJ hop _ _

theorem applyReadOnlyPolicy_heeds (hJ : Composes J) (hop : ∀ op, op.HeedsStop → J _ (.perform op))
    (i : ℕ) : J _ (applyReadOnlyPolicy config i) := by
  refine hJ.bind (hop .assertLease trivial) fun _ =>
    hJ.bind (hop (.getItem i) trivial) fun item => ?_
  split
  · exact hJ.bind (hop .assertLease trivial) fun _ => hJ.bind (hop (.getPolicy _) trivial) fun _ =>
      hop (.putPolicy _ _) trivial
  · exact hJ.bind (hop (.getPolicy _) trivial) fun _ => hJ.bind (hop (.setItem i _) trivial) fun _ =>
      hJ.bind (hop .commit trivial) fun _ => hop (.putPolicy _ _) trivial

theorem releaseSourceReadOnlyPolicies_heeds (hJ : Composes J)
    (hop : ∀ op, op.HeedsStop → J _ (.perform op)) : J _ (releaseSourceReadOnlyPolicies config) := by
  refine hJ.foldM fun errors i _ => hJ.bind (hop (.getItem i) trivial) fun item => ?_
  split
  · exact hJ.pure _
  · exact hJ.tryCatch (hJ.bind (hop .assertLease trivial) fun _ =>
      hJ.bind (restoreCheckedPolicy_heeds hJ hop _ _) fun _ =>
        hJ.bind (hJ.bind (hop (.getPolicy _) trivial) fun _ => hJ.when fun _ => hJ.raise _) fun _ =>
          hJ.bind (hop (.setItem i _) trivial) fun _ => hJ.pure _) fun _ => hJ.pure _

theorem deleteVerifiedSourceBucket_heeds (hJ : Composes J)
    (hop : ∀ op, op.HeedsStop → J _ (.perform op)) (i : ℕ) (receipt : Bool) {check : Service Unit}
    (hcheck : J _ check) : J _ (deleteVerifiedSourceBucket config i receipt check) := by
  have hoff : OffParts J := ⟨hJ, fun op h => hop op h.heedsStop⟩
  refine hJ.bind hcheck fun _ => hJ.bind (hop (.headBucket _) trivial) fun exists_ => ?_
  cases exists_ with
  | none => exact hJ.raise _
  | some exists_ =>
    refine hJ.bind (hJ.when fun _ => ?_) fun _ => hJ.bind (hop (.headBucket _) trivial) fun _ =>
      hJ.when fun _ => hJ.raise _
    refine hJ.bind (hop (.getItem i) trivial) fun item => hJ.bind (hJ.when fun _ => ?_) fun _ =>
      hJ.bind (hop (.putPolicy _ _) trivial) fun _ => hJ.bind hcheck fun _ =>
        deleteMaintenanceBucket_offParts hoff _ (hop (.deleteBucket _) trivial) hcheck
    exact hJ.bind (hop (.getPolicy _) trivial) fun _ => hJ.when fun _ => hJ.raise _

theorem finalizeVerifiedSourceCleanup_heeds (hJ : Composes J)
    (hop : ∀ op, op.HeedsStop → J _ (.perform op)) (i : ℕ) :
    J _ (finalizeVerifiedSourceCleanup i) :=
  hJ.bind (hop (.setItem i _) trivial) fun _ => hJ.bind (hop .commit trivial) fun _ =>
    hJ.bind (hop (.getItem i) trivial) fun _ =>
      hJ.bind (restoreCheckedPolicy_heeds hJ hop _ _) fun _ => hop (.setItem i _) trivial

/-- A program that assigns no status but `canceled` and `failed` heeds a stop request. -/
theorem workerParts_of_heeds (hJ : Composes J) (hop : ∀ op, op.HeedsStop → J _ (.perform op)) :
    WorkerParts hashing config J := by
  have hoff : OffParts J := ⟨hJ, fun op h => hop op h.heedsStop⟩
  have haccess := access_heeds hJ hop
  have hloop := hoff.loopParts haccess
  have hcheckpoint (workerId : String) : J _ (preparationCheckpoint workerId) :=
    preparationCheckpoint_offParts hoff haccess workerId
  refine ⟨hoff, haccess, ?sync, ?prepGrant, ?roundtrip, ?recover, ?runApplyReadOnly,
    ?cleanupSource⟩
  case sync =>
    intro i workerId leaseSeconds allowDelete
    have hparts : Parts config i J := ⟨hloop,
      fun _ _ hbody => temporarySourceCopyGrant_heeds hJ hop (by simp) i _ hbody,
      fun _ _ hbody => temporarySourceCopyGrant_heeds hJ hop (by simp) i _ hbody⟩
    exact syncBucket_parts hparts (controlCheck_parts hloop _ _) _
  case prepGrant =>
    intro workerId i call
    exact temporarySourceCopyGrant_heeds hJ hop (by simpa using hcheckpoint workerId) i _
      (hop (.remote call) trivial)
  case roundtrip =>
    intro workerId i
    exact hJ.bind (hop (.getPolicy _) trivial) fun _ =>
      hJ.bind (journalPreparationEffect_heeds hJ hop (by simpa using hcheckpoint workerId) i _ _)
        fun _ => hJ.tryFinally (hop (.putPolicy _ _) trivial)
          (hJ.bind (restoreCheckedPolicy_heeds hJ hop _ _) fun _ =>
            clearPreparationEffect_heeds hJ hop i _)
  case recover => exact recoverPreparationEffects_heeds hJ hop
  case runApplyReadOnly =>
    intro i
    exact hJ.bind (applyReadOnlyPolicy_heeds hJ hop i) fun _ =>
      hJ.bind (hop (.setItem i _) trivial) fun _ => hJ.bind (hop .commit trivial) fun _ => hJ.pure _
  case cleanupSource =>
    intro i workerId leaseSeconds
    have hcheck := maintenanceCheck_offParts hoff haccess workerId leaseSeconds
    exact cleanupVerifiedSource_offParts hoff i (applyReadOnlyPolicy_heeds hJ hop i)
      (fun receipt => deleteVerifiedSourceBucket_heeds hJ hop i receipt hcheck)
      (finalizeVerifiedSourceCleanup_heeds hJ hop i) hcheck

end Programs

/-! ## What a worker has seen -/

/-- The worker has just loaded the row, or only assigned other columns since. -/
def Refreshed (w : World) (s : Session) : Prop :=
  HeedsStop w s ∧ ∃ object ∈ s.migration, object.current.status = object.base.status

abbrev Heeding (α : Type) (p : Service α) : Prop := Keeps machine stopRules HeedsStop α p

abbrev stopWp {α : Type} (p : Service α) (onRet : α → World → Session → Prop) (w : World)
    (s : Session) : Prop :=
  wp machine stopRules p onRet (fun _ => HeedsStop) w s

theorem refreshed_stable : Stable stopRules Refreshed :=
  fun w w' s h hrely hinv => ⟨heedsStop_stable w w' s h.1 hrely hinv, h.2⟩

theorem heeding_perform (op : Op) (hop : op.HeedsStop) : Heeding _ (.perform op) :=
  keeps_perform heedsStop_stable fun _ _ h _ =>
    ⟨stopRules_require h, fun _ _ => ⟨trivial, heedsStop_exec _ hop _ h⟩⟩

theorem heeding_workerParts (hashing : Hashing) (config : Configuration) :
    WorkerParts hashing config Heeding :=
  workerParts_of_heeds (keeps_composes HeedsStop) heeding_perform

/-- An object that was loaded stays loaded, with the values it was loaded with. -/
theorem exec_keepsObjects {op : Op} (hop : op.keepsObjects = true) (choice : Choice) (w : World)
    {s : Session} {object : Loaded BucketMigration} (hobject : s.migration = some object) :
    ∃ current, (exec op choice w s).2.1.migration = some ⟨object.base, current⟩ ∧
      (op.OffSource → current.status = object.current.status) := by
  cases htouches : op.touchesMigration with
  | false => exact ⟨object.current, (exec_session_migration htouches).trans hobject, fun _ => rfl⟩
  | true =>
    cases op with
    | getMigration => exact ⟨object.current, by simp [exec, Session.loadedMigration, hobject], fun _ => rfl⟩
    | setMigration f =>
      refine ⟨f w.clock object.current, by simp [exec, Session.loadedMigration, hobject], fun h => ?_⟩
      exact h _ _
    | _ => first
      | exact (Bool.false_ne_true hop).elim
      | exact (Bool.false_ne_true htouches).elim

theorem loadedBeforeStop_exec (op : Op) (hop : op.keepsObjects = true) (choice : Choice) {w : World}
    {s : Session} (h : LoadedBeforeStop s) : LoadedBeforeStop (exec op choice w s).2.1 := by
  obtain ⟨object, hobject, hbase⟩ := h
  obtain ⟨current, hcurrent, -⟩ := exec_keepsObjects hop choice w hobject
  exact ⟨_, hcurrent, hbase⟩

theorem loadedBeforeStop_localParts :
    LocalParts (Keeps machine stopRules fun _ s => LoadedBeforeStop s) where
  composes := keeps_composes _
  off op _ hkeeps := keeps_perform loadedBeforeStop_stable fun _ _ h _ =>
    ⟨stopRules_require (.of_loaded h), fun _ _ => ⟨trivial, loadedBeforeStop_exec op hkeeps _ h⟩⟩

theorem loadedBeforeStop_setMigration (f : ℕ → BucketMigration → BucketMigration) :
    Keeps machine stopRules (fun _ s => LoadedBeforeStop s) _ (setMigration f) :=
  keeps_perform loadedBeforeStop_stable fun _ _ h _ =>
    ⟨stopRules_require (.of_loaded h), fun _ choice =>
      ⟨trivial, loadedBeforeStop_exec (.setMigration f) rfl choice h⟩⟩

theorem refreshed_localParts : LocalParts (Keeps machine stopRules Refreshed) where
  composes := keeps_composes _
  off op hoff hkeeps := keeps_perform refreshed_stable fun w s h _ => by
    refine ⟨stopRules_require h.1, fun _ choice => ⟨trivial, heedsStop_exec op hoff.heedsStop _ h.1, ?_⟩⟩
    obtain ⟨object, hobject, hstatus⟩ := h.2
    obtain ⟨current, hcurrent, hsame⟩ := exec_keepsObjects hkeeps choice w hobject
    exact ⟨_, hcurrent, (hsame hoff).trans hstatus⟩

/-- What keeps the loaded object may be followed by a commit. -/
theorem heeding_of_loaded {α : Type} {p : Service α}
    (h : Keeps machine stopRules (fun _ s => LoadedBeforeStop s) α p) {w : World} {s : Session}
    (hloaded : LoadedBeforeStop s) : stopWp p (fun _ => HeedsStop) w s :=
  wp_mono (h w s hloaded) (fun _ _ _ => .of_loaded) fun _ _ _ => .of_loaded

/-- The object of the migration is loaded. -/
def MigrationLoaded (w : World) (s : Session) : Prop := HeedsStop w s ∧ s.migration.isSome = true

theorem migrationLoaded_stable : Stable stopRules MigrationLoaded :=
  fun w w' s h hrely hinv => ⟨heedsStop_stable w w' s h.1 hrely hinv, h.2⟩

theorem getMigration_loads {w : World} {s : Session} (h : HeedsStop w s) :
    stopWp getMigration (fun _ => MigrationLoaded) w s :=
  wp_perform h heedsStop_stable fun _ _ h _ => ⟨stopRules_require h, fun _ choice =>
    ⟨trivial, heedsStop_exec .getMigration trivial choice h, rfl⟩⟩

/-- After the access check the object of the migration is loaded. -/
theorem access_loads {w : World} {s : Session} (h : HeedsStop w s) :
    stopWp assertMigrationCreatorAccess (fun _ => MigrationLoaded) w s := by
  refine wp_bind (wp_mono (getMigration_loads h) (fun _ w s h => ?_) fun _ _ _ h => h)
  refine wp_bind (wp_reading (fun _ _ _ => rfl) h migrationLoaded_stable
    (fun w s h => stopRules_require h.1) (fun choice w s h _ => ?_) fun _ _ _ h => h.1)
  cases choice.answer with
  | true => exact h
  | false =>
    -- the access was revoked: whatever is committed, the check raises
    have hJ := keeps_composes (M := machine) (R := stopRules) HeedsStop
    refine wp_bind (wp_mono (hJ.when (fun _ => ?_) w s h.1) (fun _ _ _ h => h) fun _ _ _ h => h)
    exact hJ.bind (heeding_perform (.setMigration _) fun _ _ => .inr fun _ => .inr (.inr rfl))
      fun _ => heeding_perform .commit trivial

theorem renewLease_expires {w : World} {s : Session} (h : HeedsStop w s) (leaseSeconds : ℕ) :
    stopWp (renewLease leaseSeconds) (fun _ _ s => s.migration = none) w s := by
  refine wp_perform h heedsStop_stable fun w s h _ => ⟨stopRules_require h, fun _ choice =>
    ⟨trivial, ?_⟩⟩
  have hnone : (machine.exec (.renewLease leaseSeconds) choice w s).2.1.migration = none :=
    (exec_expires (.renewLease leaseSeconds) (.inl rfl)).1
  cases (machine.exec (.renewLease leaseSeconds) choice w s).2.2 with
  | ok renewed => exact hnone
  | error e => exact .of_none hnone

/-- A pause is only reported to a worker whose object was loaded before any stop request. -/
theorem controlState_pause {w : World} {s : Session} (h : MigrationLoaded w s) (workerId : String)
    (leaseSeconds : ℕ) : stopWp (controlState workerId leaseSeconds)
      (fun state w s => HeedsStop w s ∧ (state = .pause → LoadedBeforeStop s)) w s := by
  refine wp_bind (wp_perform h migrationLoaded_stable fun w s h _ => ⟨stopRules_require h.1,
    fun _ choice => ⟨trivial, ?_⟩⟩)
  -- what the row says, the loaded object agrees with as far as a stop is concerned
  have hheeds : HeedsStop w (exec .controlRow choice w s).2.1 :=
    heedsStop_exec .controlRow trivial choice h.1
  have hpause : ControlState.ofStatus w.migration.status = .pause →
      LoadedBeforeStop (exec .controlRow choice w s).2.1 := by
    intro hstate
    obtain ⟨object, hobject⟩ := Option.isSome_iff_exists.mp h.2
    refine ⟨object, hobject, fun hbase => ?_⟩
    rw [(h.1 object hobject hbase).1] at hstate
    cases hstate
  show stopWp (if w.migration.workerLeaseOwner ≠ some workerId then _ else _) _ w _
  split
  · exact ⟨hheeds, fun hstate => by cases hstate⟩
  · split
    · refine wp_bind (wp_mono (renewLease_expires hheeds _) (fun renewed w s hnone => ?_)
        fun _ _ _ h => h)
      split
      · refine wp_bind (wp_perform hnone (fun _ _ _ h _ _ => h) fun w s hnone _ =>
          ⟨stopRules_require (.of_none hnone), fun _ choice => ⟨trivial, ?_⟩⟩)
        have hfresh : s.loadedMigration w = fresh w.migration := by
          simp [Session.loadedMigration, hnone]
        simp only [machine, exec, hfresh]
        refine ⟨.of_row rfl, fun hstate => ⟨_, rfl, fun hbase => ?_⟩⟩
        simp only [fresh] at hstate hbase
        rw [hbase] at hstate
        cases hstate
      · exact ⟨.of_none hnone, fun hstate => by cases hstate⟩
    · exact ⟨hheeds, hpause⟩

theorem controlCheck_pause {w : World} {s : Session} (h : HeedsStop w s) (workerId : String)
    (leaseSeconds : ℕ) : stopWp (controlCheck workerId leaseSeconds)
      (fun state w s => HeedsStop w s ∧ (state = .pause → LoadedBeforeStop s)) w s :=
  wp_bind (wp_mono (getMigration_loads h) (fun _ _ _ h =>
    wp_bind (wp_mono (access_loads h.1) (fun _ _ _ h => controlState_pause h workerId leaseSeconds)
      fun _ _ _ h => h)) fun _ _ _ h => h)

/-! ## The run of a worker -/

section Run

variable (hashing : Hashing) (config : Configuration) (workerId : String) (leaseSeconds : ℕ)

theorem heeding_commit : Heeding _ commit := heeding_perform .commit trivial

theorem heeding_publish {status : MigrationStatus} (h : KeepsStop .cancelRequested status) :
    Heeding _ (publishStatus status) :=
  heeding_perform (.setMigration _) fun _ _ => .inr h

include hashing

theorem heeding_markCanceled : Heeding _ (markCanceled config) :=
  have h := heeding_workerParts hashing config
  markCanceled_localParts h.toLocal (heeding_publish fun _ => .inr (.inl rfl))
    (releaseSourceReadOnlyPolicies_heeds h.composes heeding_perform)

omit hashing in
theorem markPaused_of_loaded {w : World} {s : Session} (h : LoadedBeforeStop s) :
    stopWp (markPaused config) (fun _ => HeedsStop) w s :=
  heeding_of_loaded (markPaused_localParts loadedBeforeStop_localParts
    (loadedBeforeStop_setMigration _)) h

/-- The worker ends its run for the reason the control check gave. -/
theorem stopForControlState_heeds {state : ControlState} {w : World} {s : Session}
    (h : HeedsStop w s) (hpause : state = .pause → LoadedBeforeStop s) :
    stopWp (stopForControlState config state) (fun _ => HeedsStop) w s := by
  have hJ := keeps_composes (M := machine) (R := stopRules) HeedsStop
  cases state with
  | lostLease => exact h
  | cancel =>
    exact hJ.bind (heeding_markCanceled hashing config) (fun _ =>
      hJ.bind heeding_commit fun _ => hJ.pure _) w s h
  | pause =>
    exact wp_bind (wp_mono (markPaused_of_loaded config (hpause rfl))
      (fun _ w s h => hJ.bind heeding_commit (fun _ => hJ.pure _) w s h) fun _ _ _ h => h)
  | run => exact h

theorem finalizeOrWaitCutover_heeds {w : World} {s : Session} (h : Refreshed w s) :
    stopWp (finalizeOrWaitCutover config) (fun _ => HeedsStop) w s := by
  refine wp_bind (wp_mono (recomputeCounters_localParts refreshed_localParts w s h)
    (fun _ w s h => ?_) fun _ _ _ h => h.1)
  refine wp_bind (wp_perform h refreshed_stable fun w s h _ => ⟨stopRules_require h.1,
    fun _ choice => ⟨trivial, ?_⟩⟩)
  obtain ⟨hheeds, object, hobject, hstatus⟩ := h
  have hloaded : s.loadedMigration w = object := by
    simp [Session.loadedMigration, Option.mem_def.mp hobject]
  simp only [machine, exec, hloaded]
  split
  · exact heeding_markCanceled hashing config w _
      (fun other hother => hheeds other (hobject.trans hother))
  · rename_i hcancel
    have hbefore : LoadedBeforeStop { s with migration := some object } :=
      ⟨object, rfl, fun hbase => hcancel (hstatus.trans hbase)⟩
    have hset := loadedBeforeStop_setMigration
    have hlocal := loadedBeforeStop_localParts
    split
    · exact markPaused_of_loaded config hbefore
    · split
      · exact heeding_of_loaded (hset _) hbefore
      · refine heeding_of_loaded (hlocal.composes.bind
          (hasPendingMigrationItems_localParts hlocal) fun pending => ?_) hbefore
        split
        · exact hset _
        · exact markMigrationFinished_localParts hlocal hset

omit hashing in
theorem refreshMigration_refreshes {w : World} {s : Session} (h : HeedsStop w s) :
    stopWp refreshMigration (fun _ => Refreshed) w s :=
  wp_perform h heedsStop_stable fun _ _ h _ => ⟨stopRules_require h, fun _ _ =>
    ⟨trivial, .of_row rfl, _, rfl, rfl⟩⟩

theorem finishMigrationRun_heeds :
    Heeding _ (finishMigrationRun config workerId (controlCheck workerId leaseSeconds)) := by
  have hparts := heeding_workerParts hashing config
  have hJ := hparts.composes
  intro w s h
  refine hJ.bind hparts.refreshMigration (fun _ => hJ.bind hparts.assertLease fun _ => ?_) w s h
  intro w s h
  refine wp_bind (wp_mono (controlCheck_pause h workerId leaseSeconds) (fun state w s h => ?_)
    fun _ _ _ h => h)
  refine wp_bind (wp_mono (stopForControlState_heeds hashing config h.1 h.2)
    (fun stopped w s h => ?_) fun _ _ _ h => h)
  split
  · exact h
  · refine wp_bind (wp_mono (refreshMigration_refreshes h) (fun _ w s h => ?_) fun _ _ _ h => h)
    refine wp_bind (wp_mono (refreshed_localParts.assertLease w s h) (fun _ w s h => ?_)
      fun _ _ _ h => h.1)
    refine wp_bind (wp_mono (finalizeOrWaitCutover_heeds hashing config h) (fun _ w s h => ?_)
      fun _ _ _ h => h)
    exact hJ.bind hparts.getMigration (fun migration => hJ.bind (hJ.when fun _ =>
      hJ.bind (clearOwnedWorkerLease_offParts hparts.toOffParts workerId) fun _ => hJ.pure _) fun _ =>
        hparts.commit) w s h

theorem runMigrationItem_heeds (i : ℕ) :
    Heeding _ (runMigrationItem config workerId (controlCheck workerId leaseSeconds) i) := by
  have hparts := heeding_workerParts hashing config
  have hJ := hparts.composes
  intro w s h
  refine hJ.bind hparts.refreshMigration (fun _ => hJ.bind hparts.access fun _ => ?_) w s h
  intro w s h
  refine wp_bind (wp_mono (controlCheck_pause h workerId leaseSeconds) (fun state w s h => ?_)
    fun _ _ _ h => h)
  refine wp_bind (wp_mono (stopForControlState_heeds hashing config h.1 h.2)
    (fun stopped w s h => ?_) fun _ _ _ h => h)
  split
  · exact h
  · refine hJ.bind (hparts.getItem i) (fun item => hJ.bind hparts.getMigration fun migration => ?_)
      w s h
    split
    · exact hJ.pure _
    · split
      · exact hJ.bind (clearOwnedWorkerLease_offParts hparts.toOffParts workerId) fun _ =>
          hJ.bind (hJ.when fun _ => hparts.commit) fun _ => hJ.pure _
      · exact hJ.bind (executeMigrationItem_workerParts hparts i _ _) fun _ => hJ.pure _

/-- Everything a worker does heeds an accepted stop. -/
theorem processMigration_heeds :
    Heeding _ (processMigration config workerId leaseSeconds hashing) := by
  have hparts := heeding_workerParts hashing config
  have hJ := hparts.composes
  refine hJ.tryCatch ?_ fun _ => failMigrationFatal_offParts hparts.toOffParts
    (heeding_publish fun _ => .inr (.inr rfl)) workerId
  refine hJ.bind hparts.getMigration fun migration => hJ.bind hparts.assertLease fun _ =>
    hJ.bind hparts.access fun _ => ?_
  split
  · exact runMaintenance_workerParts hparts (restoreMigrationAccess_workerParts hparts
      (releaseSourceReadOnlyPolicies_heeds hJ heeding_perform)) _ _
  · split
    · exact hJ.pure _
    · refine hJ.bind (prepareMigrationRun_offParts hparts.toOffParts _ _) fun prepared =>
        hJ.when fun _ => hJ.bind (hparts.remote _) fun _ => hJ.bind
          (hJ.findM fun i _ => runMigrationItem_heeds hashing config workerId leaseSeconds i)
            fun ended => ?_
      cases ended with
      | some _ => exact hJ.pure _
      | none => exact finishMigrationRun_heeds hashing config workerId leaseSeconds

end Run

/-! ## Runs -/

/-- No command takes an accepted stop back. -/
theorem command_keepsStop {w w' : World} {command : Command} (h : w.command command = some w')
    (hstop : w.migration.status = .cancelRequested) : w'.migration.status = .cancelRequested := by
  have hbusy : w.facts.busy = true := by
    simp [World.facts, WorkflowFacts.fromMigration, hstop, MigrationStatus.active]
  simp only [World.command, Option.ite_none_right_eq_some, Option.some.injEq, Bool.and_eq_true] at h
  obtain ⟨⟨henabled, -⟩, rfl⟩ := h
  cases command with
  | stopMigration => rfl
  | requestMaintenance operation =>
    cases operation <;>
      simp [Command.action, World.enabled, WorkflowFacts.idle, hbusy] at henabled
  | _ => simp [Command.action, World.enabled, WorkflowFacts.idle, hbusy, hstop] at henabled

theorem applyEvent_keepsStop {w w' : World} {e : Event} (h : w.applyEvent e = some w')
    (hstop : w.migration.status = .cancelRequested) : w'.migration.status = .cancelRequested := by
  cases e with
  | tick =>
    cases h
    exact hstop
  | command command => exact command_keepsStop h hstop
  | heartbeat workerId leaseSeconds =>
    simp only [World.applyEvent, Option.ite_none_right_eq_some, Option.some.injEq] at h
    obtain ⟨-, rfl⟩ := h
    exact hstop

theorem startJob_keepsStatus {hashing : Hashing} {w w' : World} {job : Job} {session : Session}
    {prog : Service Unit} (h : w.startJob hashing job = some (w', session, prog)) :
    w'.migration.status = w.migration.status := by
  cases job with
  | transfer workerId leaseSeconds =>
    simp only [World.startJob, Option.ite_none_right_eq_some, Option.some.injEq, Prod.mk.injEq] at h
    rw [← h.2.1]
    rfl
  | preparation workerId leaseSeconds =>
    simp only [World.startJob, Option.ite_none_right_eq_some, Option.some.injEq, Prod.mk.injEq] at h
    rw [← h.2.1]
    rfl

theorem sound_stopRules (hashing : Hashing) :
    Sound (system hashing) stopRules fun st label => StopFenced st label = true := by
  refine sound_of_fenced (fun op w s h hcommits => by simpa [hcommits] using h)
    (fun _ _ h => ⟨applyEvent_keepsStop h, trivial⟩) ?_
  intro w job w' session prog _ h
  refine ⟨fun hstop => (startJob_keepsStatus h).trans hstop, trivial, ?_⟩
  have hsafe {p : Service Unit} (hp : Heeding _ p) (workerId : String) :
      Safe (system hashing) stopRules ⟨{ me := workerId }, p⟩ w' :=
    wp_mono (hp w' _ (.of_none rfl)) (fun _ _ _ _ => trivial) fun _ _ _ _ => trivial
  cases job with
  | transfer workerId leaseSeconds =>
    simp only [World.startJob, Option.ite_none_right_eq_some, Option.some.injEq, Prod.mk.injEq] at h
    obtain ⟨-, -, rfl, rfl⟩ := h
    exact hsafe (processMigration_heeds hashing _ _ _) _
  | preparation workerId leaseSeconds =>
    simp only [World.startJob, Option.ite_none_right_eq_some, Option.some.injEq, Prod.mk.injEq] at h
    obtain ⟨-, -, rfl, rfl⟩ := h
    exact hsafe (processPreparation_workerParts (heeding_workerParts hashing _) _) _

/-! ## A run -/

/-- One bucket, copied at once and without a write lock. -/
def singleBucket : Configuration where
  mode := .oneShot
  lockTargetWrites := false
  itemIds := [0]
  sourceBucket _ := "photos"
  targetBucket _ := "photos-copy"

def plainHashing : Hashing := ⟨id, id, fun _ => ""⟩

/-- The draft of `singleBucket` passes its active checks, is started and claimed. -/
def preparedAndClaimed : List SystemLabel :=
  List.flatten [[.event (.command (.requestPrecheck true)), .start (.preparation "w1" 60)],
    advances 74, [.stop 0, .event (.command .startMigration), .start (.transfer "w1" 60)]]

/-- After an accepted stop the next different status is `canceled` or `failed`, in every run of one
worker at a time in which no stop slips in between a worker's decision and its commit. -/
theorem stop_not_lost (hashing : Hashing) {world : World} {st st' : SystemState}
    {label : SystemLabel}
    (hreach : Reachable (system hashing) (fun st label => StopFenced st label = true) world st)
    (hfenced : StopFenced st label = true) (hnext : (system hashing).next st label = some st') :
    KeepsStop st.world.migration.status st'.world.migration.status := by
  have hsafe := SafeState.of_reachable (sound_stopRules hashing) trivial hreach
  cases label with
  | event e =>
    simp only [System.next, Option.map_eq_some_iff] at hnext
    obtain ⟨world, hworld, rfl⟩ := hnext
    exact fun hstop => .inl (applyEvent_keepsStop hworld hstop)
  | start job =>
    simp only [System.next, Option.map_eq_some_iff] at hnext
    obtain ⟨⟨world, session, prog⟩, hstart, rfl⟩ := hnext
    exact fun hstop => .inl ((startJob_keepsStatus hstart).trans hstop)
  | advance i choice =>
    simp only [System.next] at hnext
    split at hnext
    · rename_i session op next hthread
      cases hnext
      have hmem := List.mem_of_getElem? hthread
      refine (hsafe.safe _ hmem).require trivial rfl (fun hcommits => ?_) choice
      simpa [hcommits] using Fenced.acting hfenced hthread rfl
    · cases hnext
  | stop i =>
    simp only [System.next, Option.ite_none_right_eq_some, Option.some.injEq] at hnext
    obtain ⟨-, rfl⟩ := hnext
    exact .refl _

/-- A stop that is accepted while the worker resolves the contexts ends in `canceled`. -/
def stopBeforeFirstItem : List SystemLabel :=
  List.flatten [preparedAndClaimed, advances 11, [.event (.command .stopMigration)], advances 15]

theorem stop_not_lost_canceled : ∃ st st' : SystemState,
    st.world.migration.status = .cancelRequested ∧ st'.world.migration.status = .canceled ∧
      KeepsStop st.world.migration.status st'.world.migration.status := by
  have hrun : ((system plainHashing).run StopFenced ⟨.created singleBucket fun _ => none, []⟩
      stopBeforeFirstItem).any (fun st => st.world.migration.status = .cancelRequested &&
        StopFenced st (.advance 0 {}) && ((system plainHashing).next st (.advance 0 {})).any fun st' =>
          st'.world.migration.status = .canceled) = true := by
    decide +kernel
  obtain ⟨st, hst, h⟩ := (Option.any_eq_true _ _).mp hrun
  simp only [Bool.and_eq_true, decide_eq_true_eq] at h
  obtain ⟨⟨hstop, hfenced⟩, hnext⟩ := h
  obtain ⟨st', hst', hcanceled⟩ := (Option.any_eq_true _ _).mp hnext
  exact ⟨st, st', hstop, decide_eq_true_eq.mp hcanceled,
    stop_not_lost plainHashing (Reachable.init.run hst) hfenced hst'⟩

/-- The worker finds the source unreadable, so that its only item fails, and ends its run; the stop
is accepted before the last commit. -/
def stopBeforeLastCommit : List SystemLabel :=
  List.flatten [preparedAndClaimed, advances 25, [.advance 0 { answer := false }], advances 24,
    [.event (.command .stopMigration)]]

/-- Without that condition the last commit of a run overwrites an accepted stop. -/
theorem stop_lost : ¬ ∀ (hashing : Hashing) (world : World) (st st' : SystemState)
    (label : SystemLabel), Initial world →
      Reachable (system hashing) (fun st label => Alone st label = true) world st →
        Alone st label = true → (system hashing).next st label = some st' →
          KeepsStop st.world.migration.status st'.world.migration.status := by
  intro hclaim
  have hrun : ((system plainHashing).run Alone ⟨.created singleBucket fun _ => none, []⟩
      stopBeforeLastCommit).any (fun st => st.world.migration.status = .cancelRequested &&
        Alone st (.advance 0 {}) && ((system plainHashing).next st (.advance 0 {})).any fun st' =>
          st'.world.migration.status = .completedWithErrors) = true := by
    decide +kernel
  obtain ⟨st, hst, h⟩ := (Option.any_eq_true _ _).mp hrun
  simp only [Bool.and_eq_true, decide_eq_true_eq] at h
  obtain ⟨⟨hstop, halone⟩, hnext⟩ := h
  obtain ⟨st', hst', hstatus⟩ := (Option.any_eq_true _ _).mp hnext
  have hkept := hclaim plainHashing _ st st' _ (initial_created singleBucket fun _ => none)
    (Reachable.init.run hst) halone hst' hstop
  rw [decide_eq_true_eq.mp hstatus] at hkept
  simp at hkept

end Migration
end BucketReef

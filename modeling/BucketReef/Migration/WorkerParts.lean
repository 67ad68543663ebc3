import BucketReef.Migration.Parts

/-!
# The parts of a whole run

A property that composes holds of everything a worker does once it holds of the operations that stay
off the sources, and of the few programs that do not: the ones that record, change and restore the
policy of a source.
-/

namespace BucketReef
namespace Migration

open Effects Service Prog

/-- What the migration has recorded about the policy of the source. -/
structure SourceRecords where
  readOnlyApplied : Bool
  sourcePolicyBackup : Option Policy
  effects : List (EffectName × PreparationEffect)
  deriving DecidableEq

def BucketMigrationItem.sourceRecords (item : BucketMigrationItem) : SourceRecords :=
  ⟨item.readOnlyApplied, item.sourcePolicyBackup,
    item.preparationEffects.filter fun effect => effect.1 ≠ .probeBucket⟩

/-- The status of the migration, the records about sources and their policies stay as they are. -/
def Op.OffSource : Op → Prop
  | .setMigration f => ∀ now row, (f now row).status = row.status
  | .setItem _ f => ∀ now row, (f now row).sourceRecords = row.sourceRecords
  | .putPolicy b _ | .deletePolicy b | .createBucket b | .deleteBucket b => ∀ i, b ≠ .source i
  | _ => True

/-- The session keeps the objects it has loaded. -/
def Op.keepsObjects : Op → Bool
  | .refreshMigration | .commit | .rollback | .newSession | .renewLease _ | .markRunning => false
  | _ => true

/-- A property that composes and holds of the operations off the sources that keep the session. -/
structure LocalParts (J : (α : Type) → Service α → Prop) : Prop where
  composes : Composes J
  off : ∀ op, op.OffSource → op.keepsObjects = true → J _ (.perform op)

/-- A property that composes and holds of the operations that stay off the sources. -/
structure OffParts (J : (α : Type) → Service α → Prop) : Prop where
  composes : Composes J
  off : ∀ op, op.OffSource → J _ (.perform op)

/-- A property that composes and holds of what a run is made of. -/
structure WorkerParts (hashing : Hashing) (config : Configuration)
    (J : (α : Type) → Service α → Prop) : Prop extends OffParts J where
  access : J _ assertMigrationCreatorAccess
  sync : ∀ i workerId leaseSeconds allowDelete,
    J _ (syncBucket config i (controlCheck workerId leaseSeconds) allowDelete)
  prepGrant : ∀ workerId i call, J _
    (temporarySourceCopyGrant config (some (preparationCheckpoint workerId)) i true (remote call))
  roundtrip : ∀ workerId i,
    J _ (precheckPolicyRoundtrip config (some (preparationCheckpoint workerId)) i)
  recover : J _ (recoverPreparationEffects config)
  runApplyReadOnly : ∀ i, J _ (runApplyReadOnly config i)
  cleanupSource : ∀ i workerId leaseSeconds,
    J _ (cleanupVerifiedSource hashing config i (maintenanceCheck workerId leaseSeconds))

theorem Op.Plain.offSource {op : Op} (h : op.Plain) : op.OffSource := by
  cases op with
  | setMigration f => exact fun now row => (h now row).1
  | setItem i f =>
    intro now row
    have hjournal := (h now row).1
    simp only [BucketMigrationItem.journal, BucketMigrationItem.Journal.mk.injEq] at hjournal
    simp only [BucketMigrationItem.sourceRecords, hjournal]
  | putPolicy b policy => exact h.elim
  | deletePolicy b => exact h.elim
  | createBucket b => exact h.elim
  | deleteBucket b => exact h.elim
  | _ => trivial

theorem OffParts.toLocal {J : (α : Type) → Service α → Prop} (h : OffParts J) : LocalParts J :=
  ⟨h.composes, fun op hop _ => h.off op hop⟩

namespace LocalParts

variable {J : (α : Type) → Service α → Prop}

theorem getMigration (h : LocalParts J) : J _ Service.getMigration := h.off .getMigration trivial rfl

theorem getItem (h : LocalParts J) (i : ℕ) : J _ (Service.getItem i) := h.off (.getItem i) trivial rfl

theorem assertLease (h : LocalParts J) : J _ assertWorkflowLease := h.off .assertLease trivial rfl

theorem getPolicy (h : LocalParts J) (b : BucketRef) : J _ (Service.getPolicy b) :=
  h.off (.getPolicy b) trivial rfl

theorem setMigration (h : LocalParts J) {f : ℕ → BucketMigration → BucketMigration}
    (hf : (Op.setMigration f).OffSource) : J _ (Service.setMigration f) := h.off _ hf rfl

theorem setItem (h : LocalParts J) {i : ℕ}
    {f : ℕ → BucketMigrationItem → BucketMigrationItem} (hf : (Op.setItem i f).OffSource) :
    J _ (Service.setItem i f) := h.off _ hf rfl

theorem fail (h : LocalParts J) {α : Type} (message : String) : J α (Service.fail message) :=
  h.composes.raise _

end LocalParts

namespace OffParts

variable {J : (α : Type) → Service α → Prop}

theorem getMigration (h : OffParts J) : J _ Service.getMigration :=
  h.off .getMigration trivial

theorem refreshMigration (h : OffParts J) : J _ Service.refreshMigration :=
  h.off .refreshMigration trivial

theorem getItem (h : OffParts J) (i : ℕ) : J _ (Service.getItem i) :=
  h.off (.getItem i) trivial

theorem commit (h : OffParts J) : J _ Service.commit := h.off .commit trivial

theorem rollback (h : OffParts J) : J _ Service.rollback := h.off .rollback trivial

theorem assertLease (h : OffParts J) : J _ assertWorkflowLease :=
  h.off .assertLease trivial

theorem ask (h : OffParts J) (question : String) : J _ (Service.ask question) :=
  h.off (.ask question) trivial

theorem choose (h : OffParts J) (what : String) : J _ (Service.choose what) :=
  h.off (.choose what) trivial

theorem remote (h : OffParts J) (call : String) : J _ (Service.remote call) :=
  h.off (.remote call) trivial

theorem headBucket (h : OffParts J) (b : BucketRef) : J _ (Service.headBucket b) :=
  h.off (.headBucket b) trivial

theorem getPolicy (h : OffParts J) (b : BucketRef) : J _ (Service.getPolicy b) :=
  h.off (.getPolicy b) trivial

theorem setMigration (h : OffParts J) {f : ℕ → BucketMigration → BucketMigration}
    (hf : (Op.setMigration f).OffSource) : J _ (Service.setMigration f) := h.off _ hf

theorem setItem (h : OffParts J) {i : ℕ}
    {f : ℕ → BucketMigrationItem → BucketMigrationItem} (hf : (Op.setItem i f).OffSource) :
    J _ (Service.setItem i f) := h.off _ hf

theorem fail (h : OffParts J) {α : Type} (message : String) :
    J α (Service.fail message) := h.composes.raise _

end OffParts

theorem OffParts.loopParts {J : (α : Type) → Service α → Prop} (h : OffParts J)
    (haccess : J _ assertMigrationCreatorAccess) : LoopParts J where
  composes := h.composes
  plain op hop := h.off op hop.offSource
  access := haccess

theorem WorkerParts.loopParts {hashing : Hashing} {config : Configuration}
    {J : (α : Type) → Service α → Prop} (h : WorkerParts hashing config J) : LoopParts J :=
  h.toOffParts.loopParts h.access

section Run

variable {hashing : Hashing} {config : Configuration} {J : (α : Type) → Service α → Prop}
variable {check : Service ControlState} {checkpoint : Service Unit}

/-! ## Buckets off the sources -/

theorem writePolicy_localParts (h : LocalParts J) {b : BucketRef}
    (hb : ∀ i, b ≠ .source i) (policy : Option Policy) : J _ (writePolicy b policy) := by
  cases policy with
  | none => exact h.off (.deletePolicy b) hb rfl
  | some policy => exact h.off (.putPolicy b policy) hb rfl

theorem applyTargetWriteLockPolicy_offParts (h : OffParts J) (i : ℕ) :
    J _ (applyTargetWriteLockPolicy config i) := by
  refine h.composes.bind h.assertLease fun _ => h.composes.bind (h.getItem i) fun item => ?_
  split
  · exact h.composes.pure _
  · refine h.composes.bind (h.getPolicy _) fun existing =>
      h.composes.bind (h.setItem ?_) fun _ => h.composes.bind h.commit fun _ =>
        h.off (.putPolicy (.target i) _) (by simp [Op.OffSource])
    intro now row
    rfl

theorem verifyRestoredBucketPolicy_localParts (h : LocalParts J) (b : BucketRef)
    (expected : Option Policy) : J _ (verifyRestoredBucketPolicy b expected) :=
  h.composes.bind (h.getPolicy b) fun _ => h.composes.when fun _ => h.fail _

theorem liftTargetWriteLock_localParts (h : LocalParts J) (i : ℕ) :
    J _ (liftTargetWriteLock i) := by
  refine h.composes.bind (h.getItem i) fun item => h.composes.bind ?_ fun _ =>
    verifyRestoredBucketPolicy_localParts h _ _
  split
  · exact h.composes.bind h.assertLease fun _ => h.composes.bind (h.getItem i) fun item =>
      writePolicy_localParts h (by simp) _
  · exact h.composes.bind (h.getPolicy _) fun existing => writePolicy_localParts h (by simp) _

theorem releaseTargetWriteLocks_localParts (h : LocalParts J)
    (preserveAwaiting : Bool) : J _ (releaseTargetWriteLocks config preserveAwaiting) := by
  refine h.composes.foldM fun errors i _ => h.composes.bind (h.getItem i) fun item => ?_
  split
  · exact h.composes.pure _
  · split
    · exact h.composes.pure _
    · refine h.composes.tryCatch (h.composes.bind h.assertLease fun _ =>
        h.composes.bind (liftTargetWriteLock_localParts h i) fun _ =>
          h.composes.bind (h.setItem ?_) fun _ => h.composes.pure _) fun _ => h.composes.pure _
      intro now row
      rfl

/-! ## Ends of a run -/

theorem itemStatuses_localParts (h : LocalParts J) : J _ (itemStatuses config) :=
  h.composes.foldM fun _ i _ => h.composes.bind (h.getItem i) fun _ => h.composes.pure _

theorem recomputeCounters_localParts (h : LocalParts J) : J _ (recomputeCounters config) :=
  h.composes.bind (itemStatuses_localParts h) fun _ => h.setMigration fun _ _ => rfl

theorem moveItems_localParts (h : LocalParts J) (from_ : ItemStatus → Bool) (to_ : ItemStatus) :
    J _ (moveItems config from_ to_) :=
  h.composes.forEach fun i _ => h.composes.bind (h.getItem i) fun _ =>
    h.composes.when fun _ => h.setItem fun _ _ => rfl

theorem markPaused_localParts (h : LocalParts J) (hpublish : J _ (publishStatus .paused)) :
    J _ (markPaused config) :=
  h.composes.bind hpublish fun _ => h.composes.bind (moveItems_localParts h _ _) fun _ =>
    recomputeCounters_localParts h

theorem markCanceled_localParts (h : LocalParts J) (hpublish : J _ (publishStatus .canceled))
    (hrelease : J _ (releaseSourceReadOnlyPolicies config)) : J _ (markCanceled config) :=
  h.composes.bind hpublish fun _ => h.composes.bind (moveItems_localParts h _ _) fun _ =>
    h.composes.bind hrelease fun _ =>
      h.composes.bind (releaseTargetWriteLocks_localParts h _) fun _ =>
        recomputeCounters_localParts h

theorem markMigrationFinished_localParts (h : LocalParts J)
    (hset : ∀ f, J _ (Service.setMigration f)) : J _ (markMigrationFinished config) :=
  h.composes.bind h.getMigration fun _ => h.composes.bind (hset _) fun _ =>
    h.composes.bind (releaseTargetWriteLocks_localParts h _) fun _ =>
      h.composes.bind h.getMigration fun _ => h.composes.when fun _ => hset _

theorem hasPendingMigrationItems_localParts (h : LocalParts J) :
    J _ (hasPendingMigrationItems config) :=
  h.composes.bind (itemStatuses_localParts h) fun _ => h.composes.pure _

/-! ## The item loop -/

theorem copyPolicy_workerParts (h : WorkerParts hashing config J) (i : ℕ) {b : BucketRef}
    (hb : ∀ i, b ≠ .source i) : J _ (copyPolicy i b) := by
  refine h.composes.bind (h.getPolicy _) fun policy => ?_
  cases b with
  | target j => exact h.off (.installPolicy j (truthy policy)) trivial
  | source j => exact absurd rfl (hb j)
  | probe => exact writePolicy_localParts h.toLocal (by simp) _

theorem copyBucketSettings_workerParts (h : WorkerParts hashing config J) (i : ℕ) {b : BucketRef}
    (hb : ∀ i, b ≠ .source i) : J _ (copyBucketSettings i b) := by
  refine h.composes.bind (h.composes.foldM fun failures operation hoperation => ?_) fun failures =>
    h.composes.when fun _ => h.fail _
  refine h.composes.bind h.assertLease fun _ =>
    h.composes.bind (h.composes.attempt ?_) fun _ => h.composes.pure _
  simp only [settingCopyOperations, List.mem_cons, List.not_mem_nil, or_false] at hoperation
  rcases hoperation with rfl | rfl | rfl | rfl | rfl | rfl | rfl | rfl | rfl
  case inr.inr.inr.inr.inr.inr.inl => exact copyPolicy_workerParts h i hb
  all_goals exact h.remote _

theorem setStep_workerParts (h : WorkerParts hashing config J) (i : ℕ) (step : ItemStep) :
    J _ (setStep i step) := h.setItem fun _ _ => rfl

theorem setItemStatus_workerParts (h : WorkerParts hashing config J) (i : ℕ) (status : ItemStatus) :
    J _ (setItemStatus i status) := h.setItem fun _ _ => rfl

theorem runCreateBucketStep_workerParts (h : WorkerParts hashing config J) (i : ℕ) :
    J _ (runCreateBucketStep config i) := by
  refine h.composes.bind (h.composes.when fun _ => h.remote _) fun _ =>
    h.composes.bind (h.headBucket _) fun exists_ => h.composes.bind (h.getItem i) fun item => ?_
  cases exists_ with
  | none => exact h.fail _
  | some exists_ =>
    dsimp only
    split
    · exact h.fail _
    · refine h.composes.bind (h.composes.when fun _ => ?_) fun _ =>
        h.composes.bind (h.getItem i) fun item =>
          h.composes.bind (setStep_workerParts h i _) fun _ =>
            h.composes.bind h.commit fun _ => h.composes.pure _
      exact h.composes.bind (h.off (.createBucket (.target i)) (by simp [Op.OffSource])) fun _ =>
        h.composes.bind (h.setItem fun _ _ => rfl) fun _ => h.commit

theorem runCopyBucketSettings_workerParts (h : WorkerParts hashing config J) (i : ℕ) :
    J _ (runCopyBucketSettings config i) :=
  h.composes.bind (copyBucketSettings_workerParts h i (by simp)) fun _ =>
    h.composes.bind (h.getItem i) fun item => h.composes.bind (setStep_workerParts h i _) fun _ =>
      h.composes.bind h.commit fun _ => h.composes.pure _

theorem abandonTargetLock_workerParts (h : WorkerParts hashing config J) (i : ℕ) :
    J _ (abandonTargetLock i) := by
  refine h.composes.bind (h.composes.attempt (liftTargetWriteLock_localParts h.toLocal i)) fun lifted => ?_
  cases lifted with
  | error e => exact h.composes.pure _
  | ok _ => exact h.composes.bind (h.setItem fun _ _ => rfl) fun _ => h.commit

theorem runApplyTargetLockStep_workerParts (h : WorkerParts hashing config J) (i : ℕ) :
    J _ (runApplyTargetLockStep config i) := by
  refine h.composes.bind (h.composes.attempt
    (h.composes.bind (applyTargetWriteLockPolicy_offParts h.toOffParts i) fun _ =>
      h.setItem fun _ _ => rfl)) fun applied => ?_
  cases applied with
  | error e => exact h.composes.bind (abandonTargetLock_workerParts h i) fun _ => h.fail _
  | ok _ =>
    exact h.composes.bind (h.getItem i) fun item =>
      h.composes.bind (setStep_workerParts h i _) fun _ =>
        h.composes.bind h.commit fun _ => h.composes.pure _

theorem stopInterruptedItem_workerParts (h : WorkerParts hashing config J) (i : ℕ)
    (hcheck : J _ check) : J _ (stopInterruptedItem i check) :=
  h.composes.bind (checkControlState_parts h.loopParts hcheck) fun _ =>
    h.composes.bind (setItemStatus_workerParts h i _) fun _ => h.commit

theorem runPreSync_workerParts (h : WorkerParts hashing config J) (i : ℕ) (workerId : String) (leaseSeconds : ℕ) :
    J _ (runPreSync config i (controlCheck workerId leaseSeconds)) := by
  refine h.composes.bind (h.sync i workerId leaseSeconds _) fun synced => ?_
  split
  · exact h.composes.bind (stopInterruptedItem_workerParts h i (controlCheck_parts h.loopParts _ _)) fun _ => h.composes.pure _
  · exact h.composes.bind (h.setItem fun _ _ => rfl) fun _ =>
      h.composes.bind h.commit fun _ => h.composes.pure _

theorem runSync_workerParts (h : WorkerParts hashing config J) (i : ℕ) (workerId : String) (leaseSeconds : ℕ) :
    J _ (runSync config i (controlCheck workerId leaseSeconds)) := by
  refine h.composes.bind (h.sync i workerId leaseSeconds _) fun synced => ?_
  split
  · exact h.composes.bind (stopInterruptedItem_workerParts h i (controlCheck_parts h.loopParts _ _)) fun _ => h.composes.pure _
  · exact h.composes.bind (setStep_workerParts h i _) fun _ =>
      h.composes.bind h.commit fun _ => h.composes.pure _

theorem failItem_workerParts (h : WorkerParts hashing config J) (i : ℕ) : J _ (failItem i) :=
  h.composes.bind (setItemStatus_workerParts h i _) fun _ => h.commit

theorem completeItem_workerParts (h : WorkerParts hashing config J) (i : ℕ) :
    J _ (completeItemAfterVerification i) := by
  refine h.composes.bind ?_ fun _ => h.composes.bind (h.setItem fun _ _ => rfl) fun _ => h.commit
  exact h.composes.bind (h.ask _) fun _ => h.composes.bind (h.getItem i) fun item =>
    h.composes.when fun _ => h.composes.bind (h.remote _) fun _ => h.setItem fun _ _ => rfl

theorem verifyStrongIntegrity_workerParts (h : WorkerParts hashing config J) (i : ℕ)
    (hcheck : J _ check) : J _ (verifyStrongIntegrity i check) := by
  refine h.composes.bind (strongVerification_parts h.loopParts hcheck) fun verified => ?_
  cases verified with
  | none =>
    exact h.composes.bind (stopInterruptedItem_workerParts h i hcheck) fun _ => h.composes.pure _
  | some verified =>
    exact h.composes.bind (h.composes.when fun _ => failItem_workerParts h i) fun _ =>
      h.composes.pure _

theorem runVerify_workerParts (h : WorkerParts hashing config J) (i : ℕ) (hcheck : J _ check) :
    J _ (runVerify config i check) := by
  refine h.composes.bind (itemExecutionStrategy_parts h.loopParts) fun strategy =>
    h.composes.bind (compareBucketsStreamed_parts h.loopParts hcheck _) fun clean => ?_
  split
  · exact h.composes.bind (stopInterruptedItem_workerParts h i hcheck) fun _ => h.composes.pure _
  · exact h.composes.bind (failItem_workerParts h i) fun _ => h.composes.pure _
  · refine h.composes.bind ?_ fun verified =>
      h.composes.bind (h.composes.when fun _ => completeItem_workerParts h i) fun _ =>
        h.composes.pure _
    split
    · exact verifyStrongIntegrity_workerParts h i hcheck
    · exact h.composes.pure _

theorem finishTerminalStep_workerParts (h : WorkerParts hashing config J) (i : ℕ) :
    J _ (finishTerminalStep i) :=
  h.composes.bind (h.getItem i) fun item =>
    h.composes.bind (h.composes.when fun _ => setItemStatus_workerParts h i _) fun _ =>
      h.composes.bind (h.setItem fun _ _ => rfl) fun _ =>
        h.composes.bind h.commit fun _ => h.composes.pure _

theorem stepHandler_workerParts (h : WorkerParts hashing config J) (i : ℕ) (workerId : String) (leaseSeconds : ℕ)
    (step : ItemStep) : J _ (stepHandler config i (controlCheck workerId leaseSeconds) step) := by
  cases step with
  | createBucket => exact runCreateBucketStep_workerParts h i
  | copyBucketSettings => exact runCopyBucketSettings_workerParts h i
  | applyTargetLock => exact runApplyTargetLockStep_workerParts h i
  | preSync => exact runPreSync_workerParts h i workerId leaseSeconds
  | awaitingCutover =>
    exact h.composes.bind (setItemStatus_workerParts h i _) fun _ =>
      h.composes.bind h.commit fun _ => h.composes.pure _
  | applyReadOnly => exact h.runApplyReadOnly i
  | sync => exact runSync_workerParts h i workerId leaseSeconds
  | verify => exact runVerify_workerParts h i (controlCheck_parts h.loopParts _ _)
  | completed => exact finishTerminalStep_workerParts h i

theorem mayContinue_workerParts (h : WorkerParts hashing config J) (i : ℕ) (hcheck : J _ check) :
    J _ (mayContinue i check) := by
  refine h.composes.bind (checkControlState_parts h.loopParts hcheck) fun state => ?_
  cases state with
  | cancel =>
    exact h.composes.bind (setItemStatus_workerParts h i _) fun _ =>
      h.composes.bind h.commit fun _ => h.composes.pure _
  | pause =>
    exact h.composes.bind (setItemStatus_workerParts h i _) fun _ =>
      h.composes.bind h.commit fun _ => h.composes.pure _
  | run => exact h.composes.pure _
  | lostLease => exact h.composes.pure _

theorem itemLoop_workerParts (h : WorkerParts hashing config J) (i : ℕ) (workerId : String) (leaseSeconds : ℕ)
    (rounds : ℕ) : J _ (itemLoop config i (controlCheck workerId leaseSeconds) rounds) := by
  induction rounds with
  | zero => exact h.fail _
  | succ rounds ih =>
    refine h.composes.bind ?_ fun _ => h.composes.bind (mayContinue_workerParts h i (controlCheck_parts h.loopParts _ _))
      fun continues => h.composes.when fun _ => ?_
    · exact h.composes.bind (h.ask _) fun due => h.composes.when fun _ =>
        h.composes.bind (h.setMigration fun _ _ => rfl) fun _ =>
          h.composes.bind (h.setItem fun _ _ => rfl) fun _ => h.commit
    · exact h.composes.bind (itemExecutionStrategy_parts h.loopParts) fun _ =>
        h.composes.bind (h.getItem i) fun item =>
          h.composes.bind (h.off (.enterHandler i item.step) trivial) fun _ =>
            h.composes.bind (stepHandler_workerParts h i workerId leaseSeconds _) fun again =>
              h.composes.when fun _ => ih

theorem runItem_workerParts (h : WorkerParts hashing config J) (i : ℕ) (workerId : String) (leaseSeconds : ℕ) :
    J _ (runItem config i (controlCheck workerId leaseSeconds)) :=
  h.composes.bind (h.off (.enterItem i) trivial) fun _ => h.composes.bind (h.getItem i) fun item =>
    h.composes.bind (h.composes.when fun _ =>
      h.composes.bind (applyTargetWriteLockPolicy_offParts h.toOffParts i) fun _ => h.commit) fun _ =>
        h.composes.bind (itemExecutionStrategy_parts h.loopParts) fun _ =>
          h.composes.bind (h.choose _) fun rounds => itemLoop_workerParts h i workerId leaseSeconds rounds

theorem revalidateTransferPreconditions_workerParts (h : WorkerParts hashing config J) (i : ℕ) :
    J _ (revalidateTransferPreconditions i) := by
  refine h.composes.bind h.access fun _ => h.composes.bind (h.remote _) fun _ =>
    h.composes.bind (h.getItem i) fun item => ?_
  split
  · exact h.composes.pure _
  · split
    · exact h.fail _
    · refine h.composes.bind ?_ fun _ => ?_
      · exact h.composes.bind (h.ask _) fun _ =>
          h.composes.bind (itemExecutionStrategy_parts h.loopParts) fun _ =>
            h.composes.when fun _ => h.fail _
      · exact h.composes.bind (h.headBucket _) fun _ => h.composes.bind (h.getItem i) fun _ =>
          h.composes.bind (h.composes.when fun _ => h.fail _) fun _ =>
            h.composes.when fun _ => h.fail _

theorem executeMigrationItem_workerParts (h : WorkerParts hashing config J) (i : ℕ)
    (workerId : String) (leaseSeconds : ℕ) : J _ (executeMigrationItem config i (controlCheck workerId leaseSeconds)) := by
  refine h.composes.bind (h.composes.attempt
    (h.composes.bind (revalidateTransferPreconditions_workerParts h i) fun _ =>
      h.composes.bind (setItemStatus_workerParts h i _) fun _ =>
        h.composes.bind h.commit fun _ => runItem_workerParts h i workerId leaseSeconds)) fun executed => ?_
  split
  · exact h.composes.pure _
  · exact h.composes.bind h.rollback fun _ => h.composes.pure _
  · refine h.composes.bind ?_ fun _ => h.composes.pure _
    exact h.composes.bind h.rollback fun _ => h.composes.bind h.getMigration fun _ =>
      h.composes.bind (h.getItem i) fun _ =>
        h.composes.bind (setItemStatus_workerParts h i _) fun _ => h.commit

theorem clearOwnedWorkerLease_offParts (h : OffParts J) (workerId : String) :
    J _ (clearOwnedWorkerLease workerId) := by
  refine h.composes.bind h.getMigration fun migration => ?_
  split
  · exact h.composes.bind (h.setMigration fun _ _ => rfl) fun _ => h.composes.pure _
  · exact h.composes.pure _

theorem prepareMigrationRun_offParts (h : OffParts J) (workerId : String) (leaseSeconds : ℕ) :
    J _ (prepareMigrationRun workerId leaseSeconds) := by
  refine h.composes.bind h.getMigration fun migration => ?_
  split
  · exact h.composes.pure _
  · refine h.composes.bind (h.off (.renewLease _) trivial) fun renewed => ?_
    split
    · exact h.composes.pure _
    · refine h.composes.bind h.getMigration fun migration => ?_
      split
      · exact h.composes.bind (clearOwnedWorkerLease_offParts h workerId) fun _ =>
          h.composes.bind (h.composes.when fun _ => h.commit) fun _ => h.composes.pure _
      · refine h.composes.bind (h.composes.when fun _ => ?_) fun _ => h.composes.pure _
        exact h.composes.bind (h.composes.when fun _ =>
          h.composes.bind (h.off .markRunning trivial) fun _ => h.refreshMigration) fun _ =>
            h.composes.bind (h.setMigration fun _ _ => rfl) fun _ => h.commit

theorem failMigrationFatal_offParts (h : OffParts J) (hpublish : J _ (publishStatus .failed))
    (workerId : String) : J _ (failMigrationFatal config workerId) := by
  refine h.composes.bind (h.off .newSession trivial) fun _ =>
    h.composes.tryCatch (h.composes.bind h.getMigration fun migration => ?_) fun _ => h.rollback
  split
  · exact h.composes.pure _
  · split
    · exact h.composes.bind (h.setMigration fun _ _ => rfl) fun _ => h.commit
    · split
      · exact h.composes.bind (h.setMigration fun _ _ => rfl) fun _ => h.commit
      · exact h.composes.bind hpublish fun _ =>
          h.composes.bind (moveItems_localParts h.toLocal _ _) fun _ =>
            h.composes.bind (recomputeCounters_localParts h.toLocal) fun _ => h.commit

/-! ## Maintenance -/

theorem clearProbe_workerParts (h : WorkerParts hashing config J) (i : ℕ) :
    J _ (clearPreparationEffect i .probeBucket) := by
  refine h.composes.bind h.assertLease fun _ => h.composes.bind (h.setItem ?_) fun _ => h.commit
  intro now row
  simp [BucketMigrationItem.sourceRecords, List.filter_filter]

theorem cleanupDestinationProbeBucket_workerParts (h : WorkerParts hashing config J)
    (policyTested : Bool) : J _ (cleanupDestinationProbeBucket policyTested) := by
  refine h.composes.bind h.assertLease fun _ => h.composes.bind (h.headBucket _) fun exists_ => ?_
  cases exists_ with
  | none => exact h.fail _
  | some exists_ =>
    refine h.composes.bind (h.composes.when fun _ => ?_) fun _ =>
      h.composes.bind (h.headBucket _) fun _ => h.composes.when fun _ => h.fail _
    exact h.composes.bind (h.composes.when fun _ =>
      h.off (.deletePolicy .probe) (by simp [Op.OffSource])) fun _ =>
        h.off (.deleteBucket .probe) (by simp [Op.OffSource])

theorem restoreMigrationAccess_workerParts (h : WorkerParts hashing config J)
    (hrelease : J _ (releaseSourceReadOnlyPolicies config)) :
    J _ (restoreMigrationAccess config) :=
  h.composes.bind h.recover fun _ => h.composes.bind hrelease fun _ =>
    h.composes.bind (releaseTargetWriteLocks_localParts h.toLocal _) fun _ =>
      h.composes.bind (h.composes.forEach fun i _ => h.composes.bind (h.getItem i) fun _ =>
        h.composes.when fun _ => h.setItem fun _ _ => rfl) fun _ =>
          h.composes.bind h.getMigration fun _ =>
            h.composes.bind (h.composes.when fun _ => h.setMigration fun _ _ => rfl) fun _ =>
              h.composes.pure _

theorem purgeEntry_offParts (h : OffParts J) (b : BucketRef)
    (hcheckpoint : J _ checkpoint) (failed : Bool) (key : String) (versionId : Option String) :
    J _ (purgeEntry b checkpoint failed key versionId) :=
  h.composes.bind (h.ask _) fun _ => h.composes.bind (h.composes.when fun _ => hcheckpoint) fun _ =>
    h.composes.bind (h.composes.attempt (h.off (.deleteObject b key versionId) trivial)) fun _ =>
      h.composes.pure _

theorem purgeBucketContents_offParts (h : OffParts J) (b : BucketRef)
    (hcheckpoint : J _ checkpoint) : J _ (purgeBucketContents b checkpoint) := by
  refine h.composes.bind (h.headBucket b) fun exists_ => ?_
  split
  · exact h.fail _
  · exact h.composes.pure _
  · exact h.composes.bind (h.off (.listHistory b) trivial) fun objects =>
      h.composes.bind (h.composes.foldM fun _ _ _ => purgeEntry_offParts h b hcheckpoint _ _ _)
        fun _ => h.composes.bind (h.off (.listHistory b) trivial) fun versions =>
          h.composes.bind (h.composes.foldM fun _ _ _ =>
            purgeEntry_offParts h b hcheckpoint _ _ _) fun _ =>
              h.composes.bind (h.composes.when fun _ => h.fail _) fun _ => h.composes.pure _

theorem deleteMaintenanceBucket_offParts (h : OffParts J) (b : BucketRef)
    (hdelete : J _ (.perform (Op.deleteBucket b))) (hcheckpoint : J _ checkpoint) :
    J _ (deleteMaintenanceBucket b checkpoint) :=
  h.composes.bind hcheckpoint fun _ =>
    h.composes.bind (purgeBucketContents_offParts h b hcheckpoint) fun _ =>
      h.composes.bind hcheckpoint fun _ => h.composes.bind (h.composes.when fun _ => hdelete) fun _ =>
        h.composes.bind (h.headBucket b) fun _ => h.composes.when fun _ => h.fail _

theorem cleanupFailedTarget_workerParts (h : WorkerParts hashing config J) (i : ℕ)
    (hcheckpoint : J _ checkpoint) : J _ (cleanupFailedTarget config i checkpoint) := by
  refine h.composes.bind (h.remote _) fun _ =>
    h.composes.bind (itemExecutionStrategy_parts h.loopParts) fun _ =>
      h.composes.bind (h.getItem i) fun _ => h.composes.bind (h.composes.when fun _ =>
        applyTargetWriteLockPolicy_offParts h.toOffParts i) fun _ => h.composes.bind h.commit fun _ =>
          h.composes.bind ?_ fun _ => h.composes.bind (h.headBucket _) fun _ =>
            h.composes.bind (h.composes.when fun _ => h.fail _) fun _ => h.setItem fun _ _ => rfl
  exact deleteMaintenanceBucket_offParts h.toOffParts _
    (h.off (.deleteBucket (.target i)) (by simp [Op.OffSource])) hcheckpoint

theorem cleanupFingerprint_offParts (h : OffParts J) (b : BucketRef)
    (hcheckpoint : J _ checkpoint) : J _ (cleanupFingerprint hashing b checkpoint) := by
  refine h.composes.bind (h.off (.listHistory b) trivial) fun history =>
    h.composes.bind (h.composes.foldM fun entries version _ => ?_) fun _ =>
      h.composes.bind hcheckpoint fun _ => h.composes.pure _
  refine h.composes.bind hcheckpoint fun _ => h.composes.bind ?_ fun _ => h.composes.pure _
  unfold cleanupFingerprintEntryValue
  split
  · exact h.composes.pure _
  · exact h.composes.bind (h.off (.objectTags b _ _) trivial) fun _ =>
      h.composes.bind (h.off (.objectContent b _ _) trivial) fun _ => h.composes.pure _

theorem verifySourceCleanupContents_offParts (h : OffParts J) (i : ℕ)
    (hread : J _ (applyReadOnlyPolicy config i)) (hcheckpoint : J _ checkpoint) : J _ (verifySourceCleanupContents hashing config i checkpoint) := by
  refine h.composes.bind (h.getItem i) fun item => h.composes.bind ?_ fun _ =>
    h.composes.bind (cleanupFingerprint_offParts h _ hcheckpoint) fun targetHash => ?_
  · split
    · exact applyTargetWriteLockPolicy_offParts h i
    · exact h.off (.putPolicy (.target i) _) (by simp [Op.OffSource])
  · split
    · exact h.composes.bind (h.composes.when fun _ => h.fail _) fun _ => h.composes.pure _
    · refine h.composes.bind h.commit fun _ => h.composes.bind (hread) fun _ =>
        h.composes.bind (cleanupFingerprint_offParts h _ hcheckpoint) fun sourceHash => ?_
      split
      · exact h.fail _
      · exact h.composes.bind (h.setItem fun _ _ => rfl) fun _ =>
          h.composes.bind h.commit fun _ => h.composes.pure _

theorem cleanupVerifiedSource_offParts (h : OffParts J) (i : ℕ)
    (hread : J _ (applyReadOnlyPolicy config i))
    (hdelete : ∀ receipt, J _ (deleteVerifiedSourceBucket config i receipt checkpoint))
    (hfinalize : J _ (finalizeVerifiedSourceCleanup i)) (hcheckpoint : J _ checkpoint) : J _ (cleanupVerifiedSource hashing config i checkpoint) := by
  refine h.composes.bind (h.getItem i) fun item => ?_
  split
  · exact h.fail _
  · exact h.composes.bind (verifySourceCleanupContents_offParts h i hread hcheckpoint) fun receipt =>
      h.composes.bind (hdelete receipt) fun _ => hfinalize

theorem maintenanceCheck_offParts (h : OffParts J) (haccess : J _ assertMigrationCreatorAccess)
    (workerId : String) (leaseSeconds : ℕ) : J _ (maintenanceCheck workerId leaseSeconds) :=
  h.composes.bind h.assertLease fun _ => h.composes.bind h.refreshMigration fun _ =>
    h.composes.bind haccess fun _ =>
      h.composes.bind (controlState_parts (h.loopParts haccess) _ _) fun _ =>
        h.composes.when fun _ => h.composes.raise _

theorem runCleanupItem_workerParts (h : WorkerParts hashing config J)
    (workerId : String) (leaseSeconds : ℕ) (errors : List String) (i : ℕ) :
    J _ (runCleanupItem hashing config (maintenanceCheck workerId leaseSeconds) errors i) := by
  refine h.composes.bind h.getMigration fun _ => h.composes.bind (h.getItem i) fun _ => ?_
  split
  · exact h.composes.pure _
  · refine h.composes.bind (h.composes.attempt (h.composes.bind (maintenanceCheck_offParts h.toOffParts h.access workerId leaseSeconds) fun _ =>
      h.composes.bind h.getMigration fun migration => ?_)) fun cleaned =>
        h.composes.bind ?_ fun _ => h.composes.bind h.assertLease fun _ =>
          h.composes.bind (h.setItem fun _ _ => rfl) fun _ =>
            h.composes.bind h.commit fun _ => h.composes.pure _
    · split
      · exact h.cleanupSource i workerId leaseSeconds
      · exact cleanupFailedTarget_workerParts h i (maintenanceCheck_offParts h.toOffParts h.access workerId leaseSeconds)
    · split
      · exact h.composes.pure _
      · exact h.composes.raise _
      · exact h.composes.bind h.rollback fun _ => h.composes.pure _

theorem finishMaintenanceRun_workerParts (h : WorkerParts hashing config J) (errors : List String) :
    J _ (finishMaintenanceRun errors) :=
  h.composes.bind h.assertLease fun _ => h.composes.bind (h.setMigration fun _ _ => rfl) fun _ =>
    h.commit

theorem runMaintenance_workerParts (h : WorkerParts hashing config J)
    (hrestore : J _ (restoreMigrationAccess config)) (workerId : String) (leaseSeconds : ℕ) : J _ (runMaintenance hashing config workerId leaseSeconds) := by
  refine h.composes.bind h.getMigration fun migration => ?_
  split
  · exact h.composes.pure _
  · refine h.composes.bind h.assertLease fun _ => h.composes.bind h.access fun _ =>
      h.composes.bind (h.setMigration fun _ _ => rfl) fun _ => h.composes.bind h.commit fun _ =>
        h.composes.bind (h.composes.attempt ?_) fun maintained => ?_
    · refine h.composes.bind (maintenanceCheck_offParts h.toOffParts h.access _ _) fun _ =>
        h.composes.bind (h.remote _) fun _ => h.composes.bind h.getMigration fun migration => ?_
      split
      · exact hrestore
      · exact h.composes.foldM fun _ _ _ =>
          runCleanupItem_workerParts h _ _ _ _
    · split
      · exact finishMaintenanceRun_workerParts h _
      · exact h.rollback
      · exact h.composes.bind h.rollback fun _ => finishMaintenanceRun_workerParts h _

/-! ## Preparation -/

theorem preparationCheckpoint_offParts (h : OffParts J) (haccess : J _ assertMigrationCreatorAccess)
    (workerId : String) :
    J _ (preparationCheckpoint workerId) := by
  refine h.composes.bind h.assertLease fun _ =>
    h.composes.bind (h.off .controlRow trivial) fun row => ?_
  split
  · exact h.composes.raise _
  · exact h.composes.bind haccess fun _ =>
      h.composes.bind (h.setMigration fun _ _ => rfl) fun _ => h.commit

theorem journalProbe_workerParts (h : WorkerParts hashing config J) (i : ℕ)
    (hcheckpoint : J _ checkpoint) (payload : PreparationEffect) :
    J _ (journalPreparationEffect (some checkpoint) i .probeBucket payload) := by
  refine h.composes.bind h.assertLease fun _ => h.composes.bind hcheckpoint fun _ =>
    h.composes.bind (h.getItem i) fun item => ?_
  split
  · exact h.fail _
  · refine h.composes.bind (h.setItem ?_) fun _ => h.commit
    intro now row
    simp [BucketMigrationItem.sourceRecords]

theorem precheckSameEndpointCopySourceAccess_workerParts (h : WorkerParts hashing config J) (i : ℕ)
    (workerId : String) (activeChecks : Bool) :
    J _ (precheckSameEndpointCopySourceAccess config (preparationCheckpoint workerId) i activeChecks) := by
  refine h.composes.bind (h.remote _) fun _ => h.composes.bind (h.ask _) fun _ =>
    h.composes.when fun _ => h.composes.bind (h.ask _) fun _ => h.composes.when fun _ => ?_
  split
  · exact h.prepGrant workerId i _
  · exact h.fail _

theorem runDestinationProbe_workerParts (h : WorkerParts hashing config J) (i : ℕ)
    (workerId : String) : J _ (runDestinationProbe config (preparationCheckpoint workerId) i) := by
  have hcopy : J _ (probeSameEndpointCopy config (preparationCheckpoint workerId) i) := by
    refine h.composes.bind (h.remote _) fun _ => h.composes.bind (h.ask _) fun _ => ?_
    split
    · exact h.fail _
    · split
      · exact h.prepGrant workerId i _
      · exact h.remote _
  exact h.composes.bind (h.off (.createBucket .probe) (by simp [Op.OffSource])) fun _ =>
    h.composes.bind (h.composes.when fun _ => copyBucketSettings_workerParts h i (by simp)) fun _ =>
      h.composes.bind (h.composes.when fun _ => h.composes.bind (h.getPolicy _) fun _ =>
        h.off (.putPolicy .probe _) (by simp [Op.OffSource])) fun _ =>
          h.composes.bind (h.remote _) fun _ => h.composes.bind (h.remote _) fun _ =>
            h.composes.bind (h.composes.when fun _ => hcopy) fun _ => h.remote _

theorem precheckDestination_workerParts (h : WorkerParts hashing config J) (i : ℕ)
    (workerId : String) : J _ (precheckDestination config (preparationCheckpoint workerId) i) := by
  refine h.composes.bind (journalProbe_workerParts h i (preparationCheckpoint_offParts h.toOffParts h.access workerId) _) fun _ =>
    h.composes.bind (h.composes.attempt (runDestinationProbe_workerParts h i workerId))
      fun probed => h.composes.bind (h.composes.tryCatch ?_ fun _ => h.fail _) fun _ => ?_
  · exact h.composes.bind (cleanupDestinationProbeBucket_workerParts h _) fun _ =>
      clearProbe_workerParts h i
  · split
    · exact h.composes.pure _
    · exact h.composes.raise _

theorem reported_workerParts (h : WorkerParts hashing config J) {p : Service Unit} (hp : J _ p) :
    J _ (reported p) :=
  h.composes.bind (h.composes.attempt hp) fun _ => h.composes.pure _

theorem planItem_workerParts (h : WorkerParts hashing config J) (i : ℕ)
    (workerId : String) (activeChecks : Bool) :
    J _ (planItem config (preparationCheckpoint workerId) i activeChecks) := by
  refine h.composes.bind (h.ask _) fun inspected => h.composes.bind (h.ask _) fun _ =>
    h.composes.bind ?_ fun _ => h.composes.bind ?_ fun _ => h.composes.bind ?_ fun _ =>
      h.composes.bind (h.setItem fun _ _ => rfl) fun _ => h.composes.pure _
  · split
    · exact reported_workerParts h
        (precheckSameEndpointCopySourceAccess_workerParts h i workerId _)
    · exact h.composes.pure _
  · split
    · exact reported_workerParts h (h.roundtrip workerId i)
    · exact h.composes.pure _
  · split
    · exact reported_workerParts h (precheckDestination_workerParts h i workerId)
    · exact h.composes.pure _

theorem prepare_workerParts (h : WorkerParts hashing config J) (workerId : String)
    (activeChecks : Bool) : J _ (prepare config workerId activeChecks) := by
  have hcheckpoint := preparationCheckpoint_offParts h.toOffParts h.access workerId
  refine h.composes.bind hcheckpoint fun _ => h.composes.bind h.recover fun _ =>
    h.composes.bind (h.composes.foldM fun _ i _ => ?_) fun _ => h.composes.bind hcheckpoint fun _ =>
      h.composes.bind (h.composes.foldM fun _ i _ => ?_) fun _ =>
        h.composes.bind (h.composes.when fun _ => h.fail _) fun _ => h.setMigration fun _ _ => rfl
  · exact h.composes.bind hcheckpoint fun _ =>
      h.composes.bind (planItem_workerParts h i workerId _) fun _ =>
        h.composes.bind hcheckpoint fun _ => h.composes.pure _
  · exact h.composes.bind (h.getItem i) fun _ => h.composes.pure _

theorem processPreparation_workerParts (h : WorkerParts hashing config J) (workerId : String) :
    J _ (processPreparation config workerId) := by
  refine h.composes.tryCatch (h.composes.bind h.getMigration fun migration => ?_) fun _ =>
    h.composes.pure _
  split
  · exact h.fail _
  · refine h.composes.bind h.assertLease fun _ =>
      h.composes.bind (h.setMigration fun _ _ => rfl) fun _ =>
        h.composes.bind (h.composes.attempt (prepare_workerParts h _ _)) fun prepared =>
          h.composes.bind ?_ fun _ => h.composes.bind (h.setMigration fun _ _ => rfl) fun _ =>
            h.commit
    unfold recordOutcome
    split
    · exact h.composes.pure _
    · exact h.composes.bind h.rollback fun _ => h.composes.raise _
    · refine h.composes.bind h.rollback fun _ => h.composes.bind h.getMigration fun migration => ?_
      split
      · exact h.composes.raise _
      · exact h.setMigration fun _ _ => rfl

end Run

end Migration
end BucketReef

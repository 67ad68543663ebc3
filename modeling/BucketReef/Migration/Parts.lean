import BucketReef.Migration.System

/-!
# Programs and their parts

Most operations of a worker leave alone what steers the migration and what protects its buckets. A
property of programs that composes holds of the long copying and verifying loops as soon as it holds
of these operations, of the access check and of the copy grant.
-/

namespace BucketReef
namespace Migration

open Effects Service Prog

/-- Neither the columns that steer a migration or an item nor any bucket changes. -/
def Op.Plain : Op → Prop
  | .getMigration | .refreshMigration | .getItem _ | .commit | .rollback | .newSession
  | .assertLease | .controlRow | .renewLease _ | .ask _ | .choose _ | .diffEntries
  | .replayedWatermark | .remote _ | .headBucket _ | .getPolicy _ | .listHistory _
  | .objectTags _ _ _ | .objectContent _ _ _ => True
  | .setMigration f => ∀ now row, (f now row).status = row.status ∧
      (f now row).preparationStatus = row.preparationStatus ∧
      (f now row).maintenanceStatus = row.maintenanceStatus
  | .setItem _ f => ∀ now row, (f now row).journal = row.journal ∧
      (f now row).status = row.status ∧ (f now row).step = row.step
  | _ => False

/-- A property that composes and holds of what most loops are made of. -/
structure LoopParts (J : (α : Type) → Service α → Prop) : Prop where
  composes : Composes J
  plain : ∀ op, op.Plain → J _ (.perform op)
  access : J _ assertMigrationCreatorAccess

/-- The copying loops open a copy grant around a part of themselves. -/
structure Parts (config : Configuration) (i : ℕ) (J : (α : Type) → Service α → Prop) : Prop extends
    LoopParts J where
  grant : ∀ sample (body : Service (Option SyncRun)), J _ body →
    J _ (temporarySourceCopyGrant config none i sample body)
  replayGrant : ∀ sample (body : Service (Option (Option Versions.Watermark × SyncProgress))),
    J _ body → J _ (temporarySourceCopyGrant config none i sample body)

namespace LoopParts

variable {J : (α : Type) → Service α → Prop}

theorem getMigration (h : LoopParts J) : J _ Service.getMigration := h.plain .getMigration trivial

theorem getItem (h : LoopParts J) (j : ℕ) : J _ (Service.getItem j) := h.plain (.getItem j) trivial

theorem commit (h : LoopParts J) : J _ Service.commit := h.plain .commit trivial

theorem ask (h : LoopParts J) (question : String) : J _ (Service.ask question) :=
  h.plain (.ask question) trivial

theorem choose (h : LoopParts J) (what : String) : J _ (Service.choose what) :=
  h.plain (.choose what) trivial

theorem remote (h : LoopParts J) (call : String) : J _ (Service.remote call) :=
  h.plain (.remote call) trivial

theorem readControlRow (h : LoopParts J) : J _ Service.readControlRow :=
  h.plain .controlRow trivial

theorem renewLease (h : LoopParts J) (leaseSeconds : ℕ) : J _ (Service.renewLease leaseSeconds) :=
  h.plain (.renewLease leaseSeconds) trivial

theorem setMigration (h : LoopParts J) {f : ℕ → BucketMigration → BucketMigration}
    (hf : (Op.setMigration f).Plain) : J _ (Service.setMigration f) := h.plain _ hf

theorem setItem (h : LoopParts J) {j : ℕ} {f : ℕ → BucketMigrationItem → BucketMigrationItem}
    (hf : (Op.setItem j f).Plain) : J _ (Service.setItem j f) := h.plain _ hf

end LoopParts

section Loops

variable {config : Configuration} {i : ℕ} {J : (α : Type) → Service α → Prop}
variable {check : Service ControlState}

/-! ## Control -/

theorem controlState_parts (h : LoopParts J) (workerId : String) (leaseSeconds : ℕ) :
    J _ (controlState workerId leaseSeconds) := by
  refine h.composes.bind h.readControlRow fun row => ?_
  split
  · exact h.composes.pure _
  · split
    · refine h.composes.bind (h.renewLease _) fun renewed => ?_
      split
      · exact h.composes.bind h.getMigration fun _ => h.composes.pure _
      · exact h.composes.pure _
    · exact h.composes.pure _

theorem controlCheck_parts (h : LoopParts J) (workerId : String) (leaseSeconds : ℕ) :
    J _ (controlCheck workerId leaseSeconds) :=
  h.composes.bind h.getMigration fun _ => h.composes.bind h.access fun _ =>
    controlState_parts h workerId leaseSeconds

theorem checkControlState_parts (h : LoopParts J) (hcheck : J _ check) :
    J _ (checkControlState check) := by
  refine h.composes.bind hcheck fun state => ?_
  split
  · exact h.composes.raise _
  · exact h.composes.pure _

/-! ## Progress -/

theorem persist_parts (h : LoopParts J) (progress : SyncProgress) : J _ (progress.persist i) := by
  refine h.composes.bind (h.setItem ?_) fun _ => h.composes.bind (h.setMigration ?_) fun _ =>
    h.composes.bind h.commit fun _ => h.composes.pure _
  · intro now row
    exact ⟨rfl, rfl, rfl⟩
  · intro now row
    exact ⟨rfl, rfl, rfl⟩

theorem flush_parts (h : LoopParts J) (force : Bool) (progress : SyncProgress) :
    J _ (progress.flush i force) := by
  unfold SyncProgress.flush
  dsimp only
  split
  · exact h.composes.pure _
  · split
    · refine h.composes.bind (h.ask _) fun elapsed => ?_
      split
      · exact persist_parts h progress
      · exact h.composes.pure _
    · exact persist_parts h progress

theorem record_parts (h : LoopParts J) (copied deleted : ℕ) (force : Bool)
    (progress : SyncProgress) : J _ (progress.record i copied deleted force) :=
  flush_parts h force _

theorem checkControl_parts (h : LoopParts J) (hcheck : J _ check) (progress : SyncProgress) :
    J _ (progress.checkControl i check) := by
  refine h.composes.bind hcheck fun state => ?_
  split
  · exact h.composes.bind (flush_parts h _ _) fun _ => h.composes.raise _
  · split
    · exact h.composes.bind (flush_parts h _ _) fun _ => h.composes.pure _
    · exact h.composes.pure _

theorem interrupted_parts (h : LoopParts J) (state : ControlState) (progress : SyncProgress) :
    J _ (interrupted i state progress) := by
  unfold interrupted
  split
  · exact h.composes.bind (record_parts h _ _ _ _) fun _ => h.composes.raise _
  · split
    · exact h.composes.bind (record_parts h _ _ _ _) fun _ => h.composes.pure _
    · exact h.composes.pure _

/-! ## Parallel actions -/

theorem increment_parts (h : LoopParts J) (increment : ProgressIncrement)
    (progress : SyncProgress) : J _ (progress.increment i increment) := by
  cases increment with
  | copied => exact record_parts h _ _ _ _
  | deleted => exact record_parts h _ _ _ _

theorem awaitActions_parts (h : LoopParts J) (hcheck : J _ check)
    (increment : ProgressIncrement) (rounds pending : ℕ) (interruptedBy : Option ControlState)
    (progress : SyncProgress) :
    J _ (awaitActions i check increment rounds pending interruptedBy progress) := by
  induction rounds generalizing pending interruptedBy progress with
  | zero =>
    cases pending with
    | zero => exact h.composes.pure _
    | succ pending => exact h.composes.raise _
  | succ rounds ih =>
    cases pending with
    | zero => exact h.composes.pure _
    | succ pending =>
      refine h.composes.bind (h.choose _) fun done => h.composes.bind hcheck fun state =>
        h.composes.bind (h.composes.foldM fun progress _ _ => ?_) fun progress => ih _ _ _
      exact h.composes.bind (h.remote _) fun _ => increment_parts h increment progress

theorem runParallelActions_parts (h : LoopParts J) (hcheck : J _ check)
    (increment : ProgressIncrement) (keys : List String) (progress : SyncProgress) :
    J _ (runParallelActions config i check increment keys progress) := by
  refine h.composes.bind (h.composes.foldM fun state chunk _ => ?_) fun state => ?_
  · obtain ⟨completed, progress⟩ := state
    cases completed with
    | none => exact h.composes.pure _
    | some completed =>
      refine h.composes.bind hcheck fun state =>
        h.composes.bind (interrupted_parts h _ _) fun result => ?_
      dsimp only
      split
      · exact h.composes.pure _
      · exact h.composes.bind (h.choose _) fun rounds =>
          h.composes.bind (awaitActions_parts h hcheck _ _ _ _ _) fun result =>
            h.composes.bind (interrupted_parts h _ _) fun result => h.composes.pure _
  · obtain ⟨completed, progress⟩ := state
    cases completed with
    | none => exact h.composes.pure _
    | some completed =>
      refine h.composes.bind ?_ fun _ => h.composes.pure _
      split
      · exact h.composes.pure _
      · exact record_parts h _ _ _ _

/-! ## Current objects -/

theorem mayContinueSync_parts (h : LoopParts J) (hcheck : J _ check) (run : SyncRun) :
    J _ (run.mayContinue i check) :=
  h.composes.bind (checkControl_parts h hcheck _) fun _ => h.composes.pure _

theorem flushCopyBatch_parts (h : LoopParts J) (hcheck : J _ check) (run : SyncRun) :
    J _ (run.flushCopyBatch config i check) := by
  unfold SyncRun.flushCopyBatch
  split
  · exact h.composes.pure _
  · refine h.composes.bind (runParallelActions_parts h hcheck _ _ _) fun result => ?_
    dsimp only
    split
    · exact h.composes.pure _
    · exact h.composes.pure _

theorem flushDeleteBatch_parts (h : LoopParts J) (hcheck : J _ check) (run : SyncRun) :
    J _ (run.flushDeleteBatch config i check) := by
  unfold SyncRun.flushDeleteBatch
  split
  · exact h.composes.pure _
  · refine h.composes.bind (runParallelActions_parts h hcheck _ _ _) fun result => ?_
    dsimp only
    split
    · exact h.composes.pure _
    · exact h.composes.pure _

theorem queueCopy_parts (h : LoopParts J) (hcheck : J _ check) (key : String) (run : SyncRun) :
    J _ (run.queueCopy config i check key) := by
  unfold SyncRun.queueCopy
  dsimp only
  split
  · exact h.composes.pure _
  · refine h.composes.bind (mayContinueSync_parts h hcheck _) fun result => ?_
    split
    · exact flushCopyBatch_parts h hcheck _
    · exact h.composes.pure _

theorem queueDelete_parts (h : LoopParts J) (hcheck : J _ check) (key : String)
    (run : SyncRun) : J _ (run.queueDelete config i check key) := by
  unfold SyncRun.queueDelete
  dsimp only
  split
  · exact h.composes.pure _
  · refine h.composes.bind (mayContinueSync_parts h hcheck _) fun result => ?_
    split
    · exact flushDeleteBatch_parts h hcheck _
    · exact h.composes.pure _

theorem finishBatches_parts (h : LoopParts J) (hcheck : J _ check) (run : SyncRun) :
    J _ (run.finishBatches config i check) := by
  refine h.composes.bind (mayContinueSync_parts h hcheck _) fun result => ?_
  dsimp only
  split
  · exact h.composes.pure _
  · refine h.composes.bind (flushCopyBatch_parts h hcheck _) fun result => ?_
    split
    · exact h.composes.pure _
    · exact h.composes.bind (flushDeleteBatch_parts h hcheck _) fun result => h.composes.pure _

theorem scanEntry_parts (h : LoopParts J) (hcheck : J _ check) (run : SyncRun) :
    J _ (run.scanEntry i check) := by
  unfold SyncRun.scanEntry
  split
  · exact h.composes.bind (mayContinueSync_parts h hcheck _) fun _ => h.composes.pure _
  · exact h.composes.pure _

theorem ensureCopyGrant_parts (h : Parts config i J) (run : SyncRun)
    {rest : SyncRun → Service (Option SyncRun)} (hrest : ∀ run, J _ (rest run)) :
    J _ (ensureCopyGrant config i run rest) := by
  unfold ensureCopyGrant
  split
  · exact hrest run
  · exact h.grant _ _ (hrest _)

theorem syncEntries_parts (h : Parts config i J) (hcheck : J _ check) (allowDelete : Bool)
    (entries : List DiffEntry) (run : SyncRun) :
    J _ (syncEntries config i check allowDelete entries run) := by
  induction entries generalizing run with
  | nil => exact finishBatches_parts h.toLoopParts hcheck run
  | cons entry entries ih =>
    have hcopy (key : String) (run : SyncRun) :
        J _ (ensureCopyGrant config i run fun run =>
          run.queueCopy config i check key >>= fun result =>
            if result.1 then syncEntries config i check allowDelete entries result.2
            else return none) := by
      refine ensureCopyGrant_parts h run fun run =>
        h.composes.bind (queueCopy_parts h.toLoopParts hcheck _ _) fun result => ?_
      split
      · exact ih _
      · exact h.composes.pure _
    refine h.composes.bind (h.remote _) fun _ =>
      h.composes.bind (scanEntry_parts h.toLoopParts hcheck _) fun result => ?_
    dsimp only
    split
    · exact h.composes.pure _
    · cases entry with
      | onlySource key => exact hcopy key _
      | different key => exact hcopy key _
      | onlyTarget key =>
        dsimp only
        split
        · refine h.composes.bind (queueDelete_parts h.toLoopParts hcheck _ _) fun result => ?_
          split
          · exact ih _
          · exact h.composes.pure _
        · exact ih _
      | matched => exact ih _

theorem syncCurrentObjects_parts (h : Parts config i J) (hcheck : J _ check) (allowDelete : Bool) :
    J _ (syncCurrentObjects config i check allowDelete) := by
  refine h.composes.bind (h.plain .diffEntries trivial) fun entries =>
    h.composes.bind (syncEntries_parts h hcheck _ _ _) fun finished => ?_
  cases finished with
  | none => exact h.composes.pure _
  | some run =>
    dsimp only
    split
    · exact h.composes.pure _
    · exact h.composes.bind (flush_parts h.toLoopParts _ _) fun _ =>
        h.composes.bind h.commit fun _ => h.composes.pure _

/-! ## Object versions -/

theorem replayEntry_parts (h : LoopParts J) (hcheck : J _ check)
    (watermark : Option Versions.Watermark) (run : ReplayRun) :
    J _ (replayEntry i check watermark run) := by
  refine h.composes.bind (h.remote _) fun _ => h.composes.bind ?_ fun result => ?_
  · split
    · exact h.composes.bind hcheck fun _ =>
        h.composes.bind (interrupted_parts h _ _) fun _ => h.composes.pure _
    · exact h.composes.pure _
  · dsimp only
    split
    · exact h.composes.pure _
    · refine h.composes.bind ?_ fun replayed => ?_
      · split
        · exact h.ask _
        · exact h.composes.pure _
      · split
        · exact h.composes.pure _
        · exact h.composes.bind (h.remote _) fun _ =>
            h.composes.bind (record_parts h _ _ _ _) fun _ => h.composes.pure _

theorem replayBucketVersions_parts (h : LoopParts J) (hcheck : J _ check)
    (watermark : Option Versions.Watermark) (progress : SyncProgress) :
    J _ (replayBucketVersions i check watermark progress) := by
  refine h.composes.bind (h.choose _) fun count =>
    h.composes.bind (h.composes.foldM fun run _ _ => ?_) fun run => ?_
  · split
    · exact h.composes.pure _
    · exact replayEntry_parts h hcheck _ _
  · split
    · exact h.composes.pure _
    · exact h.composes.bind (record_parts h _ _ _ _) fun _ =>
        h.composes.bind (h.plain .replayedWatermark trivial) fun _ => h.composes.pure _

theorem storeReplayPlan_parts (h : LoopParts J) : J _ (storeReplayPlan config i) := by
  refine h.composes.bind (h.getItem _) fun item =>
    h.composes.bind (h.composes.when fun _ => ?_) fun _ => h.composes.pure _
  refine h.composes.bind (h.setItem ?_) fun _ => h.commit
  intro now row
  exact ⟨rfl, rfl, rfl⟩

theorem purgeTargetIfNeeded_parts (h : LoopParts J) (plan : Versions.ReplayPlan)
    (progress : SyncProgress) : J _ (purgeTargetIfNeeded i plan progress) := by
  unfold purgeTargetIfNeeded
  split
  · refine h.composes.bind (h.choose _) fun deleted => ?_
    split
    · exact record_parts h _ _ _ _
    · exact h.composes.pure _
  · exact h.composes.pure _

theorem replayVersions_parts (h : Parts config i J) (hcheck : J _ check)
    (plan : Versions.ReplayPlan) (progress : SyncProgress) :
    J _ (replayVersions config i check plan progress) := by
  refine h.composes.bind ?_ fun sampled => ?_
  · split
    · exact h.ask _
    · exact h.composes.pure _
  · split
    · exact h.replayGrant _ _ (replayBucketVersions_parts h.toLoopParts hcheck _ _)
    · exact replayBucketVersions_parts h.toLoopParts hcheck _ _

theorem compareVersionedTimelines_parts (h : LoopParts J) (hcheck : J _ check) :
    J _ (compareVersionedTimelines check) := by
  refine h.composes.bind (h.choose _) fun count =>
    h.composes.bind (h.composes.findM fun scanned _ => ?_) fun stopped => ?_
  · refine h.composes.bind (h.remote _) fun _ => h.composes.bind ?_ fun state => ?_
    · split
      · exact checkControlState_parts h hcheck
      · exact h.composes.pure _
    · split
      · exact h.composes.pure _
      · exact h.composes.bind (h.remote _) fun _ => h.composes.pure _
  · split
    · exact h.composes.pure _
    · exact h.composes.bind (h.ask _) fun _ => h.composes.pure _

theorem syncObjectVersions_parts (h : Parts config i J) (hcheck : J _ check) :
    J _ (syncObjectVersions config i check) := by
  refine h.composes.bind (storeReplayPlan_parts h.toLoopParts) fun plan =>
    h.composes.bind (h.remote _) fun _ =>
      h.composes.bind (purgeTargetIfNeeded_parts h.toLoopParts _ _) fun progress =>
        h.composes.bind (replayVersions_parts h hcheck _ _) fun replayed => ?_
  cases replayed with
  | none => exact h.composes.pure _
  | some replayed =>
    refine h.composes.bind (h.composes.when fun _ => h.setItem ?_) fun _ =>
      h.composes.bind (flush_parts h.toLoopParts _ _) fun _ =>
        h.composes.bind (compareVersionedTimelines_parts h.toLoopParts hcheck) fun compared => ?_
    · intro now row
      exact ⟨rfl, rfl, rfl⟩
    · split
      · exact h.composes.pure _
      · exact h.composes.bind h.commit fun _ => h.composes.pure _

theorem itemExecutionStrategy_parts (h : LoopParts J) : J _ (itemExecutionStrategy i) := by
  refine h.composes.bind (h.getItem _) fun item => ?_
  split
  · exact h.composes.pure _
  · exact h.composes.raise _

/-- The copying of an item, up to its interruption. -/
theorem syncBucket_parts (h : Parts config i J) (hcheck : J _ check) (allowDelete : Bool) :
    J _ (syncBucket config i check allowDelete) := by
  refine h.composes.bind (itemExecutionStrategy_parts h.toLoopParts) fun strategy => ?_
  cases strategy with
  | versionAware => exact syncObjectVersions_parts h hcheck
  | currentOnly => exact syncCurrentObjects_parts h hcheck _

/-! ## Verification -/

theorem compareBucketsStreamed_parts (h : LoopParts J) (hcheck : J _ check)
    (strategy : Strategy) : J _ (compareBucketsStreamed check strategy) := by
  cases strategy with
  | versionAware => exact compareVersionedTimelines_parts h hcheck
  | currentOnly =>
    refine h.composes.bind (h.plain .diffEntries trivial) fun entries =>
      h.composes.bind (h.composes.findM fun entry _ => ?_) fun _ => h.composes.pure _
    refine h.composes.bind (h.remote _) fun _ =>
      h.composes.bind ?_ fun _ => h.composes.pure _
    split
    · exact checkControlState_parts h hcheck
    · exact h.composes.pure _

theorem awaitVerifications_parts (h : LoopParts J) (hcheck : J _ check) (rounds : ℕ)
    (interruptedBy : Option ControlState) : J _ (awaitVerifications check rounds interruptedBy) := by
  induction rounds generalizing interruptedBy with
  | zero => exact h.composes.pure _
  | succ rounds ih => exact h.composes.bind hcheck fun state => ih _

theorem runStrongVerificationBatch_parts (h : LoopParts J) (hcheck : J _ check) :
    J _ (runStrongVerificationBatch check) := by
  refine h.composes.bind (checkControlState_parts h hcheck) fun state => ?_
  split
  · exact h.composes.pure _
  · refine h.composes.bind (h.choose _) fun rounds =>
      h.composes.bind (awaitVerifications_parts h hcheck _ _) fun interruptedBy => ?_
    split
    · exact h.composes.raise _
    · exact h.composes.pure _

theorem strongVerification_parts (h : LoopParts J) (hcheck : J _ check) :
    J _ (strongVerifySizeOnlyCandidatesStreamed check) := by
  refine h.composes.bind (h.choose _) fun batches =>
    h.composes.bind (h.composes.findM fun _ _ => ?_) fun stopped => ?_
  · refine h.composes.bind (h.remote _) fun _ => h.composes.bind (h.ask _)
      fun scanned => h.composes.bind ?_ fun state => ?_
    · split
      · exact checkControlState_parts h hcheck
      · exact h.composes.pure _
    · split
      · exact h.composes.pure _
      · exact h.composes.bind (runStrongVerificationBatch_parts h hcheck) fun _ =>
          h.composes.pure _
  · split
    · exact h.composes.pure _
    · exact h.composes.bind (h.ask _) fun _ => h.composes.pure _

end Loops

end Migration
end BucketReef

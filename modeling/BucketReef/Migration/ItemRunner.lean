import BucketReef.Migration.ObjectSync

/-!
# The item loop

An item moves from step to step: its destination is created and set up, its objects are copied and
verified. Each step has a handler; it stores the next step and says whether the loop goes on.
-/

namespace BucketReef
namespace Migration

open Effects Service Prog

/-! ## Setting up the destination -/

/-- `_copy_policy`, to the destination of an item or to the probe bucket. -/
def copyPolicy (i : ℕ) (destination : BucketRef) : Service Unit := do
  let policy ← getPolicy (.source i)
  match destination with
  | .target j => .perform (Op.installPolicy j (truthy policy))
  | bucket => writePolicy bucket (truthy policy)

/-- `_operations`; only the policy is modelled beyond its calls. -/
def settingCopyOperations (i : ℕ) (destination : BucketRef) : List (String × Service Unit) :=
  [("versioning", remote "copy_versioning"),
   ("object_lock", remote "copy_object_lock"),
   ("encryption", remote "copy_encryption"),
   ("public_access_block", remote "copy_public_access_block"),
   ("lifecycle", remote "copy_lifecycle"),
   ("cors", remote "copy_cors"),
   ("bucket_policy", copyPolicy i destination),
   ("tags", remote "copy_tags"),
   ("access_logging", remote "copy_access_logging")]

/-- `_copy_bucket_settings`: a setting that fails does not keep the next ones from being copied. -/
def copyBucketSettings (i : ℕ) (destination : BucketRef) : Service Unit := do
  let failures ← foldM (settingCopyOperations i destination) (fun failures operation => do
    assertWorkflowLease
    let result ← operation.2.attempt
    return match result with
      | .ok _ => failures
      | .error _ => failures ++ [operation.1]) []
  when (!failures.isEmpty)
    (fail ("Bucket settings copy failed for supported settings: " ++ "; ".intercalate failures))

def nextStepAfterTargetSetup (config : Configuration) (item : BucketMigrationItem) : ItemStep :=
  if config.lockTargetWrites && !item.targetLockApplied then .applyTargetLock
  else if config.mode = .preSync && !item.preSyncDone then .preSync
  else .applyReadOnly

/-- Assign the step that follows. -/
def setStep (i : ℕ) (step : ItemStep) : Service Unit :=
  setItem i fun now row => { row with step := step, updatedAt := now }

def runCreateBucketStep (config : Configuration) (i : ℕ) : Service Bool := do
  when config.copyBucketSettings (remote "get_bucket_object_lock")
  let exists_ ← headBucket (.target i)
  let item ← getItem i
  match exists_ with
  | none => fail "Destination existence cannot be verified. Check destination access."
  | some exists_ =>
    if exists_ && !item.targetCreatedByMigration then
      fail "Destination already exists and was not created by this migration. Choose a new name."
    else do
      when (!exists_) do
        .perform (Op.createBucket (.target i))
        setItem i fun _ row => { row with targetCreatedByMigration := true }
        commit
      let item ← getItem i
      setStep i (if config.copyBucketSettings then .copyBucketSettings
        else nextStepAfterTargetSetup config item)
      commit
      return true

def runCopyBucketSettings (config : Configuration) (i : ℕ) : Service Bool := do
  copyBucketSettings i (.target i)
  let item ← getItem i
  setStep i (nextStepAfterTargetSetup config item)
  commit
  return true

/-- The failed lock is lifted again; where that fails too, its record stays. -/
def abandonTargetLock (i : ℕ) : Service Unit := do
  let lifted ← (liftTargetWriteLock i).attempt
  match lifted with
  | .error _ => return ()
  | .ok _ => do
    setItem i fun _ row => { row with targetLockApplied := false, targetPolicyBackup := none }
    commit

def runApplyTargetLockStep (config : Configuration) (i : ℕ) : Service Bool := do
  let applied ← (do
    applyTargetWriteLockPolicy config i
    setItem i fun _ row => { row with targetLockApplied := true } : Service Unit).attempt
  match applied with
  | .error _ => do
    abandonTargetLock i
    fail "Target write-lock policy could not be applied"
  | .ok _ => do
    let item ← getItem i
    setStep i (if config.mode = .preSync && !item.preSyncDone then .preSync else .applyReadOnly)
    commit
    return true

/-! ## Copying -/

def setItemStatus (i : ℕ) (status : ItemStatus) : Service Unit :=
  setItem i fun now row => { row with status := status, updatedAt := now }

/-- `_stop_interrupted_item`. -/
def stopInterruptedItem (i : ℕ) (check : Service ControlState) : Service Unit := do
  let state ← checkControlState check
  setItemStatus i (if state = .cancel then .canceled else .paused)
  commit

def runPreSync (config : Configuration) (i : ℕ) (check : Service ControlState) : Service Bool := do
  let synced ← syncBucket config i check false
  if !synced then do
    stopInterruptedItem i check
    return false
  else do
    setItem i fun now row => { row with
      preSyncDone := true, status := .awaitingCutover, step := .awaitingCutover, updatedAt := now }
    commit
    return false

def runAwaitingCutover (i : ℕ) : Service Bool := do
  setItemStatus i .awaitingCutover
  commit
  return false

def runApplyReadOnly (config : Configuration) (i : ℕ) : Service Bool := do
  applyReadOnlyPolicy config i
  setItem i fun now row => { row with readOnlyApplied := true, step := .sync, updatedAt := now }
  commit
  return true

def runSync (config : Configuration) (i : ℕ) (check : Service ControlState) : Service Bool := do
  let synced ← syncBucket config i check true
  if !synced then do
    stopInterruptedItem i check
    return false
  else do
    setStep i .verify
    commit
    return true

/-! ## Verifying -/

/-- `_fail_item_for_final_diff` and `_fail_item_for_strong_verification`. -/
def failItem (i : ℕ) : Service Unit := do
  setItemStatus i .failed
  commit

/-- `_finalize_target_versioning_state`. -/
def finalizeTargetVersioningState (i : ℕ) : Service Unit := do
  let needed ← ask "the source has suspended its versioning"
  let item ← getItem i
  when (needed && !item.targetVersioningFinalized) do
    remote "set_versioning"
    setItem i fun _ row => { row with targetVersioningFinalized := true }

def completeItemAfterVerification (i : ℕ) : Service Unit := do
  finalizeTargetVersioningState i
  setItem i fun now row => { row with status := .completed, step := .completed, updatedAt := now }
  commit

/-- `_verify_strong_integrity`. -/
def verifyStrongIntegrity (i : ℕ) (check : Service ControlState) : Service Bool := do
  let verified ← strongVerifySizeOnlyCandidatesStreamed check
  match verified with
  | none => do
    stopInterruptedItem i check
    return false
  | some verified => do
    when (!verified) (failItem i)
    return verified

def runVerify (config : Configuration) (i : ℕ) (check : Service ControlState) : Service Bool := do
  let strategy ← itemExecutionStrategy i
  let clean ← compareBucketsStreamed check strategy
  match clean with
  | none => do
    stopInterruptedItem i check
    return false
  | some false => do
    failItem i
    return false
  | some true => do
    let verified ← (if config.strongIntegrityCheck then verifyStrongIntegrity i check
      else return true)
    when verified (completeItemAfterVerification i)
    return false

def finishTerminalStep (i : ℕ) : Service Bool := do
  let item ← getItem i
  when (item.status = .running) (setItemStatus i .completed)
  setItem i fun now row => { row with updatedAt := now }
  commit
  return false

/-! ## The loop -/

def persistHeartbeatIfDue (i : ℕ) : Service Unit := do
  let due ← ask "the heartbeat is due"
  when due do
    setMigration fun now row => { row with updatedAt := now }
    setItem i fun now row => { row with updatedAt := now }
    commit

def mayContinue (i : ℕ) (check : Service ControlState) : Service Bool := do
  let state ← checkControlState check
  match state with
  | .cancel => do
    setItemStatus i .canceled
    commit
    return false
  | .pause => do
    setItemStatus i .paused
    commit
    return false
  | _ => return true

/-- `step_handlers`. -/
def stepHandler (config : Configuration) (i : ℕ) (check : Service ControlState) :
    ItemStep → Service Bool
  | .createBucket => runCreateBucketStep config i
  | .copyBucketSettings => runCopyBucketSettings config i
  | .applyTargetLock => runApplyTargetLockStep config i
  | .preSync => runPreSync config i check
  | .awaitingCutover => runAwaitingCutover i
  | .applyReadOnly => runApplyReadOnly config i
  | .sync => runSync config i check
  | .verify => runVerify config i check
  | .completed => finishTerminalStep i

/-- The rounds of `_MigrationItemExecutionLoop.run`. -/
def itemLoop (config : Configuration) (i : ℕ) (check : Service ControlState) : ℕ → Service Unit
  | 0 => fail "the item loop goes on"
  | rounds + 1 => do
    persistHeartbeatIfDue i
    let continues ← mayContinue i check
    when continues do
      let _ ← itemExecutionStrategy i
      let item ← getItem i
      .perform (Op.enterHandler i item.step)
      let again ← stepHandler config i check item.step
      when again (itemLoop config i check rounds)

/-- `_run_item`: on a resumed item the write lock is put back first. -/
def runItem (config : Configuration) (i : ℕ) (check : Service ControlState) : Service Unit := do
  .perform (Op.enterItem i)
  let item ← getItem i
  when (item.targetCreatedByMigration && config.lockTargetWrites && !item.targetLockApplied) do
    applyTargetWriteLockPolicy config i
    commit
  let _ ← itemExecutionStrategy i
  let rounds ← choose "rounds of the item loop"
  itemLoop config i check rounds

end Migration
end BucketReef

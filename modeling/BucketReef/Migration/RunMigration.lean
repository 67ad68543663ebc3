import BucketReef.Migration.Preparation

/-!
# The run of a worker

What a worker does with a migration it has claimed: maintenance when one is queued, otherwise the
items in order and the end of the run.
-/

namespace BucketReef
namespace Migration

open Effects Service Prog

/-! ## Preconditions -/

/-- `_revalidate_source_transfer_preconditions`. -/
def revalidateSourceTransferPreconditions (i : ℕ) : Service Unit := do
  let unchanged ← ask "the source can be read and is as it was prepared"
  let _ ← itemExecutionStrategy i
  when (!unchanged) (fail "Source needs attention")

/-- `_revalidate_destination_transfer_preconditions`. -/
def revalidateDestinationTransferPreconditions (i : ℕ) : Service Unit := do
  let exists_ ← headBucket (.target i)
  let item ← getItem i
  when (exists_ = none || (exists_ = some true && !item.targetCreatedByMigration))
    (fail "Destination is unavailable or already exists. Check its name and permissions.")
  when (item.targetCreatedByMigration && exists_ ≠ some true)
    (fail "Destination created by this migration is missing. It cannot be resumed safely.")

/-- `_revalidate_transfer_preconditions` for one item. -/
def revalidateTransferPreconditions (i : ℕ) : Service Unit := do
  assertMigrationCreatorAccess
  remote "resolve the contexts"
  let item ← getItem i
  if item.status = .completed then return ()
  else if !item.preparationEffects.isEmpty then
    fail "Restore temporary changes before continuing"
  else do
    revalidateSourceTransferPreconditions i
    revalidateDestinationTransferPreconditions i

/-! ## The run -/

section Run

variable (config : Configuration) (workerId : String) (leaseSeconds : ℕ)

/-- `_prepare_migration_run`: whether to go on. -/
def prepareMigrationRun : Service Bool := do
  let migration ← getMigration
  if migration.workerLeaseOwner ≠ some workerId then return false
  else do
    let renewed ← renewLease leaseSeconds
    if !renewed then return false
    else do
      let migration ← getMigration
      if migration.status.final || migration.status = .awaitingCutover then do
        let owned ← clearOwnedWorkerLease workerId
        when owned commit
        return false
      else do
        when migration.status.active do
          when (!(migration.status = .pauseRequested || migration.status = .cancelRequested)) do
            .perform Op.markRunning
            refreshMigration
          setMigration fun now row => { row with updatedAt := now }
          commit
        return true

/-- `_stop_for_control_state`: whether the run ends here. -/
def stopForControlState (state : ControlState) : Service Bool :=
  match state with
  | .lostLease => return true
  | .cancel => do
    markCanceled config
    commit
    return true
  | .pause => do
    markPaused config
    commit
    return true
  | .run => return false

/-- The handler of `_execute_migration_item`: the item failed. -/
def recordItemFailure (i : ℕ) : Service Unit := do
  rollback
  let _ ← getMigration
  let _ ← getItem i
  setItemStatus i .failed
  commit

/-- `_execute_migration_item`: whether the run goes on. -/
def executeMigrationItem (i : ℕ) (check : Service ControlState) : Service Bool := do
  let executed ← (do
    revalidateTransferPreconditions i
    setItemStatus i .running
    commit
    runItem config i check : Service Unit).attempt
  match executed with
  | .ok _ => return true
  | .error .leaseLost => do
    rollback
    return false
  | .error _ => do
    recordItemFailure i
    return true

/-- One item of `_run_migration_items`; `some ()` ends the run. -/
def runMigrationItem (check : Service ControlState) (i : ℕ) : Service (Option Unit) := do
  refreshMigration
  assertMigrationCreatorAccess
  let state ← check
  let stopped ← stopForControlState config state
  if stopped then return some ()
  else do
    let item ← getItem i
    let migration ← getMigration
    if item.status = .completed || item.status = .failed || item.status = .canceled then return none
    else if config.mode = .preSync && migration.status = .awaitingCutover then do
      let owned ← clearOwnedWorkerLease workerId
      when owned commit
      return some ()
    else do
      let goesOn ← executeMigrationItem config i check
      return if goesOn then none else some ()

/-- The end of `run_migration`, when every item has been executed. -/
def finishMigrationRun (check : Service ControlState) : Service Unit := do
  refreshMigration
  assertWorkflowLease
  let state ← check
  let stopped ← stopForControlState config state
  if stopped then return ()
  else do
    refreshMigration
    assertWorkflowLease
    finalizeOrWaitCutover config
    let migration ← getMigration
    when (!migration.status.active) do
      let _ ← clearOwnedWorkerLease workerId
    commit

/-- `_run_migration_items` and the end of `run_migration`. -/
def transferItems : Service Unit := do
  let check := controlCheck workerId leaseSeconds
  let ended ← findM config.itemIds (runMigrationItem config workerId check)
  match ended with
  | some _ => return ()
  | none => finishMigrationRun config workerId check

def runMigration (hashing : Hashing) : Service Unit := do
  let migration ← getMigration
  assertWorkflowLease
  assertMigrationCreatorAccess
  if migration.maintenanceStatus.busy then runMaintenance hashing config workerId leaseSeconds
  else if !migration.status.active then return ()
  else do
    let prepared ← prepareMigrationRun workerId leaseSeconds
    when prepared do
      remote "resolve the contexts"
      transferItems config workerId leaseSeconds

/-- What the worker loop does with a claimed migration. -/
def processMigration (hashing : Hashing) : Service Unit :=
  (runMigration config workerId leaseSeconds hashing).tryCatch fun _ =>
    failMigrationFatal config workerId

/-- What the preparation loop does with a claimed draft; a failure is only logged. -/
def processPreparation : Service Unit :=
  (runPrecheck config workerId).tryCatch fun _ => return ()

end Run

end Migration
end BucketReef

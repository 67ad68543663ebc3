import BucketReef.Migration.PolicyGrants

/-!
# Ends of a run

How a worker publishes the end of its run: paused, waiting for cutover, canceled, finished, failed.
The status is assigned first; a cancellation then takes the protections off again, and one commit
writes everything.
-/

namespace BucketReef
namespace Migration

open Effects Service Prog

/-- The statuses of the items, in order. -/
def itemStatuses (config : Configuration) : Service (List ItemStatus) :=
  foldM config.itemIds (fun statuses i => do
    let item ← getItem i
    return statuses ++ [item.status]) []

def recomputeCounters (config : Configuration) : Service Unit := do
  let statuses ← itemStatuses config
  setMigration fun _ row => { row with
    totalItems := statuses.length
    completedItems := statuses.count .completed
    failedItems := statuses.count .failed
    canceledItems := statuses.count .canceled
    awaitingItems := statuses.count .awaitingCutover }

/-- A status with which the worker gives the migration back. -/
def publishStatus (status : MigrationStatus) : Service Unit :=
  setMigration fun now row => { row with
    status := status, workerLeaseOwner := none, workerLeaseUntil := none, updatedAt := now }

/-- Give the items whose status satisfies `from_` a new status. -/
def moveItems (config : Configuration) (from_ : ItemStatus → Bool) (to_ : ItemStatus) :
    Service Unit :=
  forEach config.itemIds fun i => do
    let item ← getItem i
    when (from_ item.status) (setItem i fun now row => { row with status := to_, updatedAt := now })

/-- `_mark_paused`. -/
def markPaused (config : Configuration) : Service Unit := do
  publishStatus .paused
  moveItems config (fun status => status = .running) .paused
  recomputeCounters config

/-- The item statuses a cancellation ends. -/
def ItemStatus.cancelable : ItemStatus → Bool
  | .pending | .running | .paused | .awaitingCutover => true
  | _ => false

/-- `_mark_canceled`; the restore errors end up in the error message. -/
def markCanceled (config : Configuration) : Service Unit := do
  publishStatus .canceled
  moveItems config ItemStatus.cancelable .canceled
  let _ ← releaseSourceReadOnlyPolicies config
  let _ ← releaseTargetWriteLocks config false
  recomputeCounters config

def BucketMigration.readyForCutover (migration : BucketMigration) (mode : MigrationMode) : Bool :=
  mode = .preSync && migration.awaitingItems > 0 &&
    migration.awaitingItems + migration.completedItems = migration.totalItems

def hasPendingMigrationItems (config : Configuration) : Service Bool := do
  let statuses ← itemStatuses config
  return statuses.any fun status => status = .pending || status = .running || status = .paused

def markMigrationFinished (config : Configuration) : Service Unit := do
  let migration ← getMigration
  publishStatus (if migration.failedItems > 0 then .completedWithErrors else .completed)
  let releaseErrors ← releaseTargetWriteLocks config true
  let migration ← getMigration
  when (!releaseErrors.isEmpty && migration.status = .completed)
    (setMigration fun _ row => { row with status := .completedWithErrors })

def finalizeOrWaitCutover (config : Configuration) : Service Unit := do
  recomputeCounters config
  let migration ← getMigration
  if migration.status = .cancelRequested then markCanceled config
  else if migration.status = .pauseRequested then markPaused config
  else if migration.readyForCutover config.mode then publishStatus .awaitingCutover
  else do
    let pending ← hasPendingMigrationItems config
    if pending then setMigration fun now row => { row with status := .running, updatedAt := now }
    else markMigrationFinished config

def publishFatalFailure (config : Configuration) (workerId : String) : Service Unit := do
  let migration ← getMigration
  if migration.workerLeaseOwner ≠ some workerId then return ()
  else if migration.maintenanceStatus.busy then do
    setMigration fun now row => { row with
      maintenanceStatus := .failed
      workerLeaseOwner := none
      workerLeaseUntil := none
      updatedAt := now }
    commit
  else if migration.status.final then do
    setMigration fun now row => { row with
      workerLeaseOwner := none, workerLeaseUntil := none, updatedAt := now }
    commit
  else do
    publishStatus .failed
    moveItems config (fun status => status = .running) .failed
    recomputeCounters config
    commit

/-- `fail_migration_fatal`, in a session of its own; an error in it is only logged. -/
def failMigrationFatal (config : Configuration) (workerId : String) : Service Unit := do
  .perform Op.newSession
  (publishFatalFailure config workerId).tryCatch fun _ => rollback

end Migration
end BucketReef

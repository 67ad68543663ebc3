import BucketReef.Migration.Records
import BucketReef.Migration.Machine

/-!
# Commands

The accepted commands of an operator. Each one is enabled by the workflow rules and fenced by a
guarded update, so that it takes effect on the rows it has read.
-/

namespace BucketReef
namespace Migration

/-! ## Workflow rules -/

/-- `_WorkflowFacts`. -/
structure WorkflowFacts where
  busy : Bool
  recovery : Bool
  draft : Bool
  results : Bool
  hasFailedItems : Bool
  hasAccessProtection : Bool
  remainingSourcesReadyForCleanup : Bool
  hasFailedCreatedTargets : Bool

def WorkflowFacts.fromMigration (migration : BucketMigration) (items : List BucketMigrationItem) :
    WorkflowFacts where
  busy := migration.status.active || migration.preparationStatus = .checking ||
    migration.maintenanceStatus.busy
  recovery := items.any fun item => !item.preparationEffects.isEmpty
  draft := migration.status = .draft
  results := migration.status.final
  hasFailedItems := items.any fun item => item.status = .failed
  hasAccessProtection := items.any fun item => item.readOnlyApplied || item.targetLockApplied
  remainingSourcesReadyForCleanup :=
    let remaining := items.filter fun item => !item.sourceDeleted
    !remaining.isEmpty && remaining.all fun item => item.status = .completed && item.readOnlyApplied
  hasFailedCreatedTargets := items.any fun item =>
    item.status = .failed && item.targetCreatedByMigration

def WorkflowFacts.idle (facts : WorkflowFacts) : Bool := !facts.busy && !facts.recovery

/-- `PRECHECK_MAX_AGE`, in seconds. -/
def precheckMaxAge : ℕ := 15 * 60

def preparationIsCurrent (migration : BucketMigration) (now : ℕ) : Bool :=
  migration.preparationStatus = .ready &&
    migration.precheckCheckedAt.any fun checkedAt => now ≤ checkedAt + precheckMaxAge

inductive Action
  | precheck | start | pause | resume | cutover | stop | retry
  | maintenance (operation : MaintenanceOperation)
  deriving DecidableEq, Repr

namespace World

def itemRows (w : World) : List BucketMigrationItem := w.config.itemIds.map w.items

def facts (w : World) : WorkflowFacts := .fromMigration w.migration w.itemRows

/-- `available_actions`. -/
def enabled (w : World) : Action → Bool
  | .precheck => w.facts.draft && w.facts.idle
  | .start => w.facts.draft && w.facts.idle && preparationIsCurrent w.migration w.clock
  | .pause => w.migration.status = .running || w.migration.status = .queued
  | .resume => w.migration.status = .paused && w.facts.idle
  | .cutover =>
    w.migration.status = .awaitingCutover && w.facts.idle && w.migration.failedItems = 0
  | .stop => (w.migration.status.active || w.migration.status = .paused ||
      w.migration.status = .awaitingCutover) && !w.migration.maintenanceStatus.busy
  | .retry => w.facts.results && w.facts.idle && w.facts.hasFailedItems
  | .maintenance .restoreAccess =>
    !w.facts.busy && (w.facts.recovery || w.facts.hasAccessProtection)
  | .maintenance .cleanupSource =>
    w.facts.results && w.facts.idle && w.facts.remainingSourcesReadyForCleanup
  | .maintenance .cleanupTarget =>
    w.facts.results && w.facts.idle && w.facts.hasFailedCreatedTargets

/-- The destination check of `_revalidate_transfer_preconditions`. -/
def destinationValid (w : World) (i : ℕ) : Bool :=
  (w.items i).status = .completed ||
    (w.buckets (.target i)).present = (w.items i).targetCreatedByMigration

/-! ## Commands -/

/-- The values with which a command hands the migration to the next worker. -/
def queuedForWorker (w : World) : BucketMigration :=
  { w.migration with
    status := .queued, workerLeaseOwner := none, workerLeaseUntil := none, updatedAt := w.clock }

/-- Apply `f` to the rows of the items. -/
def mapItems (w : World) (f : BucketMigrationItem → BucketMigrationItem) : World :=
  { w with items := fun i => f (w.items i) }

/-- `_recompute_counters`. -/
def recomputed (w : World) : World :=
  let statuses := w.itemRows.map BucketMigrationItem.status
  { w with migration := { w.migration with
      totalItems := statuses.length
      completedItems := statuses.count .completed
      failedItems := statuses.count .failed
      canceledItems := statuses.count .canceled
      awaitingItems := statuses.count .awaitingCutover } }

end World

namespace BucketMigrationItem

/-- The items `start_migration` sets back. -/
def started (mode : MigrationMode) (now : ℕ) (item : BucketMigrationItem) : BucketMigrationItem :=
  if item.status = .paused then { item with status := .pending, updatedAt := now }
  else if item.status = .awaitingCutover ∧ mode ≠ .preSync then
    { item with status := .pending, step := .applyReadOnly, updatedAt := now }
  else { item with updatedAt := now }

def resumed (now : ℕ) (item : BucketMigrationItem) : BucketMigrationItem :=
  if item.status = .paused then { item with status := .pending, updatedAt := now } else item

def cutOver (now : ℕ) (item : BucketMigrationItem) : BucketMigrationItem :=
  if item.status = .awaitingCutover then
    { item with status := .pending, step := .applyReadOnly, updatedAt := now }
  else item

/-- `_retry_step_for_failed_item`. -/
def retryStep (item : BucketMigrationItem) : ItemStep :=
  if item.step = .verify then .sync else item.step

/-- `_prepare_item_retry`. -/
def retried (now : ℕ) (item : BucketMigrationItem) : BucketMigrationItem :=
  { item with status := .pending, step := item.retryStep, updatedAt := now }

end BucketMigrationItem

inductive Command
  | requestPrecheck (activeChecks : Bool)
  | startMigration
  /-- A start whose preconditions have changed since the preparation. -/
  | startRejected
  | requestPause
  | resumeMigration
  | continueAfterPresync
  | stopMigration
  | retryItem (i : ℕ)
  | retryFailedItems
  | requestMaintenance (operation : MaintenanceOperation)
  deriving DecidableEq, Repr

/-- The rule `require_action` tests for a command. -/
def Command.action : Command → Action
  | .requestPrecheck _ => .precheck
  | .startMigration | .startRejected => .start
  | .requestPause => .pause
  | .resumeMigration => .resume
  | .continueAfterPresync => .cutover
  | .stopMigration => .stop
  | .retryItem _ | .retryFailedItems => .retry
  | .requestMaintenance operation => .maintenance operation

/-- What a command requires beyond its rule. -/
def Command.valid (w : World) : Command → Bool
  | .startMigration | .resumeMigration | .continueAfterPresync =>
    w.config.itemIds.all w.destinationValid
  | .retryItem i =>
    w.config.itemIds.contains i && (w.items i).status = .failed && w.destinationValid i
  | .retryFailedItems =>
    w.config.itemIds.all fun i => (w.items i).status ≠ .failed || w.destinationValid i
  | _ => true

/-- The rows after an accepted command. -/
def Command.effect (w : World) : Command → World
  | .requestPrecheck activeChecks =>
    { w with migration := { w.migration with
        preparationStatus := .checking
        preparationActiveChecks := activeChecks
        precheckCheckedAt := none
        workerLeaseOwner := none
        workerLeaseUntil := none
        updatedAt := w.clock } }
  | .startMigration =>
    { w.mapItems (BucketMigrationItem.started w.config.mode w.clock) with
      migration := w.queuedForWorker }
  | .startRejected =>
    { w with migration := { w.migration with preparationStatus := .stale } }
  | .requestPause =>
    { w with migration := { w.migration with status := .pauseRequested, updatedAt := w.clock } }
  | .resumeMigration =>
    { w.mapItems (BucketMigrationItem.resumed w.clock) with migration := w.queuedForWorker }
  | .continueAfterPresync =>
    { w.mapItems (BucketMigrationItem.cutOver w.clock) with migration := w.queuedForWorker }
  | .stopMigration =>
    { w with migration := { w.migration with status := .cancelRequested, updatedAt := w.clock } }
  | .retryItem i =>
    { w with
      items := Function.update w.items i ((w.items i).retried w.clock)
      migration := w.queuedForWorker : World }.recomputed
  | .retryFailedItems =>
    { w.mapItems (fun item => if item.status = .failed then item.retried w.clock else item) with
      migration := w.queuedForWorker : World }.recomputed
  | .requestMaintenance operation =>
    { w with migration := { w.migration with
        maintenanceStatus := .queued
        maintenanceOperation := some operation
        workerLeaseOwner := none
        workerLeaseUntil := none
        updatedAt := w.clock } }

/-- The world after a command; `none` when it is rejected without effect. -/
def World.command (w : World) (command : Command) : Option World :=
  if w.enabled command.action && command.valid w then some (command.effect w) else none

end Migration
end BucketReef

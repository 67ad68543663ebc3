import Mathlib.Data.List.Basic

/-!
# Workflow statuses

The statuses of a migration, of its preparation, of its maintenance and of its items, and the sets
the commands and the workers test them against.
-/

namespace BucketReef
namespace Migration

inductive MigrationStatus
  | draft | queued | running | pauseRequested | paused | awaitingCutover | cancelRequested
  | canceled | completed | completedWithErrors | failed
  deriving DecidableEq, Repr

inductive PreparationStatus
  | unverified | checking | blocked | ready | stale
  deriving DecidableEq, Repr

inductive MaintenanceStatus
  | idle | queued | running | failed | completed
  deriving DecidableEq, Repr

inductive ItemStatus
  | pending | running | awaitingCutover | paused | completed | failed | canceled
  deriving DecidableEq, Repr

/-- `ACTIVE_STATUSES`. -/
def MigrationStatus.active : MigrationStatus → Bool
  | .queued | .running | .pauseRequested | .cancelRequested => true
  | _ => false

/-- `FINAL_STATUSES`. -/
def MigrationStatus.final : MigrationStatus → Bool
  | .completed | .completedWithErrors | .failed | .canceled => true
  | _ => false

/-- Maintenance a worker has to run or is running. -/
def MaintenanceStatus.busy : MaintenanceStatus → Bool
  | .queued | .running => true
  | _ => false

end Migration
end BucketReef

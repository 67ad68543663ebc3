import BucketReef.Migration.Machine

/-!
# Leases and control

What a worker reads between two pieces of work: whether it still owns the migration, whether the
creator still has access, and whether a command asked it to pause or to stop.
-/

namespace BucketReef
namespace Migration

open Effects

namespace Service

def getMigration : Service BucketMigration := .perform Op.getMigration
def refreshMigration : Service Unit := .perform Op.refreshMigration
def setMigration (f : ℕ → BucketMigration → BucketMigration) : Service Unit :=
  .perform (Op.setMigration f)
def getItem (i : ℕ) : Service BucketMigrationItem := .perform (Op.getItem i)
def setItem (i : ℕ) (f : ℕ → BucketMigrationItem → BucketMigrationItem) : Service Unit :=
  .perform (Op.setItem i f)
def commit : Service Unit := .perform Op.commit
def rollback : Service Unit := .perform Op.rollback
def ask (question : String) : Service Bool := .perform (Op.ask question)
def choose (what : String) : Service ℕ := .perform (Op.choose what)
def remote (call : String) : Service Unit := .perform (Op.remote call)
def headBucket (b : BucketRef) : Service (Option Bool) := .perform (Op.headBucket b)
def getPolicy (b : BucketRef) : Service (Option Policy) := .perform (Op.getPolicy b)
def putPolicy (b : BucketRef) (policy : Policy) : Service Unit := .perform (Op.putPolicy b policy)
def deletePolicy (b : BucketRef) : Service Unit := .perform (Op.deletePolicy b)
def readControlRow : Service ControlRow := .perform Op.controlRow
def renewLease (leaseSeconds : ℕ) : Service Bool := .perform (Op.renewLease leaseSeconds)
def fail {α : Type} (message : String) : Service α := .raise (.failure message)

end Service

open Service Prog

/-- `_assert_workflow_lease`. -/
def assertWorkflowLease : Service Unit := .perform Op.assertLease

/-- `_assert_migration_creator_access`: a revoked access ends a transfer, not a preparation or a
maintenance. -/
def assertMigrationCreatorAccess : Service Unit := do
  let migration ← getMigration
  let allowed ← ask "the creator may use both contexts"
  when (!allowed) do
    when (!(migration.status = .draft || migration.maintenanceStatus.busy)) do
      setMigration fun now row => { row with status := .failed, updatedAt := now }
      commit
    raise .permission

inductive ControlState
  | lostLease | cancel | pause | run
  deriving DecidableEq, Repr

def ControlState.ofStatus : MigrationStatus → ControlState
  | .cancelRequested => .cancel
  | .pauseRequested => .pause
  | _ => .run

/-- The lease is missing or about to expire. -/
def ControlRow.shouldRefresh (row : ControlRow) (leaseSeconds : ℕ) : Bool :=
  row.workerLeaseUntil.all fun until_ => until_ ≤ row.now + max 5 (leaseSeconds / 3)

/-- `_control_state`. -/
def controlState (workerId : String) (leaseSeconds : ℕ) : Service ControlState := do
  let row ← readControlRow
  if row.workerLeaseOwner ≠ some workerId then return .lostLease
  else if row.shouldRefresh (max 15 leaseSeconds) then do
    let renewed ← renewLease (max 15 leaseSeconds)
    if renewed then do
      let migration ← getMigration
      return .ofStatus migration.status
    else return .lostLease
  else return .ofStatus row.status

/-- The `control_check` of `run_migration`. -/
def controlCheck (workerId : String) (leaseSeconds : ℕ) : Service ControlState := do
  let _ ← getMigration
  assertMigrationCreatorAccess
  controlState workerId leaseSeconds

/-- `check_control_state`. -/
def checkControlState (check : Service ControlState) : Service ControlState := do
  let state ← check
  if state = .lostLease then raise .leaseLost else return state

/-- `_clear_owned_worker_lease`, and whether there was one. -/
def clearOwnedWorkerLease (workerId : String) : Service Bool := do
  let migration ← getMigration
  if migration.workerLeaseOwner = some workerId then do
    setMigration fun _ row => { row with workerLeaseOwner := none, workerLeaseUntil := none }
    return true
  else return false

end Migration
end BucketReef

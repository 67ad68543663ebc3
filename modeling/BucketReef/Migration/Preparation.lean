import BucketReef.Migration.Maintenance

/-!
# Preparation

The checks of a draft. Active checks change the policy of a source for a moment and create a
temporary destination; what they change is recorded first, so that a later run can restore it. A
failed check becomes part of the report.
-/

namespace BucketReef
namespace Migration

open Effects Service Prog

/-- The `checkpoint` of a preparation: it stops when another worker owns the draft. -/
def preparationCheckpoint (workerId : String) : Service Unit := do
  assertWorkflowLease
  let row ← readControlRow
  if row.workerLeaseOwner ≠ some workerId then raise .leaseLost
  else do
    assertMigrationCreatorAccess
    setMigration fun now row => { row with updatedAt := now }
    commit

section Checks

variable (config : Configuration) (checkpoint : Service Unit) (i : ℕ)

/-- `_precheck_same_endpoint_copy_source_access`. -/
def precheckSameEndpointCopySourceAccess (activeChecks : Bool) : Service Unit := do
  remote "list_objects_v2"
  let sampled ← ask "the source has an object to sample"
  when sampled do
    let readable ← ask "the target context may read the sample object"
    when (!readable) do
      if config.autoGrantSourceReadForCopy && activeChecks then
        temporarySourceCopyGrant config (some checkpoint) i true (remote "head_object")
      else fail "Target context cannot read source objects required for x-amz-copy-source."

/-- `_probe_same_endpoint_copy`. -/
def probeSameEndpointCopy : Service Unit := do
  remote "list_objects_v2"
  let sampled ← ask "the source has an object to sample"
  if !sampled then fail "No source object is available to validate storage-side copy."
  else if config.autoGrantSourceReadForCopy then
    temporarySourceCopyGrant config (some checkpoint) i true (remote "copy_object")
  else remote "copy_object"

def migrationProbeBucketName : String := "bucketreef-mig-precheck"

/-- `_run_destination_probe`. -/
def runDestinationProbe : Service Unit := do
  .perform (Op.createBucket .probe)
  when config.copyBucketSettings (copyBucketSettings i .probe)
  when config.lockTargetWrites do
    let policy ← getPolicy .probe
    putPolicy .probe (buildTargetWriteLockPolicy migrationProbeBucketName policy)
  remote "put, tag and read a probe object"
  remote "complete and abort multipart uploads"
  when config.useSameEndpointCopy (probeSameEndpointCopy config checkpoint i)
  remote "remove the probe objects"

/-- `_precheck_destination`: the probe bucket is removed in any case. -/
def precheckDestination : Service Unit := do
  let policyTested := config.lockTargetWrites || config.copyBucketSettings
  journalPreparationEffect (some checkpoint) i .probeBucket { policyTested := policyTested }
  let probed ← (runDestinationProbe config checkpoint i).attempt
  (do
    cleanupDestinationProbeBucket policyTested
    clearPreparationEffect i .probeBucket).tryCatch fun _ =>
      fail "Temporary destination cleanup requires recovery"
  match probed with
  | .ok _ => return ()
  | .error e => raise e

/-- A check whose failure becomes a blocking entry of the report. -/
def reported (p : Service Unit) : Service Bool := do
  let result ← p.attempt
  return match result with
    | .ok _ => false
    | .error _ => true

/-- `_plan_item`: whether the item is blocked. -/
def planItem (activeChecks : Bool) : Service Bool := do
  let inspected ← ask "both buckets can be inspected"
  let versionAware ← ask "the source needs its versions copied"
  let copyFailed ← (if config.sameEndpointCopy && inspected then
      reported (precheckSameEndpointCopySourceAccess config checkpoint i activeChecks)
    else return false)
  let policyFailed ← (if inspected && activeChecks then
      reported (precheckPolicyRoundtrip config (some checkpoint) i)
    else return false)
  let destinationFailed ← (if inspected && activeChecks then
      reported (precheckDestination config checkpoint i)
    else return false)
  setItem i fun now row => { row with
    executionStrategy := some (if versionAware then .versionAware else .currentOnly)
    updatedAt := now }
  return !inspected || copyFailed || policyFailed || destinationFailed

end Checks

/-- The planner's `run`: whether an entry of the report blocks. -/
def planItems (config : Configuration) (checkpoint : Service Unit) (activeChecks : Bool) :
    Service Bool :=
  foldM config.itemIds (fun blocked i => do
    checkpoint
    let itemBlocked ← planItem config checkpoint i activeChecks
    checkpoint
    return blocked || itemBlocked) false

/-- The block of `run_precheck` whose failure is recorded. -/
def prepare (config : Configuration) (workerId : String) (activeChecks : Bool) : Service Unit := do
  let checkpoint := preparationCheckpoint workerId
  checkpoint
  recoverPreparationEffects config
  let blocked ← planItems config checkpoint activeChecks
  checkpoint
  let unrestored ← foldM config.itemIds (fun unrestored i => do
    let item ← getItem i
    return unrestored || !item.preparationEffects.isEmpty) false
  when unrestored (fail "Temporary changes could not be restored.")
  setMigration fun now row => { row with
    preparationStatus := if blocked then .blocked else if activeChecks then .ready else .unverified
    precheckCheckedAt := some now }

/-- `_record_precheck_failure`. -/
def recordPrecheckFailure (workerId : String) : Service Unit := do
  let migration ← getMigration
  if migration.workerLeaseOwner ≠ some workerId then raise .leaseLost
  else setMigration fun _ row => { row with preparationStatus := .blocked }

/-- The handlers of `run_precheck`. -/
def recordOutcome (workerId : String) : Except Error Unit → Service Unit
  | .ok _ => return ()
  | .error .leaseLost => do
    rollback
    raise .leaseLost
  | .error _ => do
    rollback
    recordPrecheckFailure workerId

def runPrecheck (config : Configuration) (workerId : String) : Service Unit := do
  let migration ← getMigration
  if migration.status ≠ .draft then fail "Only a current draft can be checked"
  else do
    assertWorkflowLease
    setMigration fun _ row => { row with preparationStatus := .checking }
    let prepared ← (prepare config workerId migration.preparationActiveChecks).attempt
    recordOutcome workerId prepared
    setMigration fun now row => { row with
      workerLeaseOwner := none, workerLeaseUntil := none, updatedAt := now }
    commit

end Migration
end BucketReef

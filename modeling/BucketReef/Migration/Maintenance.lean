import BucketReef.Migration.ItemRunner

/-!
# Recovery and cleanup

The maintenance operations a worker runs for a migration that is not active: restore access, delete
verified sources, delete the destinations of failed items.
-/

namespace BucketReef
namespace Migration

open Effects Service Prog

/-- The values `_cleanup_fingerprint` hashes for one entry. -/
structure FingerprintEntry where
  key : String
  deleteMarker : Bool
  /-- The sorted tags and the SHA-256 of the content; a delete marker has neither. -/
  contents : Option (List (String × String) × String) := none
  deriving DecidableEq, Repr

/-- The hash functions of a fingerprint. -/
structure Hashing where
  /-- `_stream_object_sha256`. -/
  contentHash : String → String
  /-- The sorted `(key, value)` pairs of a tag set. -/
  sortTags : List (String × String) → List (String × String)
  /-- The digest of the length-prefixed JSON documents of the entries. -/
  digest : List FingerprintEntry → String

/-! ## Restoring access -/

/-- `_cleanup_destination_probe_bucket`. -/
def cleanupDestinationProbeBucket (policyTested : Bool) : Service Unit := do
  assertWorkflowLease
  let exists_ ← headBucket .probe
  match exists_ with
  | none => fail "Unable to establish whether the temporary probe bucket still exists"
  | some exists_ => do
    when exists_ do
      when policyTested (deletePolicy .probe)
      .perform (Op.deleteBucket .probe)
    let remains ← headBucket .probe
    when (remains ≠ some false) (fail "Temporary bucket removal could not be verified")

/-- `_recover_preparation_effects`. -/
def recoverPreparationEffects (config : Configuration) : Service Unit :=
  forEach config.itemIds fun i => do
    let item ← getItem i
    forEach item.preparationEffects fun effect => do
      assertWorkflowLease
      (if effect.1 = .probeBucket then cleanupDestinationProbeBucket effect.2.policyTested
        else restoreCheckedPolicy (.source i) effect.2.policy)
      clearPreparationEffect i effect.1

/-- `_restore_migration_access`, with the buckets that could not be restored. -/
def restoreMigrationAccess (config : Configuration) : Service (List String) := do
  recoverPreparationEffects config
  let sourceErrors ← releaseSourceReadOnlyPolicies config
  let targetErrors ← releaseTargetWriteLocks config false
  forEach config.itemIds fun i => do
    let item ← getItem i
    when (!item.sourceDeleted) (setItem i fun _ row => { row with cleanupVerification := none })
  let migration ← getMigration
  when (migration.status = .draft)
    (setMigration fun _ row => { row with preparationStatus := .stale })
  return sourceErrors ++ targetErrors

/-! ## Deleting a bucket -/

/-- The keys with a current object, in a history from oldest to newest. -/
def currentKeys (history : List StoredVersion) : List String :=
  (history.map StoredVersion.key).dedup.filter fun key =>
    (history.filter fun v => v.key = key).getLast?.any fun v => !v.isDeleteMarker

/-- Delete one object or version; a failure is counted, the others are still deleted. -/
def purgeEntry (b : BucketRef) (check : Service Unit) (failed : Bool) (key : String)
    (versionId : Option String) : Service Bool := do
  let due ← ask "the next batch starts"
  when due check
  let deleted ← (Prog.perform (Op.deleteObject b key versionId) : Service Unit).attempt
  return match deleted with
    | .ok _ => failed
    | .error _ => true

/-- `purge_bucket_contents` with `include_versions`: whether the bucket is missing. -/
def purgeBucketContents (b : BucketRef) (check : Service Unit) : Service Bool := do
  let exists_ ← headBucket b
  match exists_ with
  | none => fail "list_objects_v2 is denied"
  | some false => return true
  | some true => do
    let objects ← .perform (Op.listHistory b)
    let failed ← foldM (currentKeys objects) (fun failed key =>
      purgeEntry b check failed key none) false
    let versions ← .perform (Op.listHistory b)
    let failed ← foldM versions (fun failed version =>
      purgeEntry b check failed version.key (some version.versionId)) failed
    when failed (fail "Bucket cleanup did not remove every object/version.")
    return false

/-- `_delete_maintenance_bucket`. -/
def deleteMaintenanceBucket (b : BucketRef) (check : Service Unit) : Service Unit := do
  check
  let missing ← purgeBucketContents b check
  check
  when (!missing) (.perform (Op.deleteBucket b))
  let remains ← headBucket b
  when (remains ≠ some false) (fail "Bucket removal could not be verified")

/-! ## Cleaning up a destination -/

/-- `_cleanup_failed_target`. -/
def cleanupFailedTarget (config : Configuration) (i : ℕ) (check : Service Unit) : Service Unit := do
  remote "list the source"
  let _ ← itemExecutionStrategy i
  let item ← getItem i
  when (!item.targetLockApplied) (applyTargetWriteLockPolicy config i)
  commit
  deleteMaintenanceBucket (.target i) check
  let remains ← headBucket (.target i)
  when (remains ≠ some false) (fail "Destination removal could not be verified")
  setItem i fun _ row => { row with
    targetCreatedByMigration := false
    targetLockApplied := false
    targetPolicyBackup := none
    preSyncWatermark := none
    cutoverAttempted := false
    targetVersioningFinalized := false
    preSyncDone := false
    step := .createBucket }

/-! ## Cleaning up a source -/

section Cleanup

variable (hashing : Hashing) (config : Configuration)

/-- `_cleanup_fingerprint_entry_value`. -/
def cleanupFingerprintEntryValue (b : BucketRef) (version : StoredVersion) :
    Service FingerprintEntry :=
  if version.isDeleteMarker then return { key := version.key, deleteMarker := true }
  else do
    let tags ← .perform (Op.objectTags b version.key version.versionId)
    let content ← .perform (Op.objectContent b version.key version.versionId)
    return { key := version.key, deleteMarker := false,
             contents := some (hashing.sortTags tags, hashing.contentHash content) }

/-- `_cleanup_fingerprint`. -/
def cleanupFingerprint (b : BucketRef) (check : Service Unit) : Service String := do
  let history ← .perform (Op.listHistory b)
  let entries ← foldM history (fun entries version => do
    check
    let value ← cleanupFingerprintEntryValue hashing b version
    return entries ++ [value]) []
  check
  return hashing.digest entries

/-- `_verify_source_cleanup_contents`: whether the item had a receipt already. -/
def verifySourceCleanupContents (i : ℕ) (check : Service Unit) : Service Bool := do
  let item ← getItem i
  let receipt := item.cleanupVerification
  (if !item.targetLockApplied then applyTargetWriteLockPolicy config i
    else putPolicy (.target i)
      (buildTargetWriteLockPolicy (config.targetBucket i) item.targetPolicyBackup))
  let targetHash ← cleanupFingerprint hashing (.target i) check
  match receipt with
  | some receipt => do
    when (receipt ≠ targetHash)
      (fail "Verified destination changed since deletion began. Source cleanup is blocked.")
    return true
  | none => do
    commit
    applyReadOnlyPolicy config i
    let sourceHash ← cleanupFingerprint hashing (.source i) check
    if sourceHash ≠ targetHash then
      fail "Fresh SHA-256 verification found different contents, tags or version history."
    else do
      setItem i fun _ row => { row with cleanupVerification := some targetHash }
      commit
      return false

/-- `_delete_verified_source_bucket`. -/
def deleteVerifiedSourceBucket (i : ℕ) (receipt : Bool) (check : Service Unit) : Service Unit := do
  check
  let exists_ ← headBucket (.source i)
  match exists_ with
  | none => fail "Source existence could not be verified"
  | some exists_ => do
    when exists_ do
      let item ← getItem i
      let policy := buildSourceCleanupPolicy (config.sourceBucket i) item.sourcePolicyBackup
      when receipt do
        let current ← getPolicy (.source i)
        when (current ≠ some policy) (fail "Source protection changed after deletion began.")
      putPolicy (.source i) policy
      check
      deleteMaintenanceBucket (.source i) check
    let remains ← headBucket (.source i)
    when (remains ≠ some false) (fail "Source removal could not be verified")

/-- `_finalize_verified_source_cleanup`. -/
def finalizeVerifiedSourceCleanup (i : ℕ) : Service Unit := do
  setItem i fun _ row => { row with
    sourceDeleted := true, readOnlyApplied := false, sourcePolicyBackup := none }
  commit
  let item ← getItem i
  restoreCheckedPolicy (.target i) item.targetPolicyBackup
  setItem i fun _ row => { row with targetLockApplied := false, targetPolicyBackup := none }

/-- `_cleanup_verified_source`. -/
def cleanupVerifiedSource (i : ℕ) (check : Service Unit) : Service Unit := do
  let item ← getItem i
  if !item.targetCreatedByMigration then
    fail "Destination provenance is missing; source deletion is blocked"
  else do
    let receipt ← verifySourceCleanupContents hashing config i check
    deleteVerifiedSourceBucket config i receipt check
    finalizeVerifiedSourceCleanup i

/-! ## The run -/

/-- `_maintenance_item_selected`. -/
def maintenanceItemSelected (operation : Option MaintenanceOperation)
    (item : BucketMigrationItem) : Bool :=
  if operation = some .cleanupSource then item.status = .completed && !item.sourceDeleted
  else item.status = .failed && item.targetCreatedByMigration

/-- One item of `_run_cleanup_maintenance`: whether it failed. A lost lease ends the run. -/
def runCleanupItem (check : Service Unit) (errors : List String) (i : ℕ) : Service (List String) := do
  let migration ← getMigration
  let item ← getItem i
  if !maintenanceItemSelected migration.maintenanceOperation item then return errors
  else do
    let cleaned ← (do
      check
      let migration ← getMigration
      if migration.maintenanceOperation = some .cleanupSource then
        cleanupVerifiedSource hashing config i check
      else cleanupFailedTarget config i check : Service Unit).attempt
    let errors ← (match cleaned with
      | .ok _ => return errors
      | .error .leaseLost => raise .leaseLost
      | .error _ => do
        rollback
        return errors ++ [config.sourceBucket i] : Service (List String))
    assertWorkflowLease
    setItem i fun now row => { row with updatedAt := now }
    commit
    return errors

/-- `_finish_maintenance_run`. -/
def finishMaintenanceRun (errors : List String) : Service Unit := do
  assertWorkflowLease
  setMigration fun now row => { row with
    maintenanceStatus := if errors.isEmpty then .completed else .failed
    workerLeaseOwner := none
    workerLeaseUntil := none
    updatedAt := now }
  commit

/-- The `check` of `run_maintenance`. -/
def maintenanceCheck (workerId : String) (leaseSeconds : ℕ) : Service Unit := do
  assertWorkflowLease
  refreshMigration
  assertMigrationCreatorAccess
  let state ← controlState workerId leaseSeconds
  when (state = .lostLease) (raise .leaseLost)

/-- The block of `run_maintenance` whose failure ends up in the errors. -/
def maintain (workerId : String) (leaseSeconds : ℕ) : Service (List String) := do
  maintenanceCheck workerId leaseSeconds
  remote "resolve the contexts"
  let migration ← getMigration
  if migration.maintenanceOperation = some .restoreAccess then restoreMigrationAccess config
  else do
    foldM config.itemIds
      (runCleanupItem hashing config (maintenanceCheck workerId leaseSeconds)) []

def runMaintenance (workerId : String) (leaseSeconds : ℕ) : Service Unit := do
  let migration ← getMigration
  if migration.workerLeaseOwner ≠ some workerId then return ()
  else do
    assertWorkflowLease
    assertMigrationCreatorAccess
    setMigration fun now row => { row with maintenanceStatus := .running, updatedAt := now }
    commit
    let maintained ← (maintain hashing config workerId leaseSeconds).attempt
    match maintained with
    | .ok errors => finishMaintenanceRun errors
    | .error .leaseLost => rollback
    | .error _ => do
      rollback
      finishMaintenanceRun ["the recovery operation failed"]

end Cleanup

end Migration
end BucketReef

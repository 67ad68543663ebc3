import BucketReef.Migration.Policy
import BucketReef.Migration.Workflow
import BucketReef.Versions.Replay

/-!
# Migration records

The rows of one migration and of its items, the buckets they name, and the ORM objects a session
holds of the rows. An ORM object keeps the values it was loaded with: a commit writes the attributes
that differ from them and leaves every other column of the row as it is.
-/

namespace BucketReef
namespace Migration

inductive MigrationMode
  | oneShot | preSync
  deriving DecidableEq, Repr

inductive Strategy
  | currentOnly | versionAware
  deriving DecidableEq, Repr

inductive ItemStep
  | createBucket | copyBucketSettings | applyTargetLock | preSync | awaitingCutover | applyReadOnly
  | sync | verify | completed
  deriving DecidableEq, Repr

inductive MaintenanceOperation
  | restoreAccess | cleanupSource | cleanupTarget
  deriving DecidableEq, Repr

/-- The keys of `preparation_effects`. -/
inductive EffectName
  | probeBucket | sourceCopyGrant | sourcePolicy
  deriving DecidableEq, Repr

/-- A recovery record. Its context and bucket are those of the item, or the probe bucket. -/
structure PreparationEffect where
  policy : Option Policy := none
  policyTested : Bool := false
  deriving DecidableEq, Repr

/-- The columns of `bucket_migrations` that change while it runs. -/
structure BucketMigration where
  status : MigrationStatus := .draft
  preparationStatus : PreparationStatus := .unverified
  preparationActiveChecks : Bool := false
  precheckCheckedAt : Option ℕ := none
  maintenanceStatus : MaintenanceStatus := .idle
  maintenanceOperation : Option MaintenanceOperation := none
  workerLeaseOwner : Option String := none
  workerLeaseUntil : Option ℕ := none
  totalItems : ℕ := 0
  completedItems : ℕ := 0
  failedItems : ℕ := 0
  canceledItems : ℕ := 0
  awaitingItems : ℕ := 0
  updatedAt : ℕ := 0
  deriving DecidableEq, Repr

structure BucketMigrationItem where
  status : ItemStatus := .pending
  step : ItemStep := .createBucket
  preSyncDone : Bool := false
  readOnlyApplied : Bool := false
  targetLockApplied : Bool := false
  targetCreatedByMigration : Bool := false
  preparationEffects : List (EffectName × PreparationEffect) := []
  sourceDeleted : Bool := false
  /-- The `target_sha256` of the receipt. -/
  cleanupVerification : Option String := none
  objectsCopied : ℕ := 0
  objectsDeleted : ℕ := 0
  executionStrategy : Option Strategy := none
  preSyncWatermark : Option Versions.Watermark := none
  cutoverAttempted : Bool := false
  targetVersioningFinalized : Bool := false
  sourcePolicyBackup : Option Policy := none
  targetPolicyBackup : Option Policy := none
  updatedAt : ℕ := 0
  deriving DecidableEq, Repr

/-- What the operator configured before the start. -/
structure Configuration where
  mode : MigrationMode := .preSync
  copyBucketSettings : Bool := false
  strongIntegrityCheck : Bool := false
  lockTargetWrites : Bool := true
  useSameEndpointCopy : Bool := false
  autoGrantSourceReadForCopy : Bool := false
  sameEndpoint : Bool := false
  parallelismMax : ℕ := 16
  itemIds : List ℕ
  sourceBucket : ℕ → String
  targetBucket : ℕ → String

/-- An object version or delete marker, in the order the version listing yields them. -/
structure StoredVersion where
  key : String
  versionId : String
  isDeleteMarker : Bool := false
  tags : List (String × String) := []
  content : String := ""
  /-- The marker was put by the purge of the bucket; not visible in S3. -/
  byPurge : Bool := false
  deriving DecidableEq, Repr

structure Bucket where
  present : Bool := true
  policy : Option Policy := none
  history : List StoredVersion := []
  deriving DecidableEq, Repr

inductive BucketRef
  | source (item : ℕ) | target (item : ℕ) | probe
  deriving DecidableEq, Repr

/-! ## ORM objects -/

/-- What an attribute assignment leaves in its column: an unchanged value is not written. -/
def pick {α : Type} [DecidableEq α] (base current row : α) : α :=
  if current = base then row else current

@[simp] theorem pick_base {α : Type} [DecidableEq α] (base row : α) : pick base base row = row :=
  if_pos rfl

/-- With the row as it was loaded, the commit writes the object. -/
@[simp] theorem pick_row {α : Type} [DecidableEq α] (row current : α) : pick row current row = current := by
  unfold pick
  split
  · rename_i h
    exact h.symm
  · rfl

def BucketMigration.merge (base current row : BucketMigration) : BucketMigration where
  status := pick base.status current.status row.status
  preparationStatus := pick base.preparationStatus current.preparationStatus row.preparationStatus
  preparationActiveChecks :=
    pick base.preparationActiveChecks current.preparationActiveChecks row.preparationActiveChecks
  precheckCheckedAt := pick base.precheckCheckedAt current.precheckCheckedAt row.precheckCheckedAt
  maintenanceStatus := pick base.maintenanceStatus current.maintenanceStatus row.maintenanceStatus
  maintenanceOperation :=
    pick base.maintenanceOperation current.maintenanceOperation row.maintenanceOperation
  workerLeaseOwner := pick base.workerLeaseOwner current.workerLeaseOwner row.workerLeaseOwner
  workerLeaseUntil := pick base.workerLeaseUntil current.workerLeaseUntil row.workerLeaseUntil
  totalItems := pick base.totalItems current.totalItems row.totalItems
  completedItems := pick base.completedItems current.completedItems row.completedItems
  failedItems := pick base.failedItems current.failedItems row.failedItems
  canceledItems := pick base.canceledItems current.canceledItems row.canceledItems
  awaitingItems := pick base.awaitingItems current.awaitingItems row.awaitingItems
  updatedAt := pick base.updatedAt current.updatedAt row.updatedAt

def BucketMigrationItem.merge (base current row : BucketMigrationItem) : BucketMigrationItem where
  status := pick base.status current.status row.status
  step := pick base.step current.step row.step
  preSyncDone := pick base.preSyncDone current.preSyncDone row.preSyncDone
  readOnlyApplied := pick base.readOnlyApplied current.readOnlyApplied row.readOnlyApplied
  targetLockApplied := pick base.targetLockApplied current.targetLockApplied row.targetLockApplied
  targetCreatedByMigration :=
    pick base.targetCreatedByMigration current.targetCreatedByMigration row.targetCreatedByMigration
  preparationEffects :=
    pick base.preparationEffects current.preparationEffects row.preparationEffects
  sourceDeleted := pick base.sourceDeleted current.sourceDeleted row.sourceDeleted
  cleanupVerification :=
    pick base.cleanupVerification current.cleanupVerification row.cleanupVerification
  objectsCopied := pick base.objectsCopied current.objectsCopied row.objectsCopied
  objectsDeleted := pick base.objectsDeleted current.objectsDeleted row.objectsDeleted
  executionStrategy := pick base.executionStrategy current.executionStrategy row.executionStrategy
  preSyncWatermark := pick base.preSyncWatermark current.preSyncWatermark row.preSyncWatermark
  cutoverAttempted := pick base.cutoverAttempted current.cutoverAttempted row.cutoverAttempted
  targetVersioningFinalized :=
    pick base.targetVersioningFinalized current.targetVersioningFinalized
      row.targetVersioningFinalized
  sourcePolicyBackup :=
    pick base.sourcePolicyBackup current.sourcePolicyBackup row.sourcePolicyBackup
  targetPolicyBackup :=
    pick base.targetPolicyBackup current.targetPolicyBackup row.targetPolicyBackup
  updatedAt := pick base.updatedAt current.updatedAt row.updatedAt

/-- An ORM object: the values it was loaded with, and its attributes. -/
structure Loaded (α : Type) where
  base : α
  current : α
  deriving DecidableEq, Repr

namespace BucketMigrationItem

/-- The columns that record what the migration did to the buckets. -/
structure Journal where
  preSyncDone : Bool
  readOnlyApplied : Bool
  targetLockApplied : Bool
  targetCreatedByMigration : Bool
  preparationEffects : List (EffectName × PreparationEffect)
  sourceDeleted : Bool
  cleanupVerification : Option String
  sourcePolicyBackup : Option Policy
  targetPolicyBackup : Option Policy
  deriving DecidableEq, Repr

def journal (item : BucketMigrationItem) : Journal :=
  ⟨item.preSyncDone, item.readOnlyApplied, item.targetLockApplied, item.targetCreatedByMigration,
    item.preparationEffects, item.sourceDeleted, item.cleanupVerification, item.sourcePolicyBackup,
    item.targetPolicyBackup⟩

end BucketMigrationItem

end Migration
end BucketReef

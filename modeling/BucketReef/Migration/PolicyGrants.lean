import BucketReef.Migration.Control

/-!
# Temporary and durable policy changes

Every change of a bucket policy is recorded before it is made: a temporary one in
`preparation_effects`, the read-only deny and the write lock in the backup columns of the item.
-/

namespace BucketReef
namespace Migration

open Effects Service Prog

/-! ## Temporary changes -/

def EffectName.recorded (name : EffectName) (item : BucketMigrationItem) : Bool :=
  item.preparationEffects.any fun effect => effect.1 = name

/-- `_journal_preparation_effect`; a preparation checks its revision and lease first. -/
def journalPreparationEffect (checkpoint : Option (Service Unit)) (i : ℕ) (name : EffectName)
    (payload : PreparationEffect) : Service Unit := do
  assertWorkflowLease
  checkpoint.getD (return ())
  let item ← getItem i
  if name.recorded item then
    fail "An earlier temporary change needs restoration before another test"
  else do
    setItem i fun now row => { row with
      preparationEffects := row.preparationEffects ++ [(name, payload)], updatedAt := now }
    commit

def clearPreparationEffect (i : ℕ) (name : EffectName) : Service Unit := do
  assertWorkflowLease
  setItem i fun now row => { row with
    preparationEffects := row.preparationEffects.filter fun effect => effect.1 ≠ name
    updatedAt := now }
  commit

/-- Put a policy, or delete it. -/
def writePolicy (b : BucketRef) (policy : Option Policy) : Service Unit :=
  match policy with
  | some policy => putPolicy b policy
  | none => deletePolicy b

def restoreCheckedPolicy (b : BucketRef) (policy : Option Policy) : Service Unit := do
  assertWorkflowLease
  writePolicy b policy
  let restored ← getPolicy b
  when (truthy restored ≠ truthy policy) (fail "Policy restoration could not be verified for bucket")

def restoreSourceCopyGrantPolicy (i : ℕ) (backup : Option Policy) : Service Unit := do
  assertWorkflowLease
  writePolicy (.source i) (withoutManagedPolicyStatement sourceCopyGrantPolicySid backup)

/-- The principals of `_source_copy_grant_principal_candidates`. -/
def sourceCopyGrantPrincipalCandidates : Service (List String) := do
  let count ← choose "principal candidates of the target context"
  return (List.range count).map fun k => "arn:aws:iam:::user/candidate-" ++ toString k

/-- `_select_source_copy_grant_principal`: the first candidate whose grant lets the target context
read the sample object. -/
def selectSourceCopyGrantPrincipal (config : Configuration) (i : ℕ) (backup : Option Policy)
    (sample : Bool) (candidates : List String) : Service (Option String) :=
  findM candidates fun candidate => do
    assertWorkflowLease
    putPolicy (.source i) (buildSourceCopyGrantPolicy (config.sourceBucket i) backup candidate)
    if sample then do
      let readable ← ask "the target context may read the sample object"
      return if readable then some candidate else none
    else return some candidate

def temporarySourceCopyGrantUnjournaled {α : Type} (config : Configuration) (i : ℕ) (sample : Bool)
    (body : Service α) : Service α := do
  let backup ← getPolicy (.source i)
  let candidates ← sourceCopyGrantPrincipalCandidates
  when candidates.isEmpty
    (fail "Target context identity is not supported for temporary source-read grant.")
  let principal ← selectSourceCopyGrantPrincipal config i backup sample candidates
  if principal.isNone then do
    -- the failure to restore is only logged
    (restoreSourceCopyGrantPolicy i backup).tryCatch fun _ => return ()
    fail "Temporary source-read grant could not be validated"
  else body.tryFinally (restoreSourceCopyGrantPolicy i backup)

/-- `_temporary_source_copy_grant`, around the block of its `with` statement. -/
def temporarySourceCopyGrant {α : Type} (config : Configuration) (checkpoint : Option (Service Unit))
    (i : ℕ) (sample : Bool) (body : Service α) : Service α := do
  let backup ← getPolicy (.source i)
  journalPreparationEffect checkpoint i .sourceCopyGrant { policy := backup }
  (temporarySourceCopyGrantUnjournaled config i sample body).tryFinally do
    restoreCheckedPolicy (.source i) backup
    clearPreparationEffect i .sourceCopyGrant

/-- `_precheck_policy_roundtrip`. -/
def precheckPolicyRoundtrip (config : Configuration) (checkpoint : Option (Service Unit)) (i : ℕ) :
    Service Unit := do
  let existing ← getPolicy (.source i)
  journalPreparationEffect checkpoint i .sourcePolicy { policy := existing }
  (putPolicy (.source i) (buildReadOnlyPolicy (config.sourceBucket i) existing true)).tryFinally do
    restoreCheckedPolicy (.source i) existing
    clearPreparationEffect i .sourcePolicy

/-! ## Protections -/

/-- `_set_managed_block_policy` with `deny_delete`. -/
def setManagedBlockPolicy (config : Configuration) (i : ℕ) : Service Unit := do
  assertWorkflowLease
  let existing ← getPolicy (.source i)
  putPolicy (.source i) (buildReadOnlyPolicy (config.sourceBucket i) existing true)

def applyReadOnlyPolicy (config : Configuration) (i : ℕ) : Service Unit := do
  assertWorkflowLease
  let item ← getItem i
  if item.readOnlyApplied then setManagedBlockPolicy config i
  else do
    let existing ← getPolicy (.source i)
    setItem i fun _ row => { row with sourcePolicyBackup := existing, readOnlyApplied := true }
    commit
    putPolicy (.source i) (buildReadOnlyPolicy (config.sourceBucket i) existing true)

def applyTargetWriteLockPolicy (config : Configuration) (i : ℕ) : Service Unit := do
  assertWorkflowLease
  let item ← getItem i
  if item.targetLockApplied then return ()
  else do
    let existing ← getPolicy (.target i)
    setItem i fun _ row => { row with targetPolicyBackup := existing, targetLockApplied := true }
    commit
    putPolicy (.target i) (buildTargetWriteLockPolicy (config.targetBucket i) existing)

def restoreTargetWriteLockPolicy (i : ℕ) : Service Unit := do
  assertWorkflowLease
  let item ← getItem i
  writePolicy (.target i) item.targetPolicyBackup

def removeManagedTargetWriteLockStatement (i : ℕ) : Service Unit := do
  let existing ← getPolicy (.target i)
  writePolicy (.target i) (withoutManagedPolicyStatement targetWriteLockPolicySid existing)

def verifyRestoredBucketPolicy (b : BucketRef) (expected : Option Policy) : Service Unit := do
  let current ← getPolicy b
  when (expected ≠ current) (fail "Policy verification mismatch after restore on bucket")

/-- Take the write lock off a destination: with its backup, or by removing the managed statement. -/
def liftTargetWriteLock (i : ℕ) : Service Unit := do
  let item ← getItem i
  (if item.targetPolicyBackup.isSome then restoreTargetWriteLockPolicy i
    else removeManagedTargetWriteLockStatement i)
  verifyRestoredBucketPolicy (.target i) item.targetPolicyBackup

/-- `_release_target_write_locks`, with the buckets whose lock could not be released. -/
def releaseTargetWriteLocks (config : Configuration) (preserveAwaiting : Bool) :
    Service (List String) :=
  foldM config.itemIds (fun errors i => do
    let item ← getItem i
    if preserveAwaiting && item.status = .awaitingCutover then return errors
    else if !(item.targetLockApplied || item.targetPolicyBackup.isSome) then return errors
    else
      (do
        assertWorkflowLease
        liftTargetWriteLock i
        setItem i fun now row => { row with
          targetLockApplied := false, targetPolicyBackup := none, updatedAt := now }
        return errors).tryCatch fun _ => return errors ++ [config.targetBucket i]) []

/-- `_release_source_read_only_policies`, with the buckets whose policy could not be restored. -/
def releaseSourceReadOnlyPolicies (config : Configuration) : Service (List String) :=
  foldM config.itemIds (fun errors i => do
    let item ← getItem i
    if !(item.readOnlyApplied || item.sourcePolicyBackup.isSome) then return errors
    else
      (do
        assertWorkflowLease
        restoreCheckedPolicy (.source i) item.sourcePolicyBackup
        verifyRestoredBucketPolicy (.source i) item.sourcePolicyBackup
        setItem i fun now row => { row with
          readOnlyApplied := false, sourcePolicyBackup := none, updatedAt := now }
        return errors).tryCatch fun _ => return errors ++ [config.sourceBucket i]) []

end Migration
end BucketReef

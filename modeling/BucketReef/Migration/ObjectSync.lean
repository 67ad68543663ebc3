import BucketReef.Migration.Progress
import BucketReef.Versions.Watermark

/-!
# Object synchronization

The long loops of a run: they copy and delete objects, record their progress on the item, and check
between two objects whether to go on. An interrupted loop returns `none`. What an object call does
to the objects is left open here; the loops differ in where they check and where they commit.
-/

namespace BucketReef
namespace Migration

open Effects Service Prog

/-! ## Progress -/

/-- The counters of a `_SyncProgressTracker`. -/
structure SyncProgress where
  pendingCopied : ℕ := 0
  pendingDeleted : ℕ := 0
  deriving DecidableEq, Repr

def syncProgressFlushObjectsThreshold : ℕ := 500

namespace SyncProgress

def persist (i : ℕ) (progress : SyncProgress) : Service SyncProgress := do
  setItem i fun now row => { row with
    objectsCopied := row.objectsCopied + progress.pendingCopied
    objectsDeleted := row.objectsDeleted + progress.pendingDeleted
    updatedAt := now }
  setMigration fun now row => { row with updatedAt := now }
  commit
  return {}

def flush (i : ℕ) (force : Bool) (progress : SyncProgress) : Service SyncProgress :=
  let totalPending := progress.pendingCopied + progress.pendingDeleted
  if totalPending = 0 then return progress
  else if !force && totalPending < syncProgressFlushObjectsThreshold then do
    let elapsed ← ask "the flush interval has elapsed"
    if elapsed then progress.persist i else return progress
  else progress.persist i

def record (i : ℕ) (copied deleted : ℕ) (force : Bool) (progress : SyncProgress) :
    Service SyncProgress :=
  flush i force ⟨progress.pendingCopied + copied, progress.pendingDeleted + deleted⟩

/-- `check_control`: a lost lease flushes before it is raised. -/
def checkControl (i : ℕ) (check : Service ControlState) (progress : SyncProgress) :
    Service (ControlState × SyncProgress) := do
  let state ← check
  if state = .lostLease then do
    let _ ← progress.flush i true
    raise .leaseLost
  else if state = .pause || state = .cancel then do
    let progress ← progress.flush i true
    return (state, progress)
  else return (state, progress)

end SyncProgress

/-- The reaction of a loop to a control check of its own: go on, stop, or raise, always after a
forced flush. -/
def interrupted (i : ℕ) (state : ControlState) (progress : SyncProgress) :
    Service (Bool × SyncProgress) :=
  if state = .lostLease then do
    let _ ← progress.record i 0 0 true
    raise .leaseLost
  else if state = .pause || state = .cancel then do
    let progress ← progress.record i 0 0 true
    return (true, progress)
  else return (false, progress)

/-! ## Parallel actions -/

inductive ProgressIncrement
  | copied | deleted
  deriving DecidableEq, Repr

def SyncProgress.increment (i : ℕ) (increment : ProgressIncrement) (progress : SyncProgress) :
    Service SyncProgress :=
  match increment with
  | .copied => progress.record i 1 0 false
  | .deleted => progress.record i 0 1 false

/-- The state a chunk will be interrupted with: a lost lease wins over an earlier request. -/
def interruptedState (earlier : Option ControlState) (state : ControlState) : Option ControlState :=
  match state with
  | .lostLease => some .lostLease
  | .pause | .cancel => some (earlier.getD state)
  | .run => earlier

/-- The wait loop over the futures of a chunk, for as many rounds as it takes. -/
def awaitActions (i : ℕ) (check : Service ControlState) (increment : ProgressIncrement) :
    ℕ → ℕ → Option ControlState → SyncProgress → Service (Option ControlState × SyncProgress)
  | _, 0, interruptedBy, progress => return (interruptedBy, progress)
  | 0, _ + 1, _, _ => fail "the wait for the futures goes on"
  | rounds + 1, pending + 1, interruptedBy, progress => do
    let done ← choose "futures done in this round"
    let state ← check
    let progress ← foldM (List.range (min done (pending + 1))) (fun progress _ => do
      remote "future.result"
      progress.increment i increment) progress
    awaitActions i check increment rounds (pending + 1 - min done (pending + 1))
      (interruptedState interruptedBy state) progress

def runActionsChunkSizeMultiplier : ℕ := 32

/-- `chunked`. -/
def chunked (keys : List String) (size : ℕ) : List (List String) :=
  if size = 0 then [] else keys.toChunks size

/-- `_run_parallel_actions`; `none` when it was interrupted. -/
def runParallelActions (config : Configuration) (i : ℕ) (check : Service ControlState)
    (increment : ProgressIncrement) (keys : List String) (progress : SyncProgress) :
    Service (Option ℕ × SyncProgress) := do
  let workerCount := max 1 (min config.parallelismMax keys.length)
  let chunks := chunked keys (max workerCount (workerCount * runActionsChunkSizeMultiplier))
  let (completed, progress) ← foldM chunks (fun (completed, progress) chunk =>
    match completed with
    | none => return (none, progress)
    | some completed => do
      let state ← check
      let (stopped, progress) ← interrupted i state progress
      if stopped then return (none, progress)
      else do
        let rounds ← choose "rounds of the wait loop"
        let (state, progress) ← awaitActions i check increment rounds chunk.length none progress
        let (stopped, progress) ← interrupted i (state.getD .run) progress
        return (if stopped then none else some (completed + chunk.length), progress))
    (some 0, progress)
  match completed with
  | none => return (none, progress)
  | some completed => do
    let progress ← (if keys.isEmpty then pure progress else progress.record i 0 0 true)
    return (some completed, progress)

/-! ## Current objects -/

def diffControlCheckIntervalObjects : ℕ := 5000

/-- The locals of a `_CurrentObjectSyncRunner`. -/
structure SyncRun where
  copied : ℕ := 0
  deleted : ℕ := 0
  copyBatch : List String := []
  deleteBatch : List String := []
  scanCountSinceControl : ℕ := 0
  copyGrantEnabled : Bool := false
  progress : SyncProgress := {}

section CurrentObjects

variable (config : Configuration) (i : ℕ) (check : Service ControlState)

def actionBatchSize : ℕ :=
  let workerCount := max 1 config.parallelismMax
  max workerCount (workerCount * runActionsChunkSizeMultiplier)

def SyncRun.mayContinue (run : SyncRun) : Service (Bool × SyncRun) := do
  let (state, progress) ← run.progress.checkControl i check
  return (!(state = .pause || state = .cancel), { run with progress := progress })

def SyncRun.flushCopyBatch (run : SyncRun) : Service (Bool × SyncRun) :=
  if run.copyBatch.isEmpty then return (true, run)
  else do
    let (copied, progress) ← runParallelActions config i check .copied run.copyBatch run.progress
    match copied with
    | none => return (false, { run with copyBatch := [], progress := progress })
    | some copied =>
      return (true, { run with copyBatch := [], copied := run.copied + copied, progress := progress })

def SyncRun.flushDeleteBatch (run : SyncRun) : Service (Bool × SyncRun) :=
  if run.deleteBatch.isEmpty then return (true, run)
  else do
    let (deleted, progress) ←
      runParallelActions config i check .deleted run.deleteBatch run.progress
    match deleted with
    | none => return (false, { run with deleteBatch := [], progress := progress })
    | some deleted =>
      return (true,
        { run with deleteBatch := [], deleted := run.deleted + deleted, progress := progress })

def SyncRun.queueCopy (key : String) (run : SyncRun) : Service (Bool × SyncRun) := do
  let run := { run with copyBatch := run.copyBatch ++ [key] }
  if run.copyBatch.length < actionBatchSize config then return (true, run)
  else do
    let (continues, run) ← run.mayContinue i check
    if continues then run.flushCopyBatch config i check else return (false, run)

def SyncRun.queueDelete (key : String) (run : SyncRun) : Service (Bool × SyncRun) := do
  let run := { run with deleteBatch := run.deleteBatch ++ [key] }
  if run.deleteBatch.length < actionBatchSize config then return (true, run)
  else do
    let (continues, run) ← run.mayContinue i check
    if continues then run.flushDeleteBatch config i check else return (false, run)

/-- `_finish_batches`; `none` when it was interrupted. -/
def SyncRun.finishBatches (run : SyncRun) : Service (Option SyncRun) := do
  let (continues, run) ← run.mayContinue i check
  if !continues then return none
  else do
    let (continues, run) ← run.flushCopyBatch config i check
    if !continues then return none
    else do
      let (continues, run) ← run.flushDeleteBatch config i check
      return if continues then some run else none

/-- The check of `_process_entry`, every `diffControlCheckIntervalObjects` entries. -/
def SyncRun.scanEntry (run : SyncRun) : Service (Bool × SyncRun) :=
  if run.scanCountSinceControl + 1 ≥ diffControlCheckIntervalObjects then do
    let (continues, run) ← run.mayContinue i check
    return (continues, { run with scanCountSinceControl := 0 })
  else return (true, { run with scanCountSinceControl := run.scanCountSinceControl + 1 })

def Configuration.sameEndpointCopy (config : Configuration) : Bool :=
  config.sameEndpoint && config.useSameEndpointCopy

/-- `_ensure_copy_grant`: the first copied object opens the grant, around the rest of the loop. -/
def ensureCopyGrant (run : SyncRun) (rest : SyncRun → Service (Option SyncRun)) :
    Service (Option SyncRun) :=
  if !config.sameEndpointCopy || !config.autoGrantSourceReadForCopy || run.copyGrantEnabled then
    rest run
  else temporarySourceCopyGrant config none i true (rest { run with copyGrantEnabled := true })

/-- The loop over the merged listing, up to the end of the `with` statement. -/
def syncEntries (allowDelete : Bool) : List DiffEntry → SyncRun → Service (Option SyncRun)
  | [], run => run.finishBatches config i check
  | entry :: entries, run => do
    remote "list_objects_v2"
    let (continues, run) ← run.scanEntry i check
    if !continues then return none
    else match entry with
      | .onlySource key | .different key => ensureCopyGrant config i run fun run => do
        let (continues, run) ← run.queueCopy config i check key
        if continues then syncEntries allowDelete entries run else return none
      | .onlyTarget key =>
        if allowDelete then do
          let (continues, run) ← run.queueDelete config i check key
          if continues then syncEntries allowDelete entries run else return none
        else syncEntries allowDelete entries run
      | .matched => syncEntries allowDelete entries run

/-- `_CurrentObjectSyncRunner.run`: whether it was completed. -/
def syncCurrentObjects (allowDelete : Bool) : Service Bool := do
  let entries ← .perform Op.diffEntries
  let finished ← syncEntries config i check allowDelete entries {}
  match finished with
  | none => return false
  | some run =>
    if run.copied = 0 && run.deleted = 0 then return true
    else do
      let _ ← run.progress.flush i true
      commit
      return true

end CurrentObjects

/-! ## Object versions -/

section ObjectVersions

variable (config : Configuration) (i : ℕ) (check : Service ControlState)

/-- The locals of `_replay_bucket_versions`. -/
structure ReplayRun where
  copied : ℕ := 0
  scanCountSinceControl : ℕ := 0
  progress : SyncProgress := {}
  stopped : Bool := false

/-- One entry of a timeline. -/
def replayEntry (watermark : Option Versions.Watermark) (run : ReplayRun) : Service ReplayRun := do
  remote "list_object_versions"
  let (stopped, run) ← (if run.scanCountSinceControl + 1 ≥ diffControlCheckIntervalObjects then do
      let state ← check
      let (stopped, progress) ← interrupted i state run.progress
      return (stopped, { run with scanCountSinceControl := 0, progress := progress })
    else return (false, { run with scanCountSinceControl := run.scanCountSinceControl + 1 }))
  if stopped then return { run with stopped := true }
  else do
    let replayed ← (if watermark.isSome then ask "the entry is after the watermark" else return true)
    if !replayed then return run
    else do
      remote "copy the version or put its delete marker"
      let progress ← run.progress.record i 1 0 false
      return { run with copied := run.copied + 1, progress := progress }

/-- `_replay_bucket_versions`; `none` when it was interrupted. -/
def replayBucketVersions (watermark : Option Versions.Watermark) (progress : SyncProgress) :
    Service (Option (Option Versions.Watermark × SyncProgress)) := do
  let count ← choose "entries of all timelines"
  let run ← foldM (List.range count) (fun run _ =>
    if run.stopped then return run else replayEntry i check watermark run) { progress := progress }
  if run.stopped then return none
  else do
    let progress ← run.progress.record i 0 0 true
    let replayed ← .perform Op.replayedWatermark
    return some (replayed, progress)

/-- `_select_replay_plan`; the attempt of a delta replay is committed first. -/
def storeReplayPlan : Service Versions.ReplayPlan := do
  let item ← getItem i
  let plan := Versions.selectReplayPlan (config.mode = .preSync) item.preSyncDone
    item.readOnlyApplied ⟨item.preSyncWatermark, item.cutoverAttempted⟩
  when (plan.replayMode = .cutoverDelta) do
    setItem i fun now row => { row with cutoverAttempted := true, updatedAt := now }
    commit
  return plan

def purgeTargetIfNeeded (plan : Versions.ReplayPlan) (progress : SyncProgress) :
    Service SyncProgress :=
  if plan.purgeBeforeReplay then do
    let deleted ← choose "objects and versions purged from the destination"
    if deleted > 0 then progress.record i 0 deleted true else return progress
  else return progress

/-- `_replay_versions`, inside the copy grant when the copies need one. -/
def replayVersions (plan : Versions.ReplayPlan) (progress : SyncProgress) :
    Service (Option (Option Versions.Watermark × SyncProgress)) := do
  let sampled ← (if config.sameEndpointCopy && config.autoGrantSourceReadForCopy then
      ask "the preparation sampled a version"
    else return false)
  if sampled then
    temporarySourceCopyGrant config none i true (replayBucketVersions i check plan.watermark progress)
  else replayBucketVersions i check plan.watermark progress

/-- `_compare_versioned_timelines`: whether the histories match; `none` when it was interrupted. -/
def compareVersionedTimelines : Service (Option Bool) := do
  let count ← choose "keys of both buckets"
  let stopped ← findM (List.range count) fun scanned => do
    remote "list_object_versions"
    let state ← (if (scanned + 1) % 200 = 0 then checkControlState check else return .run)
    if state = .pause || state = .cancel then return some ()
    else do
      remote "compare the timelines of a key"
      return none
  if stopped.isSome then return none
  else do
    let clean ← ask "the histories match"
    return some clean

/-- `_VersionAwareObjectSyncRunner.run`: whether it was completed. -/
def syncObjectVersions : Service Bool := do
  let plan ← storeReplayPlan config i
  remote "set_versioning"
  let progress ← purgeTargetIfNeeded i plan {}
  let replayed ← replayVersions config i check plan progress
  match replayed with
  | none => return false
  | some (watermark, progress) => do
    when (plan.replayMode = .preSyncFull) (setItem i fun _ row => { row with
      preSyncWatermark := watermark, cutoverAttempted := false })
    let _ ← progress.flush i true
    let compared ← compareVersionedTimelines check
    if compared.isNone then return false
    else do
      commit
      return true

end ObjectVersions

/-- `_item_execution_strategy`. -/
def itemExecutionStrategy (i : ℕ) : Service Strategy := do
  let item ← getItem i
  match item.executionStrategy with
  | some strategy => return strategy
  | none => fail "Migration item is missing a valid execution strategy."

/-- `_sync_bucket`: whether it was completed. -/
def syncBucket (config : Configuration) (i : ℕ) (check : Service ControlState)
    (allowDelete : Bool) : Service Bool := do
  let strategy ← itemExecutionStrategy i
  match strategy with
  | .versionAware => syncObjectVersions config i check
  | .currentOnly => syncCurrentObjects config i check allowDelete

/-! ## Verification -/

/-- `_compare_buckets_streamed`: whether the buckets match; `none` when it was interrupted. -/
def compareBucketsStreamed (check : Service ControlState) (strategy : Strategy) :
    Service (Option Bool) :=
  match strategy with
  | .versionAware => compareVersionedTimelines check
  | .currentOnly => do
    let entries ← .perform Op.diffEntries
    let stopped ← findM entries.zipIdx fun (_, scanned) => do
      remote "list_objects_v2"
      let state ← (if (scanned + 1) % diffControlCheckIntervalObjects = 0 then
          checkControlState check
        else return .run)
      return if state = .pause || state = .cancel then some () else none
    return if stopped.isSome then none else some (entries.all fun entry => entry = .matched)

/-- The wait loop of `_run_strong_verification_batch`, for as many rounds as it takes. -/
def awaitVerifications (check : Service ControlState) :
    ℕ → Option ControlState → Service (Option ControlState)
  | 0, interruptedBy => return interruptedBy
  | rounds + 1, interruptedBy => do
    let state ← check
    awaitVerifications check rounds (interruptedState interruptedBy state)

/-- `_run_strong_verification_batch`: whether it was completed. -/
def runStrongVerificationBatch (check : Service ControlState) : Service Bool := do
  let state ← checkControlState check
  if state = .pause || state = .cancel then return false
  else do
    let rounds ← choose "rounds of the wait loop"
    let interruptedBy ← awaitVerifications check rounds none
    if interruptedBy = some .lostLease then raise .leaseLost
    else return interruptedBy.isNone

/-- `_strong_verify_size_only_candidates_streamed`: whether every candidate was verified; `none`
when it was interrupted. -/
def strongVerifySizeOnlyCandidatesStreamed (check : Service ControlState) :
    Service (Option Bool) := do
  let batches ← choose "batches of size-only candidates"
  let stopped ← findM (List.range batches) fun _ => do
    remote "list the objects up to the next batch"
    let scanned ← ask "the scan reaches a control check"
    let state ← (if scanned then checkControlState check else return .run)
    if state = .pause || state = .cancel then return some ()
    else do
      let completed ← runStrongVerificationBatch check
      return if completed then none else some ()
  if stopped.isSome then return none
  else do
    let verified ← ask "every candidate has the same content"
    return some verified

end Migration
end BucketReef

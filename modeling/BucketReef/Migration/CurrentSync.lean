import BucketReef.Effects.Transitions
import BucketReef.Lists.Cursor
import BucketReef.Migration.CurrentObjects

/-!
# The synchronization of current objects

`_CurrentObjectSyncRunner` as a state machine, for a run that no control check interrupts and whose
actions succeed. The target is listed page by page while the runner copies into it and deletes from
it; the source does not change. The labels choose the pages of the target, the order in which the
workers of a chunk finish, and the entity tags of the copies. Progress, events and the copy grant
touch none of this.
-/

namespace BucketReef
namespace CurrentObjects

open Versions Transitions Lists

structure SyncOptions where
  parallelismMax : ℕ
  /-- `RUN_ACTIONS_CHUNK_SIZE_MULTIPLIER`. -/
  chunkSizeMultiplier : ℕ := 32
  allowDelete : Bool
  deriving DecidableEq, Repr

/-- The number of keys a batch takes. -/
def SyncOptions.actionBatchSize (options : SyncOptions) : ℕ :=
  let workerCount := max 1 options.parallelismMax
  max workerCount (workerCount * options.chunkSizeMultiplier)

/-- The number of keys `_run_parallel_actions` submits at a time. -/
def SyncOptions.chunkSize (options : SyncOptions) (keys : ℕ) : ℕ :=
  let workerCount := max 1 (min options.parallelismMax keys)
  max workerCount (workerCount * options.chunkSizeMultiplier)

/-! ## The diff that is returned -/

structure SyncDiff where
  sourceCount : ℕ := 0
  targetCount : ℕ := 0
  matchedCount : ℕ := 0
  differentCount : ℕ := 0
  onlySourceCount : ℕ := 0
  onlyTargetCount : ℕ := 0
  onlySourceSample : List String := []
  onlyTargetSample : List String := []
  differentSample : List BucketDiffEntry := []
  deriving DecidableEq, Repr

def recordDiffEntry (diff : SyncDiff) (entry : BucketDiffEntry) : SyncDiff :=
  match entry.kind with
  | .onlySource => { diff with
      sourceCount := diff.sourceCount + 1
      onlySourceCount := diff.onlySourceCount + 1
      onlySourceSample := appendSample diff.onlySourceSample entry.key }
  | .onlyTarget => { diff with
      targetCount := diff.targetCount + 1
      onlyTargetCount := diff.onlyTargetCount + 1
      onlyTargetSample := appendSample diff.onlyTargetSample entry.key }
  | .matched => { diff with
      sourceCount := diff.sourceCount + 1
      targetCount := diff.targetCount + 1
      matchedCount := diff.matchedCount + 1 }
  | .different => { diff with
      sourceCount := diff.sourceCount + 1
      targetCount := diff.targetCount + 1
      differentCount := diff.differentCount + 1
      differentSample := appendSample diff.differentSample entry }

/-! ## The target bucket -/

variable {kind : ContentKind}

/-- The listing once the object is stored; it replaces an object of its key. -/
def put (object : StoredObject kind) (target : List (StoredObject kind)) :
    List (StoredObject kind) :=
  (target.filter fun other => other.key < object.key) ++
    object :: target.filter fun other => object.key < other.key

def remove (key : String) (target : List (StoredObject kind)) : List (StoredObject kind) :=
  target.filter fun other => other.key ≠ key

/-! ## The runner -/

inductive Action
  | copy | delete
  deriving DecidableEq, Repr

inductive Phase
  /-- Entries are merged and queued. -/
  | merging
  /-- A batch is run, chunk by chunk. -/
  | acting (action : Action) (running waiting : List String) (completed : ℕ)
  | finished
  deriving DecidableEq, Repr

structure SyncRunner (kind : ContentKind) where
  /-- The source objects that the merge has still to read. -/
  sourceRest : List (StoredObject kind)
  /-- The target bucket, now. -/
  target : List (StoredObject kind)
  /-- The last target object that was listed. -/
  position : Option (StoredObject kind) := none
  /-- The listed target objects that the merge has still to read. -/
  buffered : List (StoredObject kind) := []
  /-- The last page had no continuation token. -/
  ended : Bool := false
  copied : ℕ := 0
  deleted : ℕ := 0
  copyBatch : List String := []
  deleteBatch : List String := []
  diff : SyncDiff := {}
  phase : Phase := .merging

/-- Which entries are queued for the action. -/
def required (options : SyncOptions) : Action → BucketDiffEntry → Bool
  | .copy => copyRequired
  | .delete => deleteRequired options.allowDelete

namespace SyncRunner

variable (s : SyncRunner kind)

def batch : Action → List String
  | .copy => s.copyBatch
  | .delete => s.deleteBatch

def count : Action → ℕ
  | .copy => s.copied
  | .delete => s.deleted

/-- What the next pages of the target hold. -/
def unread : List (StoredObject kind) :=
  if s.ended then [] else s.target.filter (isAfter StoredObject.key s.position)

/-- The generator has no further entry. -/
def exhausted : Bool := s.sourceRest.isEmpty && s.buffered.isEmpty && s.ended

/-- The runner asks the generator for an entry. -/
def asks (options : SyncOptions) : Bool :=
  s.phase = .merging && s.copyBatch.length < options.actionBatchSize &&
    s.deleteBatch.length < options.actionBatchSize

/-- The batch is full, or it is its turn in `_finish_batches`. -/
def due (options : SyncOptions) (action : Action) : Bool :=
  !(s.batch action).isEmpty &&
    (options.actionBatchSize ≤ (s.batch action).length ||
      s.exhausted && (action = .copy || s.copyBatch.isEmpty))

def processEntry (options : SyncOptions) (entry : BucketDiffEntry) : SyncRunner kind :=
  { s with
    diff := recordDiffEntry s.diff entry
    copyBatch := if copyRequired entry then s.copyBatch ++ [entry.key] else s.copyBatch
    deleteBatch :=
      if deleteRequired options.allowDelete entry then s.deleteBatch ++ [entry.key]
      else s.deleteBatch }

/-- What a flush does with the result of its actions. -/
def collect (completed : ℕ) : Action → SyncRunner kind
  | .copy => { s with copied := s.copied + completed, copyBatch := [], phase := .merging }
  | .delete => { s with deleted := s.deleted + completed, deleteBatch := [], phase := .merging }

end SyncRunner

inductive Label (kind : ContentKind)
  /-- The next `size` objects of the target are listed, with a continuation token or without. -/
  | page (size : ℕ) (more : Bool)
  | entry
  | flush (action : Action)
  | submit
  /-- A worker stored the copy. -/
  | copied (object : StoredObject kind)
  | deleted (key : String)
  | collect
  | finish

variable [DecidableEq kind.Content] (options : SyncOptions) (source : List (StoredObject kind))

/-- The object has the content that the source has under its key. -/
def isCopy (object : StoredObject kind) : Bool :=
  source.any fun original => original.key = object.key && original.content = object.content

def step (s : SyncRunner kind) : Label kind → Option (SyncRunner kind)
  | .page size more =>
    if s.asks options && s.buffered.isEmpty && !s.ended && (more || s.unread.length ≤ size) then
      some { s with
        position := (s.unread.take size).getLast?.or s.position
        buffered := s.unread.take size
        ended := !more }
    else none
  | .entry =>
    if s.asks options && (!s.buffered.isEmpty || s.ended) then
      (nextDiffEntry s.sourceRest s.buffered).map fun (entry, sources, targets) =>
        { s.processEntry options entry with sourceRest := sources, buffered := targets }
    else none
  | .flush action =>
    if s.phase = .merging && s.due options action then
      some { s with phase := .acting action [] (s.batch action) 0 }
    else none
  | .submit =>
    match s.phase with
    | .acting action [] (key :: waiting) completed =>
      let size := options.chunkSize (s.batch action).length
      some { s with
        phase := .acting action ((key :: waiting).take size) ((key :: waiting).drop size) completed }
    | _ => none
  | .copied object =>
    match s.phase with
    | .acting .copy running waiting completed =>
      if object.key ∈ running ∧ isCopy source object = true then
        some { s with
          target := put object s.target
          phase := .acting .copy (running.erase object.key) waiting (completed + 1) }
      else none
    | _ => none
  | .deleted key =>
    match s.phase with
    | .acting .delete running waiting completed =>
      if key ∈ running then
        some { s with
          target := remove key s.target
          phase := .acting .delete (running.erase key) waiting (completed + 1) }
      else none
    | _ => none
  | .collect =>
    match s.phase with
    | .acting action [] [] completed => some (s.collect completed action)
    | _ => none
  | .finish =>
    if s.phase = .merging && s.exhausted && s.copyBatch.isEmpty && s.deleteBatch.isEmpty then
      some { s with phase := .finished }
    else none

def started (target : List (StoredObject kind)) : SyncRunner kind :=
  { sourceRest := source, target := target }

/-- The states of the runs from a target bucket. -/
def Reachable (target : List (StoredObject kind)) (s : SyncRunner kind) : Prop :=
  Reached (step options source) anyStep (started source target) s

end CurrentObjects
end BucketReef

import BucketReef.Comparison.Agreement
import BucketReef.Lists.Slices
import BucketReef.Migration.SyncConvergence
import BucketReef.Purge.DeleteObjects

/-!
# Remediation

`remediate_bucket_content` copies or deletes the keys it is given. The copies run in a pool of workers:
the labels choose which call answers next, how it fails and whether it took effect before it failed. The
source does not change meanwhile.
-/

namespace BucketReef
namespace Comparison

open CurrentObjects Lists Purge Transitions

inductive BucketCompareRemediationAction
  | syncSourceOnly
  | syncDifferent
  | deleteTargetOnly
  deriving DecidableEq, Repr

structure BucketCompareRemediationResult where
  action : BucketCompareRemediationAction
  plannedCount : ℕ
  succeededCount : ℕ
  failedCount : ℕ
  failedKeysSample : List String
  deriving DecidableEq, Repr

/-! ## Copies -/

/-- The remote call of `_copy_single_object` that has not answered. -/
inductive CopyCall
  | copyObject
  | getObject
  | uploadFileobj
  deriving DecidableEq, Repr

structure CopyTask where
  key : String
  call : CopyCall
  deriving DecidableEq, Repr

variable {kind : ContentKind}

structure CopyRunner (kind : ContentKind) where
  target : List (StoredObject kind)
  waiting : List String
  running : List CopyTask
  /-- The keys whose futures returned; the source keeps their number. -/
  succeeded : List String
  failed : List String

namespace CopyRunner

def start (target : List (StoredObject kind)) (keys : List String) : CopyRunner kind where
  target := target
  waiting := keys
  running := []
  succeeded := []
  failed := []

def finished (s : CopyRunner kind) : Bool := s.waiting.isEmpty && s.running.isEmpty

/-- The task goes on with another call. -/
def next (s : CopyRunner kind) (task : CopyTask) (call : CopyCall) : CopyRunner kind :=
  { s with running := ⟨task.key, call⟩ :: s.running.erase task }

def succeed (s : CopyRunner kind) (task : CopyTask) : CopyRunner kind :=
  { s with running := s.running.erase task, succeeded := s.succeeded ++ [task.key] }

def fail (s : CopyRunner kind) (task : CopyTask) : CopyRunner kind :=
  { s with running := s.running.erase task, failed := s.failed ++ [task.key] }

def store (s : CopyRunner kind) (object : StoredObject kind) : CopyRunner kind :=
  { s with target := put object s.target }

end CopyRunner

inductive CopyLabel (kind : ContentKind)
  /-- A worker takes the next key. -/
  | start
  /-- `copy_object` is denied. -/
  | denied (task : CopyTask)
  /-- `get_object` returns. -/
  | read (task : CopyTask)
  /-- `copy_object` or `upload_fileobj` returns. -/
  | stored (task : CopyTask) (object : StoredObject kind)
  /-- The call raises. -/
  | raised (task : CopyTask)
  /-- The call raises although the object is stored. -/
  | raisedStored (task : CopyTask) (object : StoredObject kind)

def workerCount (parallelism : ℕ) (keys : List String) : ℕ :=
  max 1 (min (max 1 (min 32 parallelism)) keys.length)

section Steps

variable [DecidableEq kind.Content] (source : List (StoredObject kind)) (workers : ℕ)
  (sameEndpoint : Bool)

/-- The call stores the object under its key, with the content of the source. -/
def stores (s : CopyRunner kind) (task : CopyTask) (object : StoredObject kind) : Bool :=
  task ∈ s.running && task.call ≠ .getObject && object.key = task.key && isCopy source object

/-- One step of the pool of `_copy_objects`. -/
def copyStep (s : CopyRunner kind) : CopyLabel kind → Option (CopyRunner kind)
  | .start =>
    match s.waiting with
    | [] => none
    | key :: waiting =>
      if s.running.length < workers then
        some { s with
          waiting := waiting
          running := ⟨key, if sameEndpoint then .copyObject else .getObject⟩ :: s.running }
      else none
  | .denied task =>
    if task ∈ s.running ∧ task.call = .copyObject then some (s.next task .getObject) else none
  | .read task =>
    if task ∈ s.running ∧ task.call = .getObject ∧ hasKey source task.key = true then
      some (s.next task .uploadFileobj)
    else none
  | .stored task object =>
    if stores source s task object then some ((s.store object).succeed task) else none
  | .raised task => if task ∈ s.running then some (s.fail task) else none
  | .raisedStored task object =>
    if stores source s task object then some ((s.store object).fail task) else none

end Steps

/-! ## Deletions -/

/-- What `delete_objects` does with a chunk. -/
structure DeleteAnswer where
  removed : List String
  /-- `none` when the call raises. -/
  response : Option Response
  deriving Repr

/-- S3 removes only what it is asked to, and all that it reports no error for. -/
structure DeleteAnswer.Honest (chunk : List String) (answer : DeleteAnswer) : Prop where
  requested : ∀ key ∈ answer.removed, key ∈ chunk
  accepted : ∀ response, answer.response = some response → ∀ key ∈ chunk,
    response.accepts ⟨key, none⟩ → key ∈ answer.removed

def chunkObjects (chunk : List String) : List Item := chunk.map fun key => ⟨key, none⟩

/-- `_delete_objects`: what is left of the bucket, and the count and the failed keys unless it raises. -/
def deleteObjects (sanitize : Sanitize) :
    List (List String × DeleteAnswer) → List (StoredObject kind) →
      List (StoredObject kind) × Option (ℕ × List String)
  | [], target => (target, some (0, []))
  | (chunk, answer) :: chunks, target =>
    let left := target.filter fun object => object.key ∉ answer.removed
    match answer.response.bind (parseDeleteObjectsFailures sanitize (chunkObjects chunk)) with
    | none => (left, none)
    | some failures =>
      let rest := deleteObjects sanitize chunks left
      (rest.1, rest.2.map fun counts => (chunk.length - failures.length + counts.1,
        sortedBy id (failures.map ObjectDeletionFailure.key) ++ counts.2))

/-! ## Actions -/

/-- The arguments of `remediate_bucket_content` beside the buckets. -/
structure Remediation where
  action : BucketCompareRemediationAction
  keys : List String
  sameEndpoint : Bool
  parallelism : ℕ
  failedKeysSampleLimit : ℕ
  deriving DecidableEq, Repr

def Remediation.result (remediation : Remediation) (succeeded : ℕ) (failed : List String) :
    BucketCompareRemediationResult where
  action := remediation.action
  plannedCount := remediation.keys.length
  succeededCount := succeeded
  failedCount := failed.length
  failedKeysSample := (sortedBy id failed).take (max 1 remediation.failedKeysSampleLimit)

section Runs

variable [DecidableEq kind.Content] (sanitize : Sanitize) (source : List (StoredObject kind))

/-- The action turns one target into another; `failed` are its failed keys, or all its keys where it
raises. -/
inductive Remediated (remediation : Remediation) (target : List (StoredObject kind)) :
    List (StoredObject kind) → List String → Option BucketCompareRemediationResult → Prop
  | copied {s : CopyRunner kind} :
      remediation.action ≠ .deleteTargetOnly →
      Reached (copyStep source (workerCount remediation.parallelism remediation.keys)
        remediation.sameEndpoint) anyStep (CopyRunner.start target remediation.keys) s →
      s.finished = true →
      Remediated remediation target s.target s.failed
        (some (remediation.result s.succeeded.length s.failed))
  | deleted {answers : List (List String × DeleteAnswer)} {left : List (StoredObject kind)}
      {count : ℕ} {failed : List String} :
      remediation.action = .deleteTargetOnly →
      answers.map Prod.fst = slices 1000 remediation.keys →
      (∀ answer ∈ answers, answer.2.Honest answer.1) →
      deleteObjects sanitize answers target = (left, some (count, failed)) →
      Remediated remediation target left failed (some (remediation.result count failed))
  | raised {answers : List (List String × DeleteAnswer)} {left : List (StoredObject kind)} :
      remediation.action = .deleteTargetOnly →
      answers.map Prod.fst = slices 1000 remediation.keys →
      (∀ answer ∈ answers, answer.2.Honest answer.1) →
      deleteObjects sanitize answers target = (left, none) →
      Remediated remediation target left remediation.keys none

/-- Actions one after another, with the keys that failed in any of them. -/
inductive RemediatedAll : List Remediation → List (StoredObject kind) → List (StoredObject kind) →
    List String → Prop
  | nil (target : List (StoredObject kind)) : RemediatedAll [] target target []
  | cons {remediation : Remediation} {rest : List Remediation}
      {target target' target'' : List (StoredObject kind)} {failed failed' : List String}
      {result : Option BucketCompareRemediationResult} :
      Remediated sanitize source remediation target target' failed result →
      RemediatedAll rest target' target'' failed' →
      RemediatedAll (remediation :: rest) target target'' (failed ++ failed')

end Runs

end Comparison
end BucketReef

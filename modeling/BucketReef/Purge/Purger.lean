import BucketReef.Cleanup.VersionStore
import BucketReef.Purge.DeleteObjects

/-!
# Purging a bucket

`_BucketContentPurger`: one thread lists the objects and then the versions page by page and queues their
deletion in batches, workers delete the batches in any order, and the first thread adds up the results of
the futures it finds done.
-/

namespace BucketReef
namespace Purge

open Transitions Versions

inductive Stage
  | objects
  | versions
  deriving DecidableEq, Repr

structure BucketContentPurgeFailure where
  stage : Stage
  message : String
  key : Option String
  versionId : Option String
  count : ℕ
  deriving DecidableEq, Repr

/-- The arguments of `purge_bucket_contents`. -/
structure Options where
  parallelism : ℤ := 10
  includeVersions : Bool := true
  individualDeletes : Bool := false
  tolerateMissingBucket : Bool := false
  sanitize : Sanitize

def Options.workerCount (options : Options) : ℕ :=
  (max 1 (min (if options.parallelism = 0 then 10 else options.parallelism) 64)).toNat

/-- How many batches may be pending when another one is submitted: a single worker runs each batch and
collects it at once. -/
def Options.capacity (options : Options) : ℕ :=
  if options.workerCount = 1 then 1 else options.workerCount * 2

def Options.chunkSize (options : Options) : ℕ := if options.individualDeletes then 1 else chunkLimit

/-! ## Batches -/

/-- `items[start : start + size] for start in range(0, len(items), size)`. -/
def batches (size : ℕ) (items : List Item) : List (List Item) :=
  (List.range ((items.length + size - 1) / size)).map fun i => (items.drop (i * size)).take size

/-- What `_delete_batch` returns beside the stage and the items: the deleted count and the exception. -/
structure BatchResult where
  deleted : ℕ
  error : Option BatchError
  deriving DecidableEq, Repr

def deleteBatch (options : Options) (items : List Item) (answers : Answers) : BatchResult :=
  let result :=
    if options.individualDeletes then deleteObjectsIndividually answers.item items
    else deleteObjectsCount options.sanitize (fun _ => answers) items
  match result with
  | .ok deleted => ⟨deleted, none⟩
  | .error (.deleteObjects deleted failures) => ⟨deleted, some (.deleteObjects deleted failures)⟩
  | .error (.raised message) => ⟨0, some (.raised message)⟩

/-- A submitted batch and its result once a worker has run it. -/
structure Future where
  stage : Stage
  items : List Item
  result : Option BatchResult := none
  deriving DecidableEq, Repr

/-! ## The run -/

inductive Phase
  | listing (continuationToken : Option String)
  | listingVersions (keyMarker versionMarker : Option String)
  /-- Submitting the batches of a page, before the phase that follows it. -/
  | submitting (stage : Stage) (rest : List (List Item)) (next : Phase)
  | draining (stage : Stage)
  | returned (missingBucket : Bool)
  | raised
  deriving DecidableEq, Repr

structure State where
  phase : Phase
  pending : List Future := []
  listedObjects : ℕ := 0
  listedVersions : ℕ := 0
  deletedObjects : ℕ := 0
  deletedVersions : ℕ := 0
  failedCount : ℕ := 0
  failures : List BucketContentPurgeFailure := []
  /-- Every entry that was listed. -/
  listed : List Item := []
  /-- Every batch a worker has run, with the answers of S3. -/
  executed : List (List Item × Answers) := []

def start : State := { phase := .listing none }

/-- A page of `list_objects_v2`. -/
structure ObjectPage where
  keys : List (Option String)
  nextContinuationToken : Option String
  deriving DecidableEq, Repr

def objectItems (page : ObjectPage) : List Item :=
  page.keys.filterMap fun key => (key.filter (· ≠ "")).map fun key => ⟨key, none⟩

def versionItems (page : Page) : List Item :=
  (page.versions ++ page.deleteMarkers).filterMap fun raw =>
    (Cleanup.rawIdentity raw).map fun identity => ⟨identity.1, some identity.2⟩

inductive Label
  | listObjects (page : ObjectPage)
  /-- `list_objects_v2` raises; `missing` for an error that says the bucket does not exist. -/
  | listObjectsFails (missing : Bool)
  | listVersions (page : Page)
  | listVersionsFails (absent : Bool)
  | submit
  /-- Every batch of the page is submitted. -/
  | submitted
  /-- A worker runs a batch. -/
  | finish (index : ℕ) (answers : Answers)
  /-- The result of a finished batch is added up. -/
  | collect (index : ℕ)
  | drained
  /-- A cancellation or an error of a callback. -/
  | cancel

def failureSampleLimit : ℕ := 500

/-- `_add_failure`. -/
def State.addFailure (s : State) (stage : Stage) (items : List Item) : BatchError → State
  | .deleteObjects _ failures =>
    { s with
      failedCount := s.failedCount + failures.length
      failures := s.failures ++
        (failures.take (failureSampleLimit - s.failures.length)).map fun failure =>
          ⟨stage, failure.message, some failure.key, failure.versionId, 1⟩ }
  | .raised message =>
    let counted := { s with failedCount := s.failedCount + if items = [] then 1 else items.length }
    if failureSampleLimit ≤ s.failures.length then counted
    else
      { counted with
        failures := s.failures ++
          [⟨stage, message, (items.head?.map Item.key).filter (· ≠ ""),
            (items.head?.bind Item.versionId).filter (· ≠ ""), items.length⟩] }

/-- The body of the loop of `_drain`. -/
def State.addResult (s : State) (future : Future) (result : BatchResult) : State :=
  let counted :=
    match future.stage with
    | .versions => { s with deletedVersions := s.deletedVersions + result.deleted }
    | .objects => { s with deletedObjects := s.deletedObjects + result.deleted }
  match result.error with
  | none => counted
  | some error => counted.addFailure future.stage future.items error

def Phase.collects : Phase → Bool
  | .submitting .. | .draining _ => true
  | _ => false

/-- `if objects:` and `if items:`; a page without entries submits nothing. -/
def State.queue (s : State) (options : Options) (stage : Stage) (items : List Item) (next : Phase) :
    State :=
  { s with
    listed := s.listed ++ items
    phase := .submitting stage (batches options.chunkSize items) next }

def tokenSet (token : Option String) : Bool := token.any (· ≠ "")

def advance (options : Options) (s : State) : Label → Phase → Option State
  | .listObjects page, .listing _ =>
    let items := objectItems page
    let next : Phase :=
      if tokenSet page.nextContinuationToken then .listing page.nextContinuationToken
      else .draining .objects
    some ({ s with listedObjects := s.listedObjects + items.length }.queue options .objects items next)
  | .listObjectsFails missing, .listing _ =>
    some { s with
      phase := if options.tolerateMissingBucket && missing then .returned true else .raised }
  | .listVersions page, .listingVersions _ _ =>
    let items := versionItems page
    let next : Phase :=
      if page.isLast then .draining .versions
      else .listingVersions page.nextKeyMarker page.nextVersionIdMarker
    some ({ s with listedVersions := s.listedVersions + items.length }.queue options .versions items next)
  | .listVersionsFails absent, .listingVersions _ _ =>
    some { s with phase := if absent then .draining .versions else .raised }
  | .submit, .submitting stage (batch :: rest) next =>
    if s.pending.length < options.capacity then
      some { s with
        pending := s.pending ++ [{ stage := stage, items := batch }]
        phase := .submitting stage rest next }
    else none
  | .submitted, .submitting _ [] next => some { s with phase := next }
  | .finish index answers, _ =>
    match s.pending[index]? with
    | some ⟨stage, items, none⟩ =>
      some { s with
        pending := s.pending.set index ⟨stage, items, some (deleteBatch options items answers)⟩
        executed := s.executed ++ [(items, answers)] }
    | _ => none
  | .collect index, phase =>
    match s.pending[index]? with
    | some ⟨stage, items, some result⟩ =>
      if phase.collects then
        some ({ s with pending := s.pending.eraseIdx index }.addResult
          ⟨stage, items, some result⟩ result)
      else none
    | _ => none
  | .drained, .draining stage =>
    if s.pending = [] then
      some { s with
        phase :=
          if stage = .objects ∧ options.includeVersions = true then .listingVersions none none
          else .returned false }
    else none
  | .cancel, _ => some { s with phase := .raised }
  | _, _ => none

def step (options : Options) (s : State) (label : Label) : Option State :=
  advance options s label s.phase

/-- The states of all runs. -/
def Reachable (options : Options) (s : State) : Prop := Reached (step options) anyStep start s

end Purge
end BucketReef

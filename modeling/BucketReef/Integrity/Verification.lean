import BucketReef.Lists.Slices
import BucketReef.Lists.Text
import BucketReef.Migration.ObjectSync

/-!
# Strong verification

The scan of two buckets yields the pairs that only their size made equal; they are collected in
batches, and the workers of a pool compare the contents of the pairs of a batch. Which futures a round
of waiting finds done, and what the control checks answer, is left to a `Schedule`.
-/

namespace BucketReef
namespace Integrity

open Migration
open Versions (ChecksumField)

/-! ## One pair -/

inductive VerificationMethod
  | headChecksum | streamSha256
  deriving DecidableEq, Repr

/-- The checksum fields of a `head_object` response. -/
abbrev HeadResponse := ChecksumField → Option String

/-- `_head_object_checksums`: blank values are dropped. -/
def headObjectChecksums (response : HeadResponse) (field : ChecksumField) : Option String :=
  (response field).bind fun value =>
    if Text.strip value = "" then none else some (Text.strip value)

def sharedChecksumFields : List ChecksumField := [.sha256, .crc32c, .crc32, .sha1]

/-- The first checksum that both responses carry. -/
def sharedChecksum (source target : HeadResponse) : Option ChecksumField :=
  sharedChecksumFields.find? fun field =>
    (headObjectChecksums source field).isSome && (headObjectChecksums target field).isSome

/-- What the reads of an object answer; `none` when a read raises. -/
structure ObjectReads where
  head : Option HeadResponse
  body : Option (List UInt8)
  deriving Inhabited

/-- The bytes of a `body.read`. -/
def readSize : ℕ := 8 * 1024 * 1024

/-- The digest is fed with one read after the other. -/
def streamObjectSha256 (sha256 : List UInt8 → String) (body : List UInt8) : String :=
  sha256 ((Lists.slices readSize body).foldl (· ++ ·) [])

/-- Whether the contents are equal, and how they were compared; `none` when a read raises. -/
def strongVerifySingleObject (sha256 : List UInt8 → String) (source target : ObjectReads) :
    Option (Bool × VerificationMethod) := do
  let sourceHead ← source.head
  let targetHead ← target.head
  match sharedChecksum sourceHead targetHead with
  | some field =>
    return (headObjectChecksums sourceHead field == headObjectChecksums targetHead field,
      .headChecksum)
  | none =>
    let sourceBody ← source.body
    let targetBody ← target.body
    return (streamObjectSha256 sha256 sourceBody == streamObjectSha256 sha256 targetBody,
      .streamSha256)

/-! ## Results -/

variable {α : Type}

/-- The failed pairs stand for their keys in `failed_keys`; `compared` lists the pairs whose future
was taken. -/
structure VerificationResults (α : Type) where
  verifiedCount : ℕ := 0
  failed : List α := []
  headChecksumCount : ℕ := 0
  streamSha256Count : ℕ := 0
  compared : List α := []

namespace VerificationResults

def countMethod (results : VerificationResults α) (method : VerificationMethod) :
    VerificationResults α :=
  match method with
  | .headChecksum => { results with headChecksumCount := results.headChecksumCount + 1 }
  | .streamSha256 => { results with streamSha256Count := results.streamSha256Count + 1 }

def record (results : VerificationResults α) (item : α) (verified : Bool)
    (method : VerificationMethod) : VerificationResults α :=
  if verified then
    { results.countMethod method with
      verifiedCount := results.verifiedCount + 1
      compared := results.compared ++ [item] }
  else
    { results.countMethod method with
      failed := results.failed ++ [item]
      compared := results.compared ++ [item] }

def recordFailure (results : VerificationResults α) (item : α) : VerificationResults α :=
  { results with
    failed := results.failed ++ [item]
    compared := results.compared ++ [item] }

def merge (results now : VerificationResults α) : VerificationResults α where
  verifiedCount := results.verifiedCount + now.verifiedCount
  failed := results.failed ++ now.failed
  headChecksumCount := results.headChecksumCount + now.headChecksumCount
  streamSha256Count := results.streamSha256Count + now.streamSha256Count
  compared := results.compared ++ now.compared

end VerificationResults

/-! ## A batch -/

/-- What a run cannot know in advance: the answers of the control checks, and which futures of a
batch each round of waiting finds done. -/
structure Schedule (α : Type) where
  control : ℕ → ControlState
  rounds : ℕ → List α → List (List α)
  all_done : ∀ batch items, (rounds batch items).flatten.Perm items

/-- The control checks made and the batches submitted so far. -/
structure Clock where
  checks : ℕ := 0
  batches : ℕ := 0

/-- Why a verification ends without results: a request to pause or cancel, a lost lease, or a read of
the scan that raises. -/
inductive Stop
  | interrupted | leaseLost | raised
  deriving DecidableEq, Repr

/-- What a worker answers of a pair; `none` when it raises. -/
abbrev Worker (α : Type) := α → Option (Bool × VerificationMethod)

def takeFuture (worker : Worker α) (results : VerificationResults α) (item : α) :
    VerificationResults α :=
  match worker item with
  | none => results.recordFailure item
  | some (verified, method) => results.record item verified method

/-- The wait loop: one control check a round, and then the futures that are done. -/
def drain (schedule : Schedule α) (worker : Worker α) :
    List (List α) → ℕ → Option ControlState → VerificationResults α →
    ℕ × Option ControlState × VerificationResults α
  | [], checks, interruptedBy, results => (checks, interruptedBy, results)
  | done :: rounds, checks, interruptedBy, results =>
    drain schedule worker rounds (checks + 1)
      (interruptedState interruptedBy (schedule.control checks))
      (done.foldl (takeFuture worker) results)

/-- The reaction to a control check. -/
def proceed (state : ControlState) : Except Stop Unit :=
  match state with
  | .lostLease => .error .leaseLost
  | .pause | .cancel => .error .interrupted
  | .run => .ok ()

def runStrongVerificationBatch (schedule : Schedule α) (worker : Worker α) (items : List α)
    (clock : Clock) (results : VerificationResults α) :
    Except Stop (Clock × VerificationResults α) := do
  proceed (schedule.control clock.checks)
  let (checks, interruptedBy, results) :=
    drain schedule worker (schedule.rounds clock.batches items) (clock.checks + 1) none results
  -- A request seen while waiting takes effect once every future is done.
  proceed (interruptedBy.getD .run)
  return (⟨checks, clock.batches + 1⟩, results)

/-! ## Batches of both strategies -/

/-- What happens to a batch of candidates. -/
abbrev Flush (α : Type) :=
  List α → Clock → VerificationResults α → Except Stop (Clock × VerificationResults α)

/-- The keys of a batch are submitted a few at a time, and their results start from nothing. -/
def strongVerifySizeOnlyObjects (schedule : Schedule α) (worker : Worker α) (keys : List α)
    (parallelismMax : ℕ) (clock : Clock) : Except Stop (Clock × VerificationResults α) :=
  if keys.isEmpty then .ok (clock, {})
  else
    let workerCount := max 1 (min parallelismMax keys.length)
    (Lists.slices workerCount keys).foldlM (fun (clock, results) chunk =>
      runStrongVerificationBatch schedule worker chunk clock results) (clock, {})

def flushCurrentVerificationBatch (schedule : Schedule α) (worker : Worker α) (workerCount : ℕ) :
    Flush α := fun batch clock results =>
  if batch.isEmpty then .ok (clock, results)
  else do
    let (clock, now) ← strongVerifySizeOnlyObjects schedule worker batch workerCount clock
    return (clock, results.merge now)

def flushVersionAwareVerificationBatch (schedule : Schedule α) (worker : Worker α) : Flush α :=
  fun batch clock results =>
    if batch.isEmpty then .ok (clock, results)
    else runStrongVerificationBatch schedule worker batch clock results

/-! ## The scan -/

/-- The rounds of the merge of both listings: the candidates of each, `none` when one of its reads
raises; and whether the listings end before a request of theirs raises. -/
structure CandidateScan (α : Type) where
  rounds : List (Option (List α))
  ends : Bool

structure VerificationState (α : Type) where
  clock : Clock := {}
  scanCountSinceControl : ℕ := 0
  sizeOnlyCount : ℕ := 0
  batch : List α := []
  results : VerificationResults α := {}

/-- A candidate joins the batch, which is flushed when it is full. -/
def addCandidate (flush : Flush α) (batchSize : ℕ) (state : VerificationState α) (item : α) :
    Except Stop (VerificationState α) :=
  if (state.batch ++ [item]).length < batchSize then
    .ok { state with
      sizeOnlyCount := state.sizeOnlyCount + 1
      batch := state.batch ++ [item] }
  else do
    let (clock, results) ← flush (state.batch ++ [item]) state.clock state.results
    return { state with
      clock := clock
      sizeOnlyCount := state.sizeOnlyCount + 1
      batch := []
      results := results }

/-- Every `interval` rounds of the scan there is a control check. -/
def checkRound (schedule : Schedule α) (interval : ℕ) (state : VerificationState α) :
    Except Stop (VerificationState α) :=
  if state.scanCountSinceControl + 1 < interval then
    .ok { state with scanCountSinceControl := state.scanCountSinceControl + 1 }
  else do
    proceed (schedule.control state.clock.checks)
    return { state with
      clock := ⟨state.clock.checks + 1, state.clock.batches⟩
      scanCountSinceControl := 0 }

def scanRound (schedule : Schedule α) (flush : Flush α) (interval batchSize : ℕ)
    (state : VerificationState α) (round : Option (List α)) : Except Stop (VerificationState α) := do
  let state ← checkRound schedule interval state
  match round with
  | none => .error .raised
  | some candidates => candidates.foldlM (addCandidate flush batchSize) state

/-- The scan and its last batch: the number of candidates, and the results. -/
def verifyCandidates (schedule : Schedule α) (flush : Flush α) (interval batchSize : ℕ)
    (scan : CandidateScan α) : Except Stop (ℕ × VerificationResults α) := do
  let state ← scan.rounds.foldlM (scanRound schedule flush interval batchSize) {}
  if scan.ends = false then .error .raised
  else do
    let (_, results) ← flush state.batch state.clock state.results
    return (state.sizeOnlyCount, results)

def strongVerifyCurrentCandidatesStreamed (schedule : Schedule α) (worker : Worker α)
    (parallelismMax : ℕ) (scan : CandidateScan α) : Except Stop (ℕ × VerificationResults α) :=
  let workerCount := max 1 parallelismMax
  let batchSize := max workerCount (workerCount * runActionsChunkSizeMultiplier)
  verifyCandidates schedule (flushCurrentVerificationBatch schedule worker workerCount)
    Migration.diffControlCheckIntervalObjects batchSize scan

/-- `scanned_keys % 200` is the same as counting to 200 again and again. -/
def strongVerifyVersionAwareCandidates (schedule : Schedule α) (worker : Worker α)
    (parallelismMax : ℕ) (scan : CandidateScan α) : Except Stop (ℕ × VerificationResults α) :=
  verifyCandidates schedule (flushVersionAwareVerificationBatch schedule worker) 200
    (max 1 parallelismMax) scan

end Integrity
end BucketReef

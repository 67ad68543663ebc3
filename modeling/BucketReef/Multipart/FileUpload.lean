import BucketReef.Effects.Transitions
import BucketReef.Lists.Merged
import Mathlib

/-!
# Multipart upload of a file

Workers take the parts of a file in turn, presign and put each, and stop at the first failure or when the
caller aborts. When all of them have stopped the upload is completed or aborted. A step is what happens
at one of the awaits.
-/

namespace BucketReef.Multipart

open Transitions

structure CompletedPart where
  part_number : ℕ
  etag : String
  deriving DecidableEq

/-- Where one part is; a worker that has not ended has one part in its hands. -/
inductive Stage
  | waiting
  | presigning
  | putting
  | checking
  | accepted
  | lost
  deriving DecidableEq

def Stage.inFlight : Stage → Bool
  | .presigning | .putting | .checking => true
  | _ => false

inductive Phase
  | starting
  | initiating
  | uploading
  | completing
  | aborting
  | settled
  deriving DecidableEq

structure FileUpload where
  phase : Phase
  initiated : Bool
  stage : ℕ → Stage
  cursor : ℕ
  completedParts : List CompletedPart
  failed : Bool
  callerAborted : Bool
  transferAborted : Bool
  completeCalls : List (List CompletedPart)
  completeSucceeded : Bool
  abortCalls : ℕ

def FileUpload.start : FileUpload where
  phase := .starting
  initiated := false
  stage := fun _ => .waiting
  cursor := 0
  completedParts := []
  failed := false
  callerAborted := false
  transferAborted := false
  completeCalls := []
  completeSucceeded := false
  abortCalls := 0

/-- The etag that `checked` carries is `none` for a refused part or a missing ETag. -/
inductive FileEvent
  | callerAborts
  | started
  | initiated
  | initiateFailed
  | presigned (part : ℕ)
  | presignFailed (part : ℕ)
  | answered (part : ℕ)
  | putFailed (part : ℕ)
  | checked (part : ℕ) (etag : Option String)
  | joined
  | completed
  | completeFailed
  | abortSettled

/-- More parts than S3 takes, or larger ones. -/
def exceedsLimits (total partSize : ℕ) : Bool :=
  decide (10000 < total) || decide (5 * 1024 ^ 3 < partSize)

namespace FileUpload

variable (total partSize concurrency : ℕ)

/-- The head of a worker's loop. -/
def takeNext (s : FileUpload) : FileUpload :=
  if !s.transferAborted && decide (s.cursor < total) then
    { s with
      stage := Function.update s.stage s.cursor .presigning
      cursor := s.cursor + 1 }
  else s

/-- The workers start one after the other. -/
def startWorkers : ℕ → FileUpload → FileUpload
  | 0, s => s
  | count + 1, s => startWorkers count (takeNext total s)

def lose (s : FileUpload) (part : ℕ) : FileUpload :=
  takeNext total { s with
    stage := Function.update s.stage part .lost
    failed := true
    transferAborted := true }

def accept (s : FileUpload) (part : ℕ) (etag : String) : FileUpload :=
  takeNext total { s with
    stage := Function.update s.stage part .accepted
    completedParts := s.completedParts ++ [⟨part + 1, etag⟩] }

def abortStarted (s : FileUpload) : FileUpload :=
  { s with phase := .aborting, abortCalls := s.abortCalls + 1 }

/-- No worker has a part in its hands. -/
def allEnded (s : FileUpload) : Bool :=
  (List.range s.cursor).all fun part => !(s.stage part).inFlight

def sortedParts (parts : List CompletedPart) : List CompletedPart :=
  Lists.sortedBy CompletedPart.part_number parts

def step (s : FileUpload) : FileEvent → Option FileUpload
  | .callerAborts => some { s with callerAborted := true, transferAborted := true }
  | .started =>
    if s.phase = .starting then
      some { s with
        phase := if exceedsLimits total partSize || s.callerAborted then .settled else .initiating }
    else none
  | .initiated =>
    if s.phase = .initiating then
      some (startWorkers total (min concurrency total)
        { s with phase := .uploading, initiated := true })
    else none
  | .initiateFailed => if s.phase = .initiating then some { s with phase := .settled } else none
  | .presigned part =>
    if s.stage part = .presigning then
      some (if s.transferAborted then lose total s part
        else { s with stage := Function.update s.stage part .putting })
    else none
  | .presignFailed part =>
    if s.stage part = .presigning then some (lose total s part) else none
  | .answered part =>
    if s.stage part = .putting then
      some { s with stage := Function.update s.stage part .checking }
    else none
  | .putFailed part => if s.stage part = .putting then some (lose total s part) else none
  | .checked part etag =>
    if s.stage part = .checking then
      match etag with
      | none => some (lose total s part)
      | some etag => some (accept total s part etag)
    else none
  | .joined =>
    if s.phase = .uploading ∧ allEnded s = true then
      if s.failed || s.callerAborted then some (abortStarted s)
      else some { s with
        phase := .completing
        completeCalls := s.completeCalls ++ [sortedParts s.completedParts] }
    else none
  | .completed =>
    if s.phase = .completing then some { s with phase := .settled, completeSucceeded := true }
    else none
  | .completeFailed => if s.phase = .completing then some (abortStarted s) else none
  | .abortSettled => if s.phase = .aborting then some { s with phase := .settled } else none

end FileUpload

end BucketReef.Multipart

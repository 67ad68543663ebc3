import BucketReef.Multipart.FileUpload

/-!
# Multipart upload of a stream

The chunks of a stream are cut into parts, which are put one after the other. The caller's signal is
looked at before a part is presigned and by the request that puts it.
-/

namespace BucketReef.Multipart

inductive StreamPhase
  | starting
  | initiating
  | reading
  | presigning
  | putting
  | checking
  | completing
  | cancelling
  | aborting
  | settled
  deriving DecidableEq

/-- `source` is what was received so far, `current` the body of the part that is being sent and `bodies`
those of the accepted ones. -/
structure StreamUpload (α : Type) where
  phase : StreamPhase
  initiated : Bool
  source : List α
  pending : List α
  ended : Bool
  current : List α
  bodies : List (List α)
  partNumber : ℕ
  completedParts : List CompletedPart
  failed : Bool
  callerAborted : Bool
  completeCalls : List (List CompletedPart)
  completeSucceeded : Bool
  abortCalls : ℕ

inductive StreamEvent (α : Type)
  | callerAborts
  | started
  | initiated
  | initiateFailed
  | chunk (value : List α)
  | readEnded
  | readFailed
  | presigned
  | presignFailed
  | answered
  | putFailed
  | checked (etag : Option String)
  | completed
  | completeFailed
  | cancelled
  | abortSettled

namespace StreamUpload

variable {α : Type} (sizeBytes partSize : ℕ)

def start : StreamUpload α where
  phase := .starting
  initiated := false
  source := []
  pending := []
  ended := false
  current := []
  bodies := []
  partNumber := 1
  completedParts := []
  failed := false
  callerAborted := false
  completeCalls := []
  completeSucceeded := false
  abortCalls := 0

/-- What is thrown leads to the cancellation of the reader. -/
def fail (s : StreamUpload α) : StreamUpload α := { s with phase := .cancelling, failed := true }

/-- `flushPart`, up to its first await; `rest` is what stays pending. -/
def flushPart (s : StreamUpload α) (body rest : List α) : StreamUpload α :=
  if s.callerAborted then fail s
  else if 10000 < s.partNumber then fail s
  else { s with phase := .presigning, current := body, pending := rest }

/-- The loop over what is pending, and the next read. -/
def drain (s : StreamUpload α) : StreamUpload α :=
  if partSize ≤ s.pending.length then
    flushPart s (s.pending.take partSize) (s.pending.drop partSize)
  else { s with phase := .reading }

def complete (s : StreamUpload α) : StreamUpload α :=
  { s with
    phase := .completing
    completeCalls := s.completeCalls ++ [FileUpload.sortedParts s.completedParts] }

def finish (s : StreamUpload α) : StreamUpload α :=
  if s.source.length ≠ sizeBytes then fail s
  else if !s.pending.isEmpty || decide (sizeBytes = 0) then flushPart s s.pending []
  else complete s

def accept (s : StreamUpload α) (etag : String) : StreamUpload α :=
  { s with
    completedParts := s.completedParts ++ [⟨s.partNumber, etag⟩]
    bodies := s.bodies ++ [s.current]
    current := []
    partNumber := s.partNumber + 1 }

/-- A request with an aborted signal is never answered. -/
def step (s : StreamUpload α) : StreamEvent α → Option (StreamUpload α)
  | .callerAborts => some { s with callerAborted := true }
  | .started =>
    if s.phase = .starting then
      some { s with
        phase := if exceedsLimits (Lists.pageCount sizeBytes partSize) partSize then .settled
          else .initiating }
    else none
  | .initiated =>
    if s.phase = .initiating then some { s with phase := .reading, initiated := true } else none
  | .initiateFailed => if s.phase = .initiating then some (fail s) else none
  | .chunk value =>
    if s.phase = .reading then
      if value = [] then some s
      else if sizeBytes < (s.source ++ value).length then
        some (fail { s with source := s.source ++ value, pending := s.pending ++ value })
      else some (drain partSize
        { s with source := s.source ++ value, pending := s.pending ++ value })
    else none
  | .readEnded =>
    if s.phase = .reading then some (finish sizeBytes { s with ended := true }) else none
  | .readFailed => if s.phase = .reading then some (fail s) else none
  | .presigned =>
    if s.phase = .presigning then
      some (if s.callerAborted then fail s else { s with phase := .putting })
    else none
  | .presignFailed => if s.phase = .presigning then some (fail s) else none
  | .answered =>
    if s.phase = .putting ∧ s.callerAborted = false then some { s with phase := .checking } else none
  | .putFailed => if s.phase = .putting then some (fail s) else none
  | .checked etag =>
    if s.phase = .checking then
      match etag with
      | none => some (fail s)
      | some etag =>
        let s := accept s etag
        some (if s.ended then complete s else drain partSize s)
    else none
  | .completed =>
    if s.phase = .completing then some { s with phase := .settled, completeSucceeded := true }
    else none
  | .completeFailed => if s.phase = .completing then some (fail s) else none
  | .cancelled =>
    if s.phase = .cancelling then
      some (if s.initiated then { s with phase := .aborting, abortCalls := s.abortCalls + 1 }
        else { s with phase := .settled })
    else none
  | .abortSettled => if s.phase = .aborting then some { s with phase := .settled } else none

end StreamUpload

end BucketReef.Multipart

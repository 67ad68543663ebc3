import BucketReef.Multipart.StreamUpload
import BucketReef.Multipart.FileSafety

/-!
# A stream is uploaded whole or not at all

The bytes received are those of the accepted parts, of the part that is being sent and of what is
pending. Only an abort after the last part was answered goes unnoticed.
-/

namespace BucketReef.Multipart

open Transitions

namespace StreamUpload

variable {α : Type} {sizeBytes partSize : ℕ} {s : StreamUpload α}

/-- The parts so far, in order and without a gap. -/
structure Core (s : StreamUpload α) : Prop where
  bytes : s.bodies.flatten ++ (s.current ++ s.pending) = s.source
  numbers : s.completedParts.map CompletedPart.part_number =
    (List.range s.bodies.length).map fun part => part + 1
  next : s.partNumber = s.bodies.length + 1

/-- The upload is under way and nothing failed. -/
structure Quiet (partSize : ℕ) (s : StreamUpload α) : Prop where
  initiated : s.initiated = true
  failed : s.failed = false
  uncalled : s.completeCalls = []
  unsucceeded : s.completeSucceeded = false
  unaborted : s.abortCalls = 0
  full : ∀ body ∈ s.bodies, body.length = partSize

/-- The part that is being sent is a full one, or the last. -/
def Flushing (sizeBytes partSize : ℕ) (s : StreamUpload α) : Prop :=
  (s.ended = false → s.current.length = partSize) ∧
    (s.ended = true → s.pending = [] ∧ s.source.length = sizeBytes)

/-- All bytes that are expected have been received and sent. -/
def AllSent (sizeBytes : ℕ) (s : StreamUpload α) : Prop :=
  s.pending = [] ∧ s.source.length = sizeBytes

def WholeCall (sizeBytes partSize : ℕ) (s : StreamUpload α) (call : List CompletedPart) : Prop :=
  call.map CompletedPart.part_number = (List.range s.bodies.length).map (fun part => part + 1) ∧
    s.bodies.flatten = s.source ∧ s.source.length = sizeBytes ∧
    ∀ body ∈ s.bodies.dropLast, body.length = partSize

/-- Complete was not called, or once, with all parts. -/
def Called (sizeBytes partSize : ℕ) (s : StreamUpload α) : Prop :=
  s.completeCalls = [] ∨ ∃ call, s.completeCalls = [call] ∧ WholeCall sizeBytes partSize s call

def Inv (sizeBytes partSize : ℕ) (s : StreamUpload α) : Prop :=
  Core s ∧ match s.phase with
  | .starting | .initiating => s.initiated = false ∧ s.failed = false ∧ s.completeCalls = [] ∧
      s.completeSucceeded = false ∧ s.abortCalls = 0 ∧ s.bodies = [] ∧ s.source = [] ∧
      s.current = [] ∧ s.pending = [] ∧ s.ended = false
  | .reading => Quiet partSize s ∧ s.current = [] ∧ s.ended = false ∧
      (s.callerAborted = true → sizeBytes ≠ 0 → ¬AllSent sizeBytes s)
  | .presigning | .putting => Quiet partSize s ∧ Flushing sizeBytes partSize s
  | .checking => Quiet partSize s ∧ Flushing sizeBytes partSize s ∧
      (s.callerAborted = true → ¬AllSent sizeBytes s)
  | .completing => s.initiated = true ∧ s.completeSucceeded = false ∧ s.abortCalls = 0 ∧
      Called sizeBytes partSize s
  | .cancelling => s.completeSucceeded = false ∧ s.abortCalls = 0 ∧ Called sizeBytes partSize s
  | .aborting => s.completeSucceeded = false ∧ s.abortCalls = 1 ∧ Called sizeBytes partSize s
  | .settled => (s.initiated = true → s.completeSucceeded = true ∨ s.abortCalls = 1) ∧
      Called sizeBytes partSize s

theorem Inv.start (sizeBytes partSize : ℕ) : Inv sizeBytes partSize (StreamUpload.start (α := α)) :=
  ⟨⟨rfl, rfl, rfl⟩, rfl, rfl, rfl, rfl, rfl, rfl, rfl, rfl, rfl, rfl⟩

theorem inv_fail (hcore : Core s) (hsucceeded : s.completeSucceeded = false)
    (haborted : s.abortCalls = 0) (hcalled : Called sizeBytes partSize s) :
    Inv sizeBytes partSize (fail s) :=
  ⟨⟨hcore.bytes, hcore.numbers, hcore.next⟩, hsucceeded, haborted, hcalled⟩

theorem Quiet.inv_fail (h : Quiet partSize s) (hcore : Core s) :
    Inv sizeBytes partSize (fail s) :=
  StreamUpload.inv_fail hcore h.unsucceeded h.unaborted (.inl h.uncalled)

theorem Quiet.inv_flushPart (h : Quiet partSize s) (hcore : Core s) {body rest : List α}
    (hbytes : s.bodies.flatten ++ (body ++ rest) = s.source)
    (hfull : s.ended = false → body.length = partSize)
    (hlast : s.ended = true → rest = [] ∧ s.source.length = sizeBytes) :
    Inv sizeBytes partSize (flushPart s body rest) := by
  unfold flushPart
  split_ifs
  · exact h.inv_fail hcore
  · exact h.inv_fail hcore
  · exact ⟨⟨hbytes, hcore.numbers, hcore.next⟩,
      ⟨h.initiated, h.failed, h.uncalled, h.unsucceeded, h.unaborted, h.full⟩, hfull, hlast⟩

theorem Quiet.inv_drain (h : Quiet partSize s) (hcore : Core s) (hcurrent : s.current = [])
    (hended : s.ended = false)
    (hguard : s.callerAborted = true → sizeBytes ≠ 0 → ¬AllSent sizeBytes s) :
    Inv sizeBytes partSize (drain partSize s) := by
  unfold drain
  split_ifs with hlength
  · refine h.inv_flushPart hcore ?_ (fun _ => ?_) fun hdone => ?_
    · have hbytes := hcore.bytes
      rw [hcurrent, List.nil_append] at hbytes
      rw [List.take_append_drop]
      exact hbytes
    · rw [List.length_take]
      omega
    · rw [hended] at hdone
      cases hdone
  · exact ⟨⟨hcore.bytes, hcore.numbers, hcore.next⟩,
      ⟨h.initiated, h.failed, h.uncalled, h.unsucceeded, h.unaborted, h.full⟩, hcurrent, hended,
      hguard⟩

/-- Sorting does not change parts that are in order. -/
theorem sortedParts_numbers {parts : List CompletedPart} {count : ℕ}
    (h : parts.map CompletedPart.part_number = (List.range count).map fun part => part + 1) :
    (FileUpload.sortedParts parts).map CompletedPart.part_number =
      (List.range count).map fun part => part + 1 := by
  refine FileUpload.sortedParts_of_perm ?_
  rw [h]

theorem inv_complete (hcore : Core s) (hinitiated : s.initiated = true)
    (hsucceeded : s.completeSucceeded = false) (haborted : s.abortCalls = 0)
    (huncalled : s.completeCalls = []) (hcurrent : s.current = []) (hsent : AllSent sizeBytes s)
    (hfull : ∀ body ∈ s.bodies.dropLast, body.length = partSize) :
    Inv sizeBytes partSize (complete s) := by
  refine ⟨⟨hcore.bytes, hcore.numbers, hcore.next⟩, hinitiated, hsucceeded, haborted,
    .inr ⟨FileUpload.sortedParts s.completedParts, ?_, sortedParts_numbers hcore.numbers, ?_,
      hsent.2, hfull⟩⟩
  · show s.completeCalls ++ _ = _
    rw [huncalled]
    rfl
  · have hbytes := hcore.bytes
    rw [hcurrent, hsent.1, List.append_nil, List.append_nil] at hbytes
    exact hbytes

theorem Quiet.inv_finish (h : Quiet partSize s) (hcore : Core s) (hcurrent : s.current = [])
    (hended : s.ended = true) : Inv sizeBytes partSize (finish sizeBytes s) := by
  unfold finish
  split_ifs with hlength hmore
  · exact h.inv_fail hcore
  · refine h.inv_flushPart hcore ?_ (fun hne => ?_) fun _ => ⟨rfl, not_not.mp hlength⟩
    · have hbytes := hcore.bytes
      rw [hcurrent, List.nil_append] at hbytes
      rw [List.append_nil]
      exact hbytes
    · rw [hended] at hne
      cases hne
  · simp only [Bool.or_eq_true, Bool.not_eq_true', not_or, Bool.not_eq_false,
      List.isEmpty_iff] at hmore
    exact inv_complete hcore h.initiated h.unsucceeded h.unaborted h.uncalled hcurrent
      ⟨hmore.1, not_not.mp hlength⟩ fun body hbody =>
        h.full body ((List.dropLast_sublist _).subset hbody)

theorem core_accept (h : Core s) (etag : String) : Core (accept s etag) := by
  constructor
  · show (s.bodies ++ [s.current]).flatten ++ ([] ++ s.pending) = s.source
    rw [List.flatten_append, List.nil_append, ← h.bytes]
    simp
  · show (s.completedParts ++ [CompletedPart.mk s.partNumber etag]).map CompletedPart.part_number =
      (List.range (s.bodies ++ [s.current]).length).map _
    rw [List.map_append, h.numbers, List.length_append, List.length_singleton, List.range_succ,
      List.map_append, h.next]
    rfl
  · show s.partNumber + 1 = (s.bodies ++ [s.current]).length + 1
    rw [List.length_append, List.length_singleton, h.next]

/-- The caller's abort would go unnoticed: all was sent, and no part is up to be. -/
def Unguarded (sizeBytes : ℕ) (s : StreamUpload α) : Prop :=
  AllSent sizeBytes s ∧ (s.phase = .checking ∨ (s.phase = .reading ∧ sizeBytes ≠ 0))

/-- The caller does not abort then. -/
def abortsInTime (sizeBytes : ℕ) (s : StreamUpload α) (event : StreamEvent α) : Prop :=
  match event with
  | .callerAborts => ¬Unguarded sizeBytes s
  | _ => True

theorem Inv.callerAborts (h : Inv sizeBytes partSize s) (hguarded : ¬Unguarded sizeBytes s) :
    Inv sizeBytes partSize { s with callerAborted := true } := by
  obtain ⟨hcore, hphase⟩ := h
  refine ⟨⟨hcore.bytes, hcore.numbers, hcore.next⟩, ?_⟩
  unfold Unguarded at hguarded
  show match s.phase with
  | .starting | .initiating => _
  | .reading => _
  | .presigning | .putting => _
  | .checking => _
  | .completing => _
  | .cancelling => _
  | .aborting => _
  | .settled => _
  rcases hs : s.phase with - | - | - | - | - | - | - | - | - | -
  all_goals rw [hs] at hphase hguarded
  · exact hphase
  · exact hphase
  · obtain ⟨h, hcurrent, hended, -⟩ := hphase
    refine ⟨⟨h.initiated, h.failed, h.uncalled, h.unsucceeded, h.unaborted, h.full⟩, hcurrent,
      hended, fun _ hne hsent => hguarded ⟨hsent, .inr ⟨rfl, hne⟩⟩⟩
  · obtain ⟨h, hflushing⟩ := hphase
    exact ⟨⟨h.initiated, h.failed, h.uncalled, h.unsucceeded, h.unaborted, h.full⟩, hflushing⟩
  · obtain ⟨h, hflushing⟩ := hphase
    exact ⟨⟨h.initiated, h.failed, h.uncalled, h.unsucceeded, h.unaborted, h.full⟩, hflushing⟩
  · obtain ⟨h, hflushing, -⟩ := hphase
    exact ⟨⟨h.initiated, h.failed, h.uncalled, h.unsucceeded, h.unaborted, h.full⟩, hflushing,
      fun _ hsent => hguarded ⟨hsent, .inl rfl⟩⟩
  · exact hphase
  · exact hphase
  · exact hphase
  · exact hphase

theorem Inv.step_started (h : Inv sizeBytes partSize s) {s' : StreamUpload α}
    (hstep : StreamUpload.step sizeBytes partSize s .started = some s') : Inv sizeBytes partSize s' := by
  obtain ⟨hphase, heq⟩ := Option.ite_none_right_eq_some.mp hstep
  obtain rfl := Option.some.inj heq
  obtain ⟨hcore, hblank⟩ := h
  rw [hphase] at hblank
  refine ⟨⟨hcore.bytes, hcore.numbers, hcore.next⟩, ?_⟩
  simp only
  split_ifs
  · refine ⟨fun hinit => ?_, .inl hblank.2.2.1⟩
    rw [show s.initiated = true from hinit] at hblank
    cases hblank.1
  · exact hblank

theorem Inv.step_initiated (h : Inv sizeBytes partSize s) {s' : StreamUpload α}
    (hstep : StreamUpload.step sizeBytes partSize s .initiated = some s') : Inv sizeBytes partSize s' := by
  obtain ⟨hphase, heq⟩ := Option.ite_none_right_eq_some.mp hstep
  obtain rfl := Option.some.inj heq
  obtain ⟨hcore, hblank⟩ := h
  rw [hphase] at hblank
  obtain ⟨-, hfailed, huncalled, hsucceeded, haborted, hbodies, hsource, hcurrent, -, hended⟩ :=
    hblank
  refine ⟨⟨hcore.bytes, hcore.numbers, hcore.next⟩,
    ⟨rfl, hfailed, huncalled, hsucceeded, haborted, ?_⟩, hcurrent, hended, ?_⟩
  · intro body hbody
    rw [show ({ s with phase := .reading, initiated := true } : StreamUpload α).bodies = []
      from hbodies] at hbody
    cases hbody
  · rintro - hne ⟨-, hlength⟩
    rw [show ({ s with phase := .reading, initiated := true } : StreamUpload α).source = []
      from hsource] at hlength
    exact hne hlength.symm

theorem Inv.step_chunk (h : Inv sizeBytes partSize s) {value : List α} {s' : StreamUpload α}
    (hstep : StreamUpload.step sizeBytes partSize s (.chunk value) = some s') :
    Inv sizeBytes partSize s' := by
  obtain ⟨hphase, heq⟩ := Option.ite_none_right_eq_some.mp hstep
  have hkeep := h
  obtain ⟨hcore, hreading⟩ := h
  rw [hphase] at hreading
  obtain ⟨hquiet, hcurrent, hended, -⟩ := hreading
  split_ifs at heq with hempty hover
  · obtain rfl := Option.some.inj heq
    exact hkeep
  all_goals
    obtain rfl := Option.some.inj heq
    have hreceived : Core { s with
        source := s.source ++ value, pending := s.pending ++ value } := by
      refine ⟨?_, hcore.numbers, hcore.next⟩
      show s.bodies.flatten ++ (s.current ++ (s.pending ++ value)) = s.source ++ value
      rw [← hcore.bytes]
      simp
    have hstill : Quiet partSize { s with
        source := s.source ++ value, pending := s.pending ++ value } :=
      ⟨hquiet.initiated, hquiet.failed, hquiet.uncalled, hquiet.unsucceeded, hquiet.unaborted,
        hquiet.full⟩
  · exact hstill.inv_fail hreceived
  · refine hstill.inv_drain hreceived hcurrent hended ?_
    rintro - - ⟨hpending, -⟩
    exact hempty (List.append_eq_nil_iff.mp hpending).2

theorem Inv.step_readEnded (h : Inv sizeBytes partSize s) {s' : StreamUpload α}
    (hstep : StreamUpload.step sizeBytes partSize s .readEnded = some s') : Inv sizeBytes partSize s' := by
  obtain ⟨hphase, heq⟩ := Option.ite_none_right_eq_some.mp hstep
  obtain rfl := Option.some.inj heq
  obtain ⟨hcore, hreading⟩ := h
  rw [hphase] at hreading
  obtain ⟨hquiet, hcurrent, -, -⟩ := hreading
  exact Quiet.inv_finish (s := { s with ended := true })
    ⟨hquiet.initiated, hquiet.failed, hquiet.uncalled, hquiet.unsucceeded, hquiet.unaborted,
      hquiet.full⟩ ⟨hcore.bytes, hcore.numbers, hcore.next⟩ hcurrent rfl

theorem Inv.step_presigned (h : Inv sizeBytes partSize s) {s' : StreamUpload α}
    (hstep : StreamUpload.step sizeBytes partSize s .presigned = some s') : Inv sizeBytes partSize s' := by
  obtain ⟨hphase, heq⟩ := Option.ite_none_right_eq_some.mp hstep
  obtain rfl := Option.some.inj heq
  obtain ⟨hcore, hpresigning⟩ := h
  rw [hphase] at hpresigning
  obtain ⟨hquiet, hflushing⟩ := hpresigning
  split_ifs
  · exact hquiet.inv_fail hcore
  · exact ⟨⟨hcore.bytes, hcore.numbers, hcore.next⟩, ⟨hquiet.initiated, hquiet.failed,
      hquiet.uncalled, hquiet.unsucceeded, hquiet.unaborted, hquiet.full⟩, hflushing⟩

theorem Inv.step_answered (h : Inv sizeBytes partSize s) {s' : StreamUpload α}
    (hstep : StreamUpload.step sizeBytes partSize s .answered = some s') : Inv sizeBytes partSize s' := by
  obtain ⟨⟨hphase, hrunning⟩, heq⟩ := Option.ite_none_right_eq_some.mp hstep
  obtain rfl := Option.some.inj heq
  obtain ⟨hcore, hputting⟩ := h
  rw [hphase] at hputting
  obtain ⟨hquiet, hflushing⟩ := hputting
  refine ⟨⟨hcore.bytes, hcore.numbers, hcore.next⟩, ⟨hquiet.initiated, hquiet.failed,
    hquiet.uncalled, hquiet.unsucceeded, hquiet.unaborted, hquiet.full⟩, hflushing, ?_⟩
  intro haborted
  rw [show s.callerAborted = true from haborted] at hrunning
  cases hrunning

theorem Inv.step_checked (h : Inv sizeBytes partSize s) {etag : Option String} {s' : StreamUpload α}
    (hstep : StreamUpload.step sizeBytes partSize s (.checked etag) = some s') :
    Inv sizeBytes partSize s' := by
  obtain ⟨hphase, heq⟩ := Option.ite_none_right_eq_some.mp hstep
  obtain ⟨hcore, hchecking⟩ := h
  rw [hphase] at hchecking
  obtain ⟨hquiet, hflushing, hguard⟩ := hchecking
  rcases etag with - | etag
  · obtain rfl := Option.some.inj heq
    exact hquiet.inv_fail hcore
  · obtain rfl := Option.some.inj heq
    have haccepted := core_accept hcore etag
    rcases hended : s.ended with - | -
    · have hdrain : Quiet partSize (accept s etag) := by
        refine ⟨hquiet.initiated, hquiet.failed, hquiet.uncalled, hquiet.unsucceeded,
          hquiet.unaborted, fun body hbody => ?_⟩
        rcases List.mem_append.mp hbody with hin | hin
        · exact hquiet.full body hin
        · rw [List.mem_singleton.mp hin]
          exact hflushing.1 hended
      rw [if_neg (by simp [accept, hended])]
      exact hdrain.inv_drain haccepted rfl hended fun haborted _ => hguard haborted
    · rw [if_pos (show (accept s etag).ended = true from hended)]
      refine inv_complete haccepted hquiet.initiated hquiet.unsucceeded hquiet.unaborted
        hquiet.uncalled rfl (hflushing.2 hended) fun body hbody => ?_
      rw [show (accept s etag).bodies = s.bodies ++ [s.current] from rfl,
        List.dropLast_concat] at hbody
      exact hquiet.full body hbody

theorem Inv.step_cancelled (h : Inv sizeBytes partSize s) {s' : StreamUpload α}
    (hstep : StreamUpload.step sizeBytes partSize s .cancelled = some s') : Inv sizeBytes partSize s' := by
  obtain ⟨hphase, heq⟩ := Option.ite_none_right_eq_some.mp hstep
  obtain rfl := Option.some.inj heq
  obtain ⟨hcore, hcancelling⟩ := h
  rw [hphase] at hcancelling
  obtain ⟨hsucceeded, haborted, hcalled⟩ := hcancelling
  split_ifs with hinitiated
  · exact ⟨⟨hcore.bytes, hcore.numbers, hcore.next⟩, hsucceeded,
      by show s.abortCalls + 1 = 1; omega, hcalled⟩
  · exact ⟨⟨hcore.bytes, hcore.numbers, hcore.next⟩, fun hinit => absurd hinit hinitiated, hcalled⟩

theorem Inv.step (h : Inv sizeBytes partSize s) {event : StreamEvent α} {s' : StreamUpload α}
    (hok : abortsInTime sizeBytes s event)
    (hstep : StreamUpload.step sizeBytes partSize s event = some s') :
    Inv sizeBytes partSize s' := by
  cases event with
  | callerAborts =>
    cases hstep
    exact h.callerAborts hok
  | started => exact h.step_started hstep
  | initiated => exact h.step_initiated hstep
  | initiateFailed =>
    obtain ⟨hphase, heq⟩ := Option.ite_none_right_eq_some.mp hstep
    obtain rfl := Option.some.inj heq
    obtain ⟨hcore, hblank⟩ := h
    rw [hphase] at hblank
    exact inv_fail hcore hblank.2.2.2.1 hblank.2.2.2.2.1 (.inl hblank.2.2.1)
  | chunk value => exact h.step_chunk hstep
  | readEnded => exact h.step_readEnded hstep
  | readFailed =>
    obtain ⟨hphase, heq⟩ := Option.ite_none_right_eq_some.mp hstep
    obtain rfl := Option.some.inj heq
    obtain ⟨hcore, hreading⟩ := h
    rw [hphase] at hreading
    exact hreading.1.inv_fail hcore
  | presigned => exact h.step_presigned hstep
  | presignFailed =>
    obtain ⟨hphase, heq⟩ := Option.ite_none_right_eq_some.mp hstep
    obtain rfl := Option.some.inj heq
    obtain ⟨hcore, hpresigning⟩ := h
    rw [hphase] at hpresigning
    exact hpresigning.1.inv_fail hcore
  | answered => exact h.step_answered hstep
  | putFailed =>
    obtain ⟨hphase, heq⟩ := Option.ite_none_right_eq_some.mp hstep
    obtain rfl := Option.some.inj heq
    obtain ⟨hcore, hputting⟩ := h
    rw [hphase] at hputting
    exact hputting.1.inv_fail hcore
  | checked etag => exact h.step_checked hstep
  | completed =>
    obtain ⟨hphase, heq⟩ := Option.ite_none_right_eq_some.mp hstep
    obtain rfl := Option.some.inj heq
    obtain ⟨hcore, hcompleting⟩ := h
    rw [hphase] at hcompleting
    exact ⟨⟨hcore.bytes, hcore.numbers, hcore.next⟩, fun _ => .inl rfl, hcompleting.2.2.2⟩
  | completeFailed =>
    obtain ⟨hphase, heq⟩ := Option.ite_none_right_eq_some.mp hstep
    obtain rfl := Option.some.inj heq
    obtain ⟨hcore, hcompleting⟩ := h
    rw [hphase] at hcompleting
    exact inv_fail hcore hcompleting.2.1 hcompleting.2.2.1 hcompleting.2.2.2
  | cancelled => exact h.step_cancelled hstep
  | abortSettled =>
    obtain ⟨hphase, heq⟩ := Option.ite_none_right_eq_some.mp hstep
    obtain rfl := Option.some.inj heq
    obtain ⟨hcore, haborting⟩ := h
    rw [hphase] at haborting
    exact ⟨⟨hcore.bytes, hcore.numbers, hcore.next⟩, fun _ => .inr haborting.2.1, haborting.2.2⟩

/-- As for a file, with the bytes that were received. -/
def Whole (sizeBytes partSize : ℕ) (s : StreamUpload α) : Prop :=
  Called sizeBytes partSize s ∧
    (s.phase = .settled → s.initiated = true → s.completeSucceeded = false → s.abortCalls = 1)

def CallsInTime (sizeBytes partSize : ℕ) (s : StreamUpload α) : Prop :=
  ∀ event s', StreamUpload.step sizeBytes partSize s event = some s' →
    (s'.completeCalls ≠ s.completeCalls → s.callerAborted = false ∧ s.failed = false) ∧
    (s'.abortCalls ≠ s.abortCalls → s.initiated = true ∧ s.completeSucceeded = false ∧
      s.phase ≠ .putting)

theorem Inv.whole (h : Inv sizeBytes partSize s) : Whole sizeBytes partSize s := by
  obtain ⟨-, hphase⟩ := h
  constructor
  · rcases hs : s.phase with - | - | - | - | - | - | - | - | - | -
    all_goals rw [hs] at hphase
    · exact .inl hphase.2.2.1
    · exact .inl hphase.2.2.1
    · exact .inl hphase.1.uncalled
    · exact .inl hphase.1.uncalled
    · exact .inl hphase.1.uncalled
    · exact .inl hphase.1.uncalled
    · exact hphase.2.2.2
    · exact hphase.2.2
    · exact hphase.2.2
    · exact hphase.2
  · intro hsettled hinitiated hfailed
    rw [hsettled] at hphase
    rcases hphase.1 hinitiated with hsucceeded | haborted
    · rw [hfailed] at hsucceeded
      cases hsucceeded
    · exact haborted

/-- The calls of complete and abort so far. -/
def calls (s : StreamUpload α) : List (List CompletedPart) × ℕ := (s.completeCalls, s.abortCalls)

@[simp] theorem calls_flushPart (s : StreamUpload α) (body rest : List α) :
    calls (flushPart s body rest) = calls s := by
  unfold flushPart
  split_ifs
  · rfl
  · rfl
  · rfl

@[simp] theorem calls_drain (s : StreamUpload α) : calls (drain partSize s) = calls s := by
  unfold drain
  split_ifs
  · exact calls_flushPart s _ _
  · rfl

theorem Inv.callsInTime (h : Inv sizeBytes partSize s) : CallsInTime sizeBytes partSize s := by
  intro event s' hstep
  have hsame : ∀ next : StreamUpload α, calls next = calls s →
      (next.completeCalls ≠ s.completeCalls → s.callerAborted = false ∧ s.failed = false) ∧
      (next.abortCalls ≠ s.abortCalls → s.initiated = true ∧ s.completeSucceeded = false ∧
        s.phase ≠ .putting) :=
    fun _ hcalls => ⟨fun hne => absurd (congrArg Prod.fst hcalls) hne,
      fun hne => absurd (congrArg Prod.snd hcalls) hne⟩
  obtain ⟨-, hinv⟩ := h
  cases event with
  | callerAborts =>
    cases hstep
    exact hsame _ rfl
  | chunk value =>
    obtain ⟨-, heq⟩ := Option.ite_none_right_eq_some.mp hstep
    split_ifs at heq
    · obtain rfl := Option.some.inj heq
      exact hsame _ rfl
    · obtain rfl := Option.some.inj heq
      exact hsame _ rfl
    · obtain rfl := Option.some.inj heq
      exact hsame _ (calls_drain _)
  | readEnded =>
    obtain ⟨hphase, heq⟩ := Option.ite_none_right_eq_some.mp hstep
    obtain rfl := Option.some.inj heq
    rw [hphase] at hinv
    obtain ⟨hquiet, -, -, hguard⟩ := hinv
    unfold finish
    split_ifs with hlength hmore
    · exact hsame _ rfl
    · exact hsame _ (calls_flushPart _ _ _)
    · simp only [Bool.or_eq_true, Bool.not_eq_true', not_or, Bool.not_eq_false,
        List.isEmpty_iff, decide_eq_true_eq] at hmore
      refine ⟨fun _ => ⟨?_, hquiet.failed⟩, fun hne => absurd rfl hne⟩
      rw [← Bool.not_eq_true]
      exact fun haborted => hguard haborted hmore.2 ⟨hmore.1, not_not.mp hlength⟩
  | presigned =>
    obtain ⟨-, heq⟩ := Option.ite_none_right_eq_some.mp hstep
    obtain rfl := Option.some.inj heq
    split_ifs
    · exact hsame _ rfl
    · exact hsame _ rfl
  | checked etag =>
    obtain ⟨hphase, heq⟩ := Option.ite_none_right_eq_some.mp hstep
    rw [hphase] at hinv
    obtain ⟨hquiet, hflushing, hguard⟩ := hinv
    rcases etag with - | etag
    · obtain rfl := Option.some.inj heq
      exact hsame _ rfl
    · obtain rfl := Option.some.inj heq
      split_ifs with hended
      · refine ⟨fun _ => ⟨?_, hquiet.failed⟩, fun hne => absurd rfl hne⟩
        rw [← Bool.not_eq_true]
        exact fun haborted => hguard haborted (hflushing.2 hended)
      · exact hsame _ (calls_drain _)
  | cancelled =>
    obtain ⟨hphase, heq⟩ := Option.ite_none_right_eq_some.mp hstep
    obtain rfl := Option.some.inj heq
    rw [hphase] at hinv
    split_ifs with hinitiated
    · exact ⟨fun hne => absurd rfl hne, fun _ => ⟨hinitiated, hinv.1, by simp [hphase]⟩⟩
    · exact hsame _ rfl
  | answered =>
    obtain ⟨-, heq⟩ := Option.ite_none_right_eq_some.mp hstep
    obtain rfl := Option.some.inj heq
    exact hsame _ rfl
  | started | initiated | initiateFailed | readFailed | presignFailed | putFailed | completed
  | completeFailed | abortSettled =>
    obtain ⟨-, heq⟩ := Option.ite_none_right_eq_some.mp hstep
    obtain rfl := Option.some.inj heq
    exact hsame _ rfl

def GoesOn (sizeBytes partSize : ℕ) (s : StreamUpload α) : Prop :=
  s.phase ≠ .settled → ∃ event s', event ≠ .callerAborts ∧
    StreamUpload.step sizeBytes partSize s event = some s'

theorem goesOn (s : StreamUpload α) : GoesOn sizeBytes partSize s := by
  intro hsettled
  rcases hphase : s.phase with - | - | - | - | - | - | - | - | - | -
  · exact ⟨.started, _, by simp, if_pos hphase⟩
  · exact ⟨.initiated, _, by simp, if_pos hphase⟩
  · exact ⟨.readEnded, _, by simp, if_pos hphase⟩
  · exact ⟨.presigned, _, by simp, if_pos hphase⟩
  · exact ⟨.putFailed, _, by simp, if_pos hphase⟩
  · exact ⟨.checked none, _, by simp, if_pos hphase⟩
  · exact ⟨.completed, _, by simp, if_pos hphase⟩
  · exact ⟨.cancelled, _, by simp, if_pos hphase⟩
  · exact ⟨.abortSettled, _, by simp, if_pos hphase⟩
  · exact absurd hphase hsettled

end StreamUpload

/-! ## Both variants -/

/-- `file.slice(start, end)` of the part with this index -/
def partBody {α : Type} (file : List α) (partSize part : ℕ) : List α := Lists.page partSize file part

/-- `Math.ceil(file.size / partSize)` -/
def totalParts {α : Type} (file : List α) (partSize : ℕ) : ℕ := Lists.pageCount file.length partSize

theorem partBody_length {α : Type} {file : List α} {partSize part : ℕ}
    (hpart : part + 1 < totalParts file partSize) :
    (partBody file partSize part).length = partSize := by
  unfold totalParts Lists.pageCount at hpart
  unfold partBody Lists.page
  have hle : (part + 2) * partSize ≤ file.length + partSize - 1 :=
    (Nat.mul_le_mul_right _ hpart).trans (Nat.div_mul_le_self _ _)
  rw [List.length_take, List.length_drop]
  rw [Nat.add_mul] at hle
  omega

/-- Every run of a file upload, and every run of a stream upload whose caller does not abort once all
bytes are sent, is all or nothing. -/
theorem multipart_all_or_nothing {α : Type} (file : List α) (sizeBytes partSize concurrency : ℕ)
    (hpartSize : 0 < partSize) (hconcurrency : 1 ≤ concurrency) :
    ((List.range (totalParts file partSize)).flatMap (partBody file partSize) = file ∧
      (∀ part, part + 1 < totalParts file partSize →
        (partBody file partSize part).length = partSize) ∧
      ∀ s, Reached (FileUpload.step (totalParts file partSize) partSize concurrency) anyStep
          FileUpload.start s →
        FileUpload.Whole (totalParts file partSize) s ∧
          FileUpload.CallsInTime (totalParts file partSize) partSize concurrency s ∧
          FileUpload.GoesOn (totalParts file partSize) partSize concurrency s) ∧
    ∀ s : StreamUpload α, Reached (StreamUpload.step sizeBytes partSize)
        (StreamUpload.abortsInTime sizeBytes) StreamUpload.start s →
      StreamUpload.Whole sizeBytes partSize s ∧ StreamUpload.CallsInTime sizeBytes partSize s ∧
        StreamUpload.GoesOn sizeBytes partSize s := by
  refine ⟨⟨Lists.pages_const hpartSize file, fun part hpart => partBody_length hpart, ?_⟩, ?_⟩
  · intro s h
    have hinv := FileUpload.reached_inv hconcurrency (FileUpload.Inv.start _) h
    exact ⟨hinv.whole, hinv.callsInTime, FileUpload.goesOn s⟩
  · intro s h
    have hinv : StreamUpload.Inv sizeBytes partSize s :=
      h.invariant (StreamUpload.Inv.start sizeBytes partSize)
        fun _ _ _ hinv hok hstep => hinv.step hok hstep
    exact ⟨hinv.whole, hinv.callsInTime, StreamUpload.goesOn s⟩

/-- Two workers put the three parts of a file, the second part first. -/
def secondPartFirst : List FileEvent :=
  [.started, .initiated, .presigned 0, .presigned 1, .answered 1, .checked 1 (some "b"),
    .presigned 2, .answered 0, .checked 0 (some "a"), .answered 2, .checked 2 (some "c"), .joined,
    .completed]

/-- A stream of three bytes, which are put as a part of two and a part of one. -/
def streamInTime : List (StreamEvent ℕ) :=
  [.started, .initiated, .chunk [7, 8, 9], .presigned, .answered, .checked (some "a"), .readEnded,
    .presigned, .answered, .checked (some "b"), .completed]

theorem multipart_all_or_nothing_five :
    (∃ s, after (FileUpload.step (totalParts [0, 1, 2, 3, 4] 2) 2 2) FileUpload.start
        secondPartFirst = some s ∧
      s.completeSucceeded = true ∧ FileUpload.Whole (totalParts [0, 1, 2, 3, 4] 2) s ∧
        FileUpload.CallsInTime (totalParts [0, 1, 2, 3, 4] 2) 2 2 s ∧
        FileUpload.GoesOn (totalParts [0, 1, 2, 3, 4] 2) 2 2 s) ∧
    ∃ s, after (StreamUpload.step 3 2) StreamUpload.start streamInTime = some s ∧
      s.completeSucceeded = true ∧ StreamUpload.Whole 3 2 s ∧ StreamUpload.CallsInTime 3 2 s ∧
        StreamUpload.GoesOn 3 2 s := by
  obtain ⟨s, hafter, hcompleted⟩ : ∃ s, after (FileUpload.step (totalParts [0, 1, 2, 3, 4] 2) 2 2)
      FileUpload.start secondPartFirst = some s ∧ s.completeSucceeded = true :=
    ⟨_, rfl, rfl⟩
  obtain ⟨t, htafter, htcompleted⟩ : ∃ t, after (StreamUpload.step 3 2) StreamUpload.start
      streamInTime = some t ∧ t.completeSucceeded = true :=
    ⟨_, rfl, rfl⟩
  have hok : ∀ event ∈ streamInTime, ∀ s, StreamUpload.abortsInTime 3 s event := by
    intro event hevent s
    cases event with
    | callerAborts => simp [streamInTime] at hevent
    | _ => trivial
  exact ⟨⟨s, hafter, hcompleted, (multipart_all_or_nothing [0, 1, 2, 3, 4] 5 2 2 (by decide)
      (by decide)).1.2.2 s (Reached.init.after hafter)⟩,
    ⟨t, htafter, htcompleted, (multipart_all_or_nothing [0, 1, 2] 3 2 2 (by decide)
      (by decide)).2 t (Reached.init.after_of hok htafter)⟩⟩

/-- A stream of one byte, with the caller's abort after its part was accepted. -/
def lateAbort : List (StreamEvent ℕ) :=
  [.started, .initiated, .chunk [7], .presigned, .answered, .checked (some "etag"), .callerAborts]

/-- Complete is called for it. -/
theorem not_multipart_all_or_nothing :
    ¬∀ s : StreamUpload ℕ, Reached (StreamUpload.step 1 1) anyStep StreamUpload.start s →
      StreamUpload.Whole 1 1 s ∧ StreamUpload.CallsInTime 1 1 s := by
  intro h
  obtain ⟨s, hafter⟩ : ∃ s, after (StreamUpload.step 1 1) StreamUpload.start lateAbort = some s :=
    ⟨_, rfl⟩
  have hcalls := (h s (Reached.init.after hafter)).2 .readEnded
  cases hafter
  have haborted := ((hcalls _ rfl).1 (by decide)).1
  cases haborted

end BucketReef.Multipart

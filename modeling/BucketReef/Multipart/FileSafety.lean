import BucketReef.Multipart.FileUpload

/-!
# A file is uploaded whole or not at all
-/

namespace BucketReef.Multipart

open Transitions

namespace FileUpload

variable {total partSize concurrency : ℕ} {s : FileUpload}

/-- What holds of the parts; nothing is waiting below the cursor. -/
structure Parts (total : ℕ) (stage : ℕ → Stage) (cursor : ℕ) (parts : List CompletedPart)
    (failed aborted caller : Bool) : Prop where
  cursor_le : cursor ≤ total
  waiting : ∀ part, stage part = .waiting ↔ cursor ≤ part
  lost : ∀ part, stage part = .lost → failed = true
  aborted : aborted = true → failed = true ∨ caller = true
  numbers : (parts.map CompletedPart.part_number).Nodup
  accepted : ∀ part, part + 1 ∈ parts.map CompletedPart.part_number ↔ stage part = .accepted
  positive : 0 ∉ parts.map CompletedPart.part_number

/-- The parts of an upload are as they should be. -/
abbrev Sound (total : ℕ) (s : FileUpload) : Prop :=
  Parts total s.stage s.cursor s.completedParts s.failed s.transferAborted s.callerAborted

theorem sound_start (total : ℕ) : Sound total FileUpload.start := by
  constructor
  · exact Nat.zero_le _
  · simp [FileUpload.start]
  · simp [FileUpload.start]
  · simp [FileUpload.start]
  · simp [FileUpload.start]
  · simp [FileUpload.start]
  · simp [FileUpload.start]

section Parts

variable {stage : ℕ → Stage} {cursor part : ℕ} {parts : List CompletedPart}
  {failed aborted caller : Bool}

theorem Parts.lt_of_inFlight (h : Parts total stage cursor parts failed aborted caller)
    (hpart : (stage part).inFlight = true) : part < cursor := by
  by_contra hle
  rw [(h.waiting part).mpr (by omega)] at hpart
  cases hpart

/-- A part in a worker's hands that goes to another stage is still not waiting. -/
theorem Parts.waiting_update (h : Parts total stage cursor parts failed aborted caller)
    (hpart : (stage part).inFlight = true) {next : Stage} (hnext : next ≠ .waiting) (other : ℕ) :
    Function.update stage part next other = .waiting ↔ cursor ≤ other := by
  have hlt := h.lt_of_inFlight hpart
  by_cases heq : other = part
  · subst heq
    rw [Function.update_self]
    exact iff_of_false hnext (by omega)
  · rw [Function.update_of_ne heq]
    exact h.waiting other

theorem Parts.lost_update (h : Parts total stage cursor parts failed aborted caller)
    {next : Stage} (hnext : next ≠ .lost) (other : ℕ)
    (hlost : Function.update stage part next other = .lost) : failed = true := by
  by_cases heq : other = part
  · subst heq
    rw [Function.update_self] at hlost
    exact absurd hlost hnext
  · rw [Function.update_of_ne heq] at hlost
    exact h.lost other hlost

theorem Parts.accepted_update (h : Parts total stage cursor parts failed aborted caller)
    (hpart : stage part ≠ .accepted) {next : Stage} (hnext : next ≠ .accepted) (other : ℕ) :
    other + 1 ∈ parts.map CompletedPart.part_number ↔
      Function.update stage part next other = .accepted := by
  rw [h.accepted]
  by_cases heq : other = part
  · subst heq
    rw [Function.update_self]
    exact iff_of_false hpart hnext
  · rw [Function.update_of_ne heq]

theorem ne_accepted_of_inFlight {stage : Stage} (h : stage.inFlight = true) : stage ≠ .accepted := by
  rintro rfl
  cases h

theorem Parts.move (h : Parts total stage cursor parts failed aborted caller)
    (hpart : (stage part).inFlight = true) {next : Stage} (hnext : next.inFlight = true) :
    Parts total (Function.update stage part next) cursor parts failed aborted caller := by
  refine ⟨h.cursor_le, h.waiting_update hpart ?_, h.lost_update ?_, h.aborted, h.numbers,
    h.accepted_update (ne_accepted_of_inFlight hpart) (ne_accepted_of_inFlight hnext), h.positive⟩
  · rintro rfl
    cases hnext
  · rintro rfl
    cases hnext

theorem Parts.take (h : Parts total stage cursor parts failed aborted caller)
    (hlt : cursor < total) :
    Parts total (Function.update stage cursor .presigning) (cursor + 1) parts failed aborted
      caller := by
  have hwaiting : stage cursor = .waiting := (h.waiting cursor).mpr le_rfl
  refine ⟨hlt, fun other => ?_, h.lost_update (by decide), h.aborted, h.numbers,
    h.accepted_update (by rw [hwaiting]; decide) (by decide), h.positive⟩
  by_cases heq : other = cursor
  · subst heq
    rw [Function.update_self]
    exact iff_of_false (by decide) (by omega)
  · rw [Function.update_of_ne heq, h.waiting]
    omega

theorem Parts.lose (h : Parts total stage cursor parts failed aborted caller)
    (hpart : (stage part).inFlight = true) :
    Parts total (Function.update stage part .lost) cursor parts true true caller :=
  ⟨h.cursor_le, h.waiting_update hpart (by decide), fun _ _ => rfl, fun _ => .inl rfl, h.numbers,
    h.accepted_update (ne_accepted_of_inFlight hpart) (by decide), h.positive⟩

theorem Parts.accept (h : Parts total stage cursor parts failed aborted caller)
    (hpart : (stage part).inFlight = true) (etag : String) :
    Parts total (Function.update stage part .accepted) cursor (parts ++ [⟨part + 1, etag⟩]) failed
      aborted caller := by
  have hnew : part + 1 ∉ parts.map CompletedPart.part_number := by
    rw [h.accepted]
    exact ne_accepted_of_inFlight hpart
  refine ⟨h.cursor_le, h.waiting_update hpart (by decide), h.lost_update (by decide), h.aborted,
    ?_, fun other => ?_, ?_⟩
  · rw [List.map_append, List.nodup_append]
    refine ⟨h.numbers, List.nodup_singleton _, fun number hnumber other hother => ?_⟩
    rw [List.map_singleton, List.mem_singleton] at hother
    subst hother
    rintro rfl
    exact hnew hnumber
  · rw [List.map_append, List.mem_append, h.accepted, List.map_singleton, List.mem_singleton]
    by_cases heq : other = part
    · subst heq
      simp
    · rw [Function.update_of_ne heq]
      simp [heq]
  · rw [List.map_append, List.mem_append, List.map_singleton, List.mem_singleton]
    rintro (hzero | hzero)
    · exact h.positive hzero
    · simp at hzero

end Parts

theorem sound_takeNext (h : Sound total s) : Sound total (takeNext total s) := by
  unfold takeNext
  split_ifs with hnext
  · rw [Bool.and_eq_true, decide_eq_true_eq] at hnext
    exact h.take hnext.2
  · exact h

theorem sound_startWorkers (count : ℕ) : ∀ {s}, Sound total s →
    Sound total (startWorkers total count s) := by
  induction count with
  | zero => exact fun h => h
  | succ count ih => exact fun h => ih (sound_takeNext h)

/-- Parts that are numbered without a gap are in order once they are sorted. -/
theorem sortedParts_of_perm {parts : List CompletedPart} {count : ℕ}
    (h : (parts.map CompletedPart.part_number).Perm ((List.range count).map fun part => part + 1)) :
    (sortedParts parts).map CompletedPart.part_number =
      (List.range count).map fun part => part + 1 := by
  have hperm : ((sortedParts parts).map CompletedPart.part_number).Perm
      ((List.range count).map fun part => part + 1) := ((Lists.sortedBy_perm _ _).map _).trans h
  refine hperm.eq_of_pairwise (fun a b _ _ => le_antisymm) ?_ ?_
  · rw [List.pairwise_map]
    exact Lists.sortedBy_pairwise _ _
  · rw [List.pairwise_map]
    exact List.pairwise_lt_range.imp fun hlt => by omega

/-- Once all workers of a sound upload ended, its parts are all there, in order. -/
theorem sortedParts_of_ended (h : Sound total s)
    (hcursor : s.cursor = total) (hended : allEnded s = true) (hfailed : s.failed = false) :
    (sortedParts s.completedParts).map CompletedPart.part_number =
        (List.range total).map (fun part => part + 1) ∧
      ∀ part < total, s.stage part = .accepted := by
  have haccepted : ∀ part < total, s.stage part = .accepted := by
    intro part hpart
    have hnot : (s.stage part).inFlight = false := by
      have hall := List.all_eq_true.mp hended part (List.mem_range.mpr (hcursor ▸ hpart))
      simpa using hall
    have hwaiting : s.stage part ≠ .waiting := by
      rw [Ne, h.waiting]
      omega
    have hlost : s.stage part ≠ .lost := by
      intro hlost
      rw [h.lost part hlost] at hfailed
      cases hfailed
    rcases hstage : s.stage part with - | - | - | - | - | -
    · exact absurd hstage hwaiting
    · rw [hstage] at hnot
      cases hnot
    · rw [hstage] at hnot
      cases hnot
    · rw [hstage] at hnot
      cases hnot
    · rfl
    · exact absurd hstage hlost
  refine ⟨?_, haccepted⟩
  refine sortedParts_of_perm ((List.perm_ext_iff_of_nodup h.numbers ?_).mpr fun number => ?_)
  · exact List.nodup_range.map fun a b hab => by
      have hsucc : a + 1 = b + 1 := hab
      omega
  · rcases number with - | part
    · refine iff_of_false h.positive ?_
      rw [List.mem_map]
      rintro ⟨part, -, hzero⟩
      omega
    · rw [h.accepted, List.mem_map]
      constructor
      · intro hstage
        refine ⟨part, List.mem_range.mpr ?_, rfl⟩
        by_contra hle
        rw [(h.waiting part).mpr (by omega)] at hstage
        cases hstage
      · rintro ⟨other, hother, heq⟩
        obtain rfl : other = part := by omega
        exact haccepted other (List.mem_range.mp hother)

/-! ## Runs -/

/-- What a worker's step leaves alone. -/
structure Frame (s s' : FileUpload) : Prop where
  phase : s'.phase = s.phase
  initiated : s'.initiated = s.initiated
  callerAborted : s'.callerAborted = s.callerAborted
  completeCalls : s'.completeCalls = s.completeCalls
  completeSucceeded : s'.completeSucceeded = s.completeSucceeded
  abortCalls : s'.abortCalls = s.abortCalls

theorem Frame.refl (s : FileUpload) : Frame s s := ⟨rfl, rfl, rfl, rfl, rfl, rfl⟩

theorem Frame.trans {s s' s'' : FileUpload} (h : Frame s s') (h' : Frame s' s'') : Frame s s'' :=
  ⟨h'.phase.trans h.phase, h'.initiated.trans h.initiated,
    h'.callerAborted.trans h.callerAborted, h'.completeCalls.trans h.completeCalls,
    h'.completeSucceeded.trans h.completeSucceeded, h'.abortCalls.trans h.abortCalls⟩

theorem frame_takeNext (total : ℕ) (s : FileUpload) : Frame s (FileUpload.takeNext total s) := by
  unfold takeNext
  split_ifs
  · exact ⟨rfl, rfl, rfl, rfl, rfl, rfl⟩
  · exact Frame.refl s

theorem frame_lose (total : ℕ) (s : FileUpload) (part : ℕ) : Frame s (lose total s part) := by
  unfold lose takeNext
  split_ifs
  · exact ⟨rfl, rfl, rfl, rfl, rfl, rfl⟩
  · exact ⟨rfl, rfl, rfl, rfl, rfl, rfl⟩

theorem frame_accept (total : ℕ) (s : FileUpload) (part : ℕ) (etag : String) :
    Frame s (accept total s part etag) := by
  unfold accept takeNext
  split_ifs
  · exact ⟨rfl, rfl, rfl, rfl, rfl, rfl⟩
  · exact ⟨rfl, rfl, rfl, rfl, rfl, rfl⟩

theorem frame_startWorkers (total count : ℕ) :
    ∀ s, Frame s (startWorkers total count s) := by
  induction count with
  | zero => exact Frame.refl
  | succ count ih => exact fun s => (frame_takeNext total s).trans (ih _)

/-- While parts remain and nothing was aborted some worker has a part. -/
def Busy (total : ℕ) (s : FileUpload) : Prop :=
  s.transferAborted = false → s.cursor < total → ∃ part, (s.stage part).inFlight = true

theorem busy_takeNext (total : ℕ) (s : FileUpload) : Busy total (FileUpload.takeNext total s) := by
  unfold takeNext
  split_ifs with hnext
  · intro _ _
    refine ⟨s.cursor, ?_⟩
    show (Function.update s.stage s.cursor Stage.presigning s.cursor).inFlight = true
    rw [Function.update_self]
    rfl
  · intro haborted hlt
    rw [haborted] at hnext
    simp [hlt] at hnext

theorem busy_startWorkers (total count : ℕ) : ∀ s, Busy total s →
    Busy total (FileUpload.startWorkers total count s) := by
  induction count with
  | zero => exact fun _ h => h
  | succ count ih => exact fun s _ => ih _ (busy_takeNext total s)

/-- The parts of a completed upload, in order. -/
def WholeCall (total : ℕ) (s : FileUpload) (call : List CompletedPart) : Prop :=
  call.map CompletedPart.part_number = (List.range total).map (fun part => part + 1) ∧
    ∀ part < total, s.stage part = .accepted

structure Inv (total : ℕ) (s : FileUpload) : Prop where
  parts : Sound total s
  fresh : s.phase = .starting ∨ s.phase = .initiating →
    s.initiated = false ∧ s.failed = false ∧ s.cursor = 0
  initiated : s.phase = .uploading ∨ s.phase = .completing ∨ s.phase = .aborting →
    s.initiated = true
  busy : s.phase = .uploading → Busy total s
  ended : s.phase ≠ .uploading → ∀ part, (s.stage part).inFlight = false
  uncalled : s.phase = .starting ∨ s.phase = .initiating ∨ s.phase = .uploading →
    s.completeCalls = []
  called : s.completeCalls = [] ∨ ∃ call, s.completeCalls = [call] ∧ WholeCall total s call
  unaborted : s.phase ≠ .aborting → s.phase ≠ .settled → s.abortCalls = 0
  aborting : s.phase = .aborting → s.abortCalls = 1
  settled : s.phase = .settled → s.initiated = true →
    s.completeSucceeded = true ∨ s.abortCalls = 1
  unsucceeded : s.phase ≠ .settled → s.completeSucceeded = false

theorem Inv.start (total : ℕ) : Inv total FileUpload.start := by
  constructor
  · exact sound_start total
  all_goals simp [FileUpload.start, Stage.inFlight]

theorem Inv.uploading_of_inFlight (h : Inv total s) {part : ℕ}
    (hpart : (s.stage part).inFlight = true) : s.phase = .uploading := by
  by_contra hphase
  rw [h.ended hphase part] at hpart
  cases hpart

/-- A worker's step keeps the invariant. -/
theorem Inv.worker {s' : FileUpload} (h : Inv total s) (hphase : s.phase = .uploading)
    (hframe : Frame s s') (hparts : Sound total s') (hbusy : Busy total s') : Inv total s' := by
  have hphase' : s'.phase = .uploading := hframe.phase.trans hphase
  have hcalls : s'.completeCalls = [] := hframe.completeCalls.trans (h.uncalled (.inr (.inr hphase)))
  refine ⟨hparts, ?_, ?_, fun _ => hbusy, fun hne => absurd hphase' hne, fun _ => hcalls,
    .inl hcalls, ?_, ?_, ?_, ?_⟩
  · rw [hphase']
    rintro (hne | hne)
    · cases hne
    · cases hne
  · rw [hframe.initiated]
    exact fun _ => h.initiated (.inl hphase)
  · rw [hframe.abortCalls]
    exact fun _ _ => h.unaborted (by simp [hphase]) (by simp [hphase])
  · rw [hphase']
    rintro ⟨⟩
  · rw [hphase']
    rintro ⟨⟩
  · rw [hframe.completeSucceeded]
    exact fun _ => h.unsucceeded (by simp [hphase])

theorem Inv.lose (h : Inv total s) {part : ℕ} (hpart : (s.stage part).inFlight = true) :
    Inv total (FileUpload.lose total s part) :=
  h.worker (h.uploading_of_inFlight hpart) (frame_lose total s part)
    (sound_takeNext (h.parts.lose hpart)) (busy_takeNext total _)

theorem Inv.accept (h : Inv total s) {part : ℕ} (hpart : (s.stage part).inFlight = true)
    (etag : String) : Inv total (FileUpload.accept total s part etag) :=
  h.worker (h.uploading_of_inFlight hpart) (frame_accept total s part etag)
    (sound_takeNext (h.parts.accept hpart etag)) (busy_takeNext total _)

theorem Inv.move (h : Inv total s) {part : ℕ} {stage : Stage}
    (hpart : (s.stage part).inFlight = true) (hstage : stage.inFlight = true) :
    Inv total { s with stage := Function.update s.stage part stage } := by
  refine h.worker (h.uploading_of_inFlight hpart) ⟨rfl, rfl, rfl, rfl, rfl, rfl⟩
    (h.parts.move hpart hstage) fun _ _ => ⟨part, ?_⟩
  show (Function.update s.stage part stage part).inFlight = true
  rw [Function.update_self]
  exact hstage

theorem ended_of_allEnded (h : Sound total s) (hended : allEnded s = true) (part : ℕ) :
    (s.stage part).inFlight = false := by
  by_cases hlt : part < s.cursor
  · simpa using List.all_eq_true.mp hended part (List.mem_range.mpr hlt)
  · rw [(h.waiting part).mpr (by omega)]
    rfl

/-- The upload of parts ended soundly, so all of them are there. -/
theorem Inv.wholeCall (h : Inv total s) (hphase : s.phase = .uploading)
    (hended : allEnded s = true) (hsound : (s.failed || s.callerAborted) = false) :
    WholeCall total s (sortedParts s.completedParts) := by
  rw [Bool.or_eq_false_iff] at hsound
  have hrunning : s.transferAborted = false := by
    rcases haborted : s.transferAborted with - | -
    · rfl
    · rcases h.parts.aborted haborted with hfailed | hcaller
      · rw [hsound.1] at hfailed
        cases hfailed
      · rw [hsound.2] at hcaller
        cases hcaller
  have hcursor : s.cursor = total := by
    have hle := h.parts.cursor_le
    by_contra hne
    obtain ⟨part, hpart⟩ := h.busy hphase hrunning (by omega)
    rw [ended_of_allEnded h.parts hended part] at hpart
    cases hpart
  exact sortedParts_of_ended h.parts hcursor hended hsound.1

theorem Inv.step_started (h : Inv total s) {s' : FileUpload}
    (hstep : FileUpload.step total partSize concurrency s .started = some s') : Inv total s' := by
  obtain ⟨hphase, heq⟩ := Option.ite_none_right_eq_some.mp hstep
  cases heq
  obtain ⟨hinitiated, hfailed, hcursor⟩ := h.fresh (.inl hphase)
  have hcalls := h.uncalled (.inl hphase)
  have habort := h.unaborted (by simp [hphase]) (by simp [hphase])
  have hsucceeded := h.unsucceeded (by simp [hphase])
  have hended := h.ended (by simp [hphase])
  refine ⟨h.parts, fun _ => ⟨hinitiated, hfailed, hcursor⟩, ?_, ?_,
    fun _ => hended, fun _ => hcalls, .inl hcalls, fun _ _ => habort, ?_, ?_, fun _ => hsucceeded⟩
  · simp only
    split_ifs <;> simp
  · simp only
    split_ifs <;> simp
  · simp only
    split_ifs <;> simp
  · intro _ hinit
    rw [show s.initiated = true from hinit] at hinitiated
    cases hinitiated

theorem Inv.step_initiated (hconcurrency : 1 ≤ concurrency) (h : Inv total s) {s' : FileUpload}
    (hstep : FileUpload.step total partSize concurrency s .initiated = some s') : Inv total s' := by
  obtain ⟨hphase, heq⟩ := Option.ite_none_right_eq_some.mp hstep
  obtain rfl := Option.some.inj heq
  have hcalls := h.uncalled (.inr (.inl hphase))
  have habort := h.unaborted (by simp [hphase]) (by simp [hphase])
  have hsucceeded := h.unsucceeded (by simp [hphase])
  have hframe := frame_startWorkers total (min concurrency total)
    { s with phase := .uploading, initiated := true }
  have hparts : Sound total { s with phase := .uploading, initiated := true } :=
    h.parts
  have hbusy : Busy total (FileUpload.startWorkers total (min concurrency total)
      { s with phase := .uploading, initiated := true }) := by
    rcases hcount : min concurrency total with - | count
    · intro _ hlt
      have hcursor := hparts.cursor_le
      have htotal : total = 0 := by omega
      omega
    · exact busy_startWorkers total count _ (busy_takeNext total _)
  refine ⟨sound_startWorkers _ hparts, ?_, fun _ => hframe.initiated, fun _ => hbusy,
    fun hne => absurd hframe.phase hne, fun _ => hframe.completeCalls.trans hcalls,
    .inl (hframe.completeCalls.trans hcalls), fun _ _ => hframe.abortCalls.trans habort, ?_, ?_,
    fun _ => hframe.completeSucceeded.trans hsucceeded⟩
  · rw [hframe.phase]
    simp
  · rw [hframe.phase]
    simp
  · rw [hframe.phase]
    simp

theorem Inv.step_initiateFailed (h : Inv total s) {s' : FileUpload}
    (hstep : FileUpload.step total partSize concurrency s .initiateFailed = some s') : Inv total s' := by
  obtain ⟨hphase, heq⟩ := Option.ite_none_right_eq_some.mp hstep
  cases heq
  obtain ⟨hinitiated, -, -⟩ := h.fresh (.inr hphase)
  refine ⟨h.parts, by simp, by simp, by simp,
    fun _ => h.ended (by simp [hphase]), by simp, h.called, by simp, by simp, ?_, by simp⟩
  intro _ hinit
  rw [show s.initiated = true from hinit] at hinitiated
  cases hinitiated

theorem Inv.step_joined (h : Inv total s) {s' : FileUpload}
    (hstep : FileUpload.step total partSize concurrency s .joined = some s') : Inv total s' := by
  obtain ⟨⟨hphase, hended⟩, heq⟩ := Option.ite_none_right_eq_some.mp hstep
  have hcalls := h.uncalled (.inr (.inr hphase))
  have habort := h.unaborted (by simp [hphase]) (by simp [hphase])
  have hsucceeded := h.unsucceeded (by simp [hphase])
  have hinitiated := h.initiated (.inl hphase)
  have hparts : Sound total s := h.parts
  split_ifs at heq with hsound
  · cases heq
    refine ⟨hparts, by simp [abortStarted], fun _ => hinitiated,
      by simp [abortStarted], fun _ => ended_of_allEnded hparts hended, fun _ => hcalls, .inl hcalls,
      by simp [abortStarted], fun _ => by simp [abortStarted, habort], by simp [abortStarted],
      fun _ => hsucceeded⟩
  · cases heq
    have hwhole := h.wholeCall hphase hended (by simpa using hsound)
    refine ⟨hparts, by simp, fun _ => hinitiated, by simp,
      fun _ => ended_of_allEnded hparts hended, by simp, .inr ⟨_, ?_, hwhole⟩,
      fun _ _ => habort, by simp,
      by simp, fun _ => hsucceeded⟩
    rw [hcalls]
    rfl

theorem Inv.step_completeFailed (h : Inv total s) {s' : FileUpload}
    (hstep : FileUpload.step total partSize concurrency s .completeFailed = some s') : Inv total s' := by
  obtain ⟨hphase, heq⟩ := Option.ite_none_right_eq_some.mp hstep
  cases heq
  have habort := h.unaborted (by simp [hphase]) (by simp [hphase])
  refine ⟨h.parts, by simp [abortStarted],
    fun _ => h.initiated (.inr (.inl hphase)), by simp [abortStarted],
    fun _ => h.ended (by simp [hphase]), by simp [abortStarted], h.called, by simp [abortStarted],
    fun _ => by simp [abortStarted, habort], by simp [abortStarted],
    fun _ => h.unsucceeded (by simp [hphase])⟩

theorem Inv.step (hconcurrency : 1 ≤ concurrency) (h : Inv total s) {event : FileEvent}
    {s' : FileUpload} (hstep : FileUpload.step total partSize concurrency s event = some s') :
    Inv total s' := by
  cases event with
  | callerAborts =>
    cases hstep
    refine ⟨⟨h.parts.cursor_le, h.parts.waiting, h.parts.lost, fun _ => .inr rfl, h.parts.numbers,
      h.parts.accepted, h.parts.positive⟩, h.fresh, h.initiated, fun _ hrunning => ?_, h.ended,
      h.uncalled, h.called, h.unaborted, h.aborting, h.settled, h.unsucceeded⟩
    cases hrunning
  | started => exact h.step_started hstep
  | initiated => exact h.step_initiated hconcurrency hstep
  | initiateFailed => exact h.step_initiateFailed hstep
  | presigned part =>
    obtain ⟨hstage, heq⟩ := Option.ite_none_right_eq_some.mp hstep
    obtain rfl := Option.some.inj heq
    have hpart : (s.stage part).inFlight = true := by rw [hstage]; rfl
    split_ifs
    · exact h.lose hpart
    · exact h.move hpart rfl
  | presignFailed part =>
    obtain ⟨hstage, heq⟩ := Option.ite_none_right_eq_some.mp hstep
    obtain rfl := Option.some.inj heq
    exact h.lose (by rw [hstage]; rfl)
  | answered part =>
    obtain ⟨hstage, heq⟩ := Option.ite_none_right_eq_some.mp hstep
    obtain rfl := Option.some.inj heq
    exact h.move (by rw [hstage]; rfl) rfl
  | putFailed part =>
    obtain ⟨hstage, heq⟩ := Option.ite_none_right_eq_some.mp hstep
    obtain rfl := Option.some.inj heq
    exact h.lose (by rw [hstage]; rfl)
  | checked part etag =>
    obtain ⟨hstage, heq⟩ := Option.ite_none_right_eq_some.mp hstep
    have hpart : (s.stage part).inFlight = true := by rw [hstage]; rfl
    rcases etag with - | etag
    · obtain rfl := Option.some.inj heq
      exact h.lose hpart
    · obtain rfl := Option.some.inj heq
      exact h.accept hpart etag
  | joined => exact h.step_joined hstep
  | completed =>
    obtain ⟨hphase, heq⟩ := Option.ite_none_right_eq_some.mp hstep
    cases heq
    refine ⟨h.parts, by simp, by simp, by simp,
      fun _ => h.ended (by simp [hphase]), by simp, h.called, by simp, by simp, fun _ _ => .inl rfl,
      by simp⟩
  | completeFailed => exact h.step_completeFailed hstep
  | abortSettled =>
    obtain ⟨hphase, heq⟩ := Option.ite_none_right_eq_some.mp hstep
    cases heq
    have habort := h.aborting hphase
    refine ⟨h.parts, by simp, by simp, by simp,
      fun _ => h.ended (by simp [hphase]), by simp, h.called, by simp, by simp,
      fun _ _ => .inr habort, by simp⟩

theorem reached_inv (hconcurrency : 1 ≤ concurrency) {start s : FileUpload} (hstart : Inv total start)
    (h : Reached (FileUpload.step total partSize concurrency) anyStep start s) : Inv total s :=
  h.invariant hstart fun _ _ _ hinv _ hstep => hinv.step hconcurrency hstep

/-- Complete was not called, or once, with all parts; what was not completed is aborted in the end. -/
def Whole (total : ℕ) (s : FileUpload) : Prop :=
  (s.completeCalls = [] ∨ ∃ call, s.completeCalls = [call] ∧ WholeCall total s call) ∧
    (s.phase = .settled → s.initiated = true → s.completeSucceeded = false → s.abortCalls = 1)

/-- The next step calls complete only if the caller did not abort and no part is lost, and abort only if
no part is on its way. -/
def CallsInTime (total partSize concurrency : ℕ) (s : FileUpload) : Prop :=
  ∀ event s', FileUpload.step total partSize concurrency s event = some s' →
    (s'.completeCalls ≠ s.completeCalls →
      s.callerAborted = false ∧ ∀ part, s.stage part ≠ .lost) ∧
    (s'.abortCalls ≠ s.abortCalls → s.initiated = true ∧ s.completeSucceeded = false ∧
      ∀ part, (s.stage part).inFlight = false)

theorem Inv.whole (h : Inv total s) : Whole total s := by
  refine ⟨h.called, fun hphase hinitiated hfailed => ?_⟩
  rcases h.settled hphase hinitiated with hsucceeded | haborted
  · rw [hfailed] at hsucceeded
    cases hsucceeded
  · exact haborted

theorem Inv.callsInTime (h : Inv total s) : CallsInTime total partSize concurrency s := by
  intro event s' hstep
  have hworker : Frame s s' →
      (s'.completeCalls ≠ s.completeCalls →
        s.callerAborted = false ∧ ∀ part, s.stage part ≠ .lost) ∧
      (s'.abortCalls ≠ s.abortCalls → s.initiated = true ∧ s.completeSucceeded = false ∧
        ∀ part, (s.stage part).inFlight = false) :=
    fun hframe => ⟨fun hne => absurd hframe.completeCalls hne,
      fun hne => absurd hframe.abortCalls hne⟩
  cases event with
  | callerAborts =>
    cases hstep
    exact ⟨fun hne => absurd rfl hne, fun hne => absurd rfl hne⟩
  | started =>
    obtain ⟨-, heq⟩ := Option.ite_none_right_eq_some.mp hstep
    obtain rfl := Option.some.inj heq
    exact ⟨fun hne => absurd rfl hne, fun hne => absurd rfl hne⟩
  | initiated =>
    obtain ⟨-, heq⟩ := Option.ite_none_right_eq_some.mp hstep
    obtain rfl := Option.some.inj heq
    have hframe := frame_startWorkers total (min concurrency total)
      { s with phase := .uploading, initiated := true }
    exact ⟨fun hne => absurd hframe.completeCalls hne, fun hne => absurd hframe.abortCalls hne⟩
  | initiateFailed =>
    obtain ⟨-, heq⟩ := Option.ite_none_right_eq_some.mp hstep
    obtain rfl := Option.some.inj heq
    exact ⟨fun hne => absurd rfl hne, fun hne => absurd rfl hne⟩
  | presigned part =>
    obtain ⟨-, heq⟩ := Option.ite_none_right_eq_some.mp hstep
    obtain rfl := Option.some.inj heq
    refine hworker ?_
    split_ifs
    · exact frame_lose total s part
    · exact ⟨rfl, rfl, rfl, rfl, rfl, rfl⟩
  | presignFailed part =>
    obtain ⟨-, heq⟩ := Option.ite_none_right_eq_some.mp hstep
    obtain rfl := Option.some.inj heq
    exact hworker (frame_lose total s part)
  | answered part =>
    obtain ⟨-, heq⟩ := Option.ite_none_right_eq_some.mp hstep
    obtain rfl := Option.some.inj heq
    exact hworker ⟨rfl, rfl, rfl, rfl, rfl, rfl⟩
  | putFailed part =>
    obtain ⟨-, heq⟩ := Option.ite_none_right_eq_some.mp hstep
    obtain rfl := Option.some.inj heq
    exact hworker (frame_lose total s part)
  | checked part etag =>
    obtain ⟨-, heq⟩ := Option.ite_none_right_eq_some.mp hstep
    rcases etag with - | etag
    · obtain rfl := Option.some.inj heq
      exact hworker (frame_lose total s part)
    · obtain rfl := Option.some.inj heq
      exact hworker (frame_accept total s part etag)
  | joined =>
    obtain ⟨⟨hphase, hended⟩, heq⟩ := Option.ite_none_right_eq_some.mp hstep
    split_ifs at heq with hsound
    · obtain rfl := Option.some.inj heq
      exact ⟨fun hne => absurd rfl hne, fun _ => ⟨h.initiated (.inl hphase),
        h.unsucceeded (by simp [hphase]), ended_of_allEnded h.parts hended⟩⟩
    · obtain rfl := Option.some.inj heq
      simp only [Bool.or_eq_true, not_or, Bool.not_eq_true] at hsound
      refine ⟨fun _ => ⟨hsound.2, fun part hlost => ?_⟩, fun hne => absurd rfl hne⟩
      rw [h.parts.lost part hlost] at hsound
      cases hsound.1
  | completed =>
    obtain ⟨-, heq⟩ := Option.ite_none_right_eq_some.mp hstep
    obtain rfl := Option.some.inj heq
    exact ⟨fun hne => absurd rfl hne, fun hne => absurd rfl hne⟩
  | completeFailed =>
    obtain ⟨hphase, heq⟩ := Option.ite_none_right_eq_some.mp hstep
    obtain rfl := Option.some.inj heq
    exact ⟨fun hne => absurd rfl hne, fun _ => ⟨h.initiated (.inr (.inl hphase)),
      h.unsucceeded (by simp [hphase]), h.ended (by simp [hphase])⟩⟩
  | abortSettled =>
    obtain ⟨-, heq⟩ := Option.ite_none_right_eq_some.mp hstep
    obtain rfl := Option.some.inj heq
    exact ⟨fun hne => absurd rfl hne, fun hne => absurd rfl hne⟩

/-- Whatever the caller does, an upload that is not settled goes on. -/
def GoesOn (total partSize concurrency : ℕ) (s : FileUpload) : Prop :=
  s.phase ≠ .settled → ∃ event s', event ≠ .callerAborts ∧
    FileUpload.step total partSize concurrency s event = some s'

theorem goesOn (s : FileUpload) : GoesOn total partSize concurrency s := by
  intro hsettled
  rcases hphase : s.phase with - | - | - | - | - | -
  · exact ⟨.started, _, by simp, if_pos hphase⟩
  · exact ⟨.initiated, _, by simp, if_pos hphase⟩
  · by_cases hended : allEnded s = true
    · rcases hsound : s.failed || s.callerAborted with - | -
      · exact ⟨.joined, _, by simp, (if_pos ⟨hphase, hended⟩).trans (if_neg (by simp [hsound]))⟩
      · exact ⟨.joined, _, by simp, (if_pos ⟨hphase, hended⟩).trans (if_pos hsound)⟩
    · unfold allEnded at hended
      simp only [List.all_eq_true, not_forall, Bool.not_eq_true', Bool.not_eq_false] at hended
      obtain ⟨part, -, hpart⟩ := hended
      rcases hstage : s.stage part with - | - | - | - | - | -
      · rw [hstage] at hpart
        cases hpart
      · exact ⟨.presignFailed part, _, by simp, if_pos hstage⟩
      · exact ⟨.putFailed part, _, by simp, if_pos hstage⟩
      · exact ⟨.checked part none, _, by simp, if_pos hstage⟩
      · rw [hstage] at hpart
        cases hpart
      · rw [hstage] at hpart
        cases hpart
  · exact ⟨.completed, _, by simp, if_pos hphase⟩
  · exact ⟨.abortSettled, _, by simp, if_pos hphase⟩
  · exact absurd hphase hsettled

end FileUpload

end BucketReef.Multipart

import BucketReef.Integrity.Verification

/-!
# What a verification returns

A verification that is not stopped has compared every candidate of its scan once. The results count
a pair as verified exactly when its worker answers that the contents are equal, and list it as failed
otherwise.
-/

namespace BucketReef
namespace Integrity

open Migration

variable {α : Type} {schedule : Schedule α} {worker : Worker α}

/-- The worker finds the contents equal. -/
def Worker.passes (worker : Worker α) (item : α) : Bool :=
  match worker item with
  | some (verified, _) => verified
  | none => false

/-- The results are those of the pairs compared. -/
structure Sound (worker : Worker α) (results : VerificationResults α) : Prop where
  verified : results.verifiedCount = results.compared.countP worker.passes
  failed : results.failed = results.compared.filter fun item => !worker.passes item

theorem sound_empty : Sound worker ({} : VerificationResults α) := ⟨rfl, rfl⟩

theorem Sound.count {results : VerificationResults α} (h : Sound worker results) :
    results.verifiedCount + results.failed.length = results.compared.length := by
  rw [h.verified, h.failed, ← List.countP_eq_length_filter,
    List.length_eq_countP_add_countP worker.passes]
  simp

/-! ## A batch -/

@[simp] theorem countMethod_verifiedCount (results : VerificationResults α)
    (method : VerificationMethod) :
    (results.countMethod method).verifiedCount = results.verifiedCount := by cases method <;> rfl

@[simp] theorem countMethod_failed (results : VerificationResults α) (method : VerificationMethod) :
    (results.countMethod method).failed = results.failed := by cases method <;> rfl

theorem compared_takeFuture (results : VerificationResults α) (item : α) :
    (takeFuture worker results item).compared = results.compared ++ [item] := by
  unfold takeFuture
  split
  · rfl
  · unfold VerificationResults.record
    split <;> rfl

theorem Sound.takeFuture {results : VerificationResults α} (h : Sound worker results) (item : α) :
    Sound worker (takeFuture worker results item) := by
  unfold Integrity.takeFuture
  cases hitem : worker item with
  | none =>
    have hfails : worker.passes item = false := by simp [Worker.passes, hitem]
    refine ⟨?_, ?_⟩
    · simp [VerificationResults.recordFailure, h.verified, hfails]
    · simp [VerificationResults.recordFailure, h.failed, hfails]
  | some answer =>
    obtain ⟨verified, method⟩ := answer
    have hpasses : worker.passes item = verified := by simp [Worker.passes, hitem]
    cases verified <;> refine ⟨?_, ?_⟩ <;>
      simp [VerificationResults.record, h.verified, h.failed, hpasses]

theorem compared_foldl_takeFuture (items : List α) (results : VerificationResults α) :
    (items.foldl (takeFuture worker) results).compared = results.compared ++ items := by
  induction items generalizing results with
  | nil => simp
  | cons item rest ih => simp [ih, compared_takeFuture]

theorem Sound.foldl_takeFuture {results : VerificationResults α} (h : Sound worker results)
    (items : List α) : Sound worker (items.foldl (Integrity.takeFuture worker) results) := by
  induction items generalizing results with
  | nil => exact h
  | cons item rest ih => exact ih (h.takeFuture item)

/-- The futures of every round are taken, whatever the control checks answer. -/
theorem drain_spec (rounds : List (List α)) (checks : ℕ) (interruptedBy : Option ControlState)
    {results : VerificationResults α} (h : Sound worker results) :
    Sound worker (drain schedule worker rounds checks interruptedBy results).2.2 ∧
      (drain schedule worker rounds checks interruptedBy results).2.2.compared =
        results.compared ++ rounds.flatten := by
  induction rounds generalizing checks interruptedBy results with
  | nil => exact ⟨h, by simp [drain]⟩
  | cons done rounds ih =>
    obtain ⟨hsound, hcompared⟩ := ih (checks + 1)
      (interruptedState interruptedBy (schedule.control checks)) (h.foldl_takeFuture done)
    refine ⟨hsound, ?_⟩
    rw [drain, hcompared, compared_foldl_takeFuture, List.flatten_cons, List.append_assoc]

/-- What a step from `results` to `results'` has to do with a batch: it compares its pairs. -/
structure Compares (worker : Worker α) (batch : List α) (results results' : VerificationResults α) :
    Prop where
  sound : Sound worker results → Sound worker results'
  compared : Sound worker results → results'.compared.Perm (results.compared ++ batch)

theorem Compares.refl (results : VerificationResults α) : Compares worker [] results results :=
  ⟨id, fun _ => by simp⟩

theorem Compares.trans {first second : List α} {r r' r'' : VerificationResults α}
    (h : Compares worker first r r') (h' : Compares worker second r' r'') :
    Compares worker (first ++ second) r r'' where
  sound hr := h'.sound (h.sound hr)
  compared hr := by
    refine (h'.compared (h.sound hr)).trans ?_
    rw [← List.append_assoc]
    exact (h.compared hr).append_right second

theorem exists_of_bind_ok {ε β γ : Type} {x : Except ε β} {f : β → Except ε γ} {c : γ}
    (h : x >>= f = .ok c) : ∃ b, x = .ok b ∧ f b = .ok c := by
  cases x with
  | error e => cases h
  | ok b => exact ⟨b, rfl, h⟩

theorem runStrongVerificationBatch_compares {items : List α} {clock clock' : Clock}
    {results results' : VerificationResults α}
    (h : runStrongVerificationBatch schedule worker items clock results = .ok (clock', results')) :
    Compares worker items results results' := by
  unfold runStrongVerificationBatch at h
  obtain ⟨-, -, h⟩ := exists_of_bind_ok h
  obtain ⟨-, -, h⟩ := exists_of_bind_ok h
  cases h
  have hspec {results : VerificationResults α} (hr : Sound worker results) :=
    @drain_spec α schedule worker (schedule.rounds clock.batches items) (clock.checks + 1) none
      results hr
  refine ⟨fun hr => (hspec hr).1, fun hr => ?_⟩
  rw [(hspec hr).2]
  exact (schedule.all_done clock.batches items).append_left results.compared

/-! ## Both ways to flush a batch -/

/-- A flush that succeeds has compared the batch. -/
def Flushes (worker : Worker α) (flush : Flush α) : Prop :=
  ∀ batch clock results clock' results', flush batch clock results = .ok (clock', results') →
    Compares worker batch results results'

theorem foldlM_batches_compares {chunks : List (List α)} {clock clock' : Clock}
    {results results' : VerificationResults α}
    (h : chunks.foldlM (fun (clock, results) chunk =>
      runStrongVerificationBatch schedule worker chunk clock results) (clock, results) =
        .ok (clock', results')) :
    Compares worker chunks.flatten results results' := by
  induction chunks generalizing clock results with
  | nil =>
    cases h
    exact Compares.refl _
  | cons chunk rest ih =>
    rw [List.foldlM_cons] at h
    obtain ⟨⟨middle, next⟩, hchunk, hrest⟩ := exists_of_bind_ok h
    rw [List.flatten_cons]
    exact (runStrongVerificationBatch_compares hchunk).trans (ih hrest)

theorem strongVerifySizeOnlyObjects_compares {keys : List α} {parallelismMax : ℕ}
    {clock clock' : Clock} {now : VerificationResults α}
    (h : strongVerifySizeOnlyObjects schedule worker keys parallelismMax clock = .ok (clock', now)) :
    Compares worker keys {} now := by
  unfold strongVerifySizeOnlyObjects at h
  split at h
  · rename_i hempty
    cases h
    rw [List.isEmpty_iff.mp hempty]
    exact Compares.refl _
  · have hcompares := foldlM_batches_compares h
    rwa [Lists.flatten_slices (by omega)] at hcompares

/-- Merging the results of a batch that started from nothing. -/
theorem Compares.merge {batch : List α} {results now : VerificationResults α}
    (h : Compares worker batch {} now) : Compares worker batch results (results.merge now) where
  sound hr := by
    have hnow := h.sound sound_empty
    exact ⟨by simp [VerificationResults.merge, hr.verified, hnow.verified],
      by simp [VerificationResults.merge, hr.failed, hnow.failed]⟩
  compared _ := by
    have hnow := h.compared sound_empty
    exact hnow.append_left results.compared

theorem flushCurrentVerificationBatch_flushes (workerCount : ℕ) :
    Flushes worker (flushCurrentVerificationBatch schedule worker workerCount) := by
  intro batch clock results clock' results' h
  unfold flushCurrentVerificationBatch at h
  split at h
  · rename_i hempty
    cases h
    rw [List.isEmpty_iff.mp hempty]
    exact Compares.refl results
  · obtain ⟨⟨middle, now⟩, hnow, h⟩ := exists_of_bind_ok h
    cases h
    exact (strongVerifySizeOnlyObjects_compares hnow).merge

theorem flushVersionAwareVerificationBatch_flushes :
    Flushes worker (flushVersionAwareVerificationBatch schedule worker) := by
  intro batch clock results clock' results' h
  unfold flushVersionAwareVerificationBatch at h
  split at h
  · rename_i hempty
    cases h
    rw [List.isEmpty_iff.mp hempty]
    exact Compares.refl results
  · exact runStrongVerificationBatch_compares h

/-! ## The scan -/

/-- After the candidates seen so far: those that were not compared wait in the batch. -/
structure Scanned (worker : Worker α) (seen : List α) (state : VerificationState α) : Prop where
  sound : Sound worker state.results
  all : (state.results.compared ++ state.batch).Perm seen
  counted : state.sizeOnlyCount = seen.length

theorem scanned_start : Scanned worker [] {} := ⟨sound_empty, by simp, rfl⟩

variable {flush : Flush α} {interval batchSize : ℕ}

theorem Scanned.addCandidate (hflush : Flushes worker flush) {seen : List α} {item : α}
    {state state' : VerificationState α} (h : Scanned worker seen state)
    (hstep : addCandidate flush batchSize state item = .ok state') :
    Scanned worker (seen ++ [item]) state' := by
  have hcounted : state.sizeOnlyCount + 1 = (seen ++ [item]).length := by
    rw [h.counted, List.length_append, List.length_singleton]
  have hall : (state.results.compared ++ (state.batch ++ [item])).Perm (seen ++ [item]) := by
    rw [← List.append_assoc]
    exact h.all.append_right [item]
  unfold Integrity.addCandidate at hstep
  split at hstep
  · cases hstep
    exact ⟨h.sound, hall, hcounted⟩
  · obtain ⟨⟨clock, results⟩, hrun, hstep⟩ := exists_of_bind_ok hstep
    cases hstep
    have hcompares := hflush _ _ _ _ _ hrun
    refine ⟨hcompares.sound h.sound, ?_, hcounted⟩
    rw [List.append_nil]
    exact (hcompares.compared h.sound).trans hall

theorem Scanned.candidates (hflush : Flushes worker flush) {candidates seen : List α}
    {state state' : VerificationState α} (h : Scanned worker seen state)
    (hrun : candidates.foldlM (Integrity.addCandidate flush batchSize) state = .ok state') :
    Scanned worker (seen ++ candidates) state' := by
  induction candidates generalizing seen state with
  | nil =>
    cases hrun
    rwa [List.append_nil]
  | cons item rest ih =>
    rw [List.foldlM_cons] at hrun
    obtain ⟨middle, hitem, hrest⟩ := exists_of_bind_ok hrun
    have hscanned := ih (h.addCandidate hflush hitem) hrest
    rwa [List.append_assoc] at hscanned

theorem Scanned.scanRound (hflush : Flushes worker flush) {seen : List α}
    {round : Option (List α)} {state state' : VerificationState α} (h : Scanned worker seen state)
    (hstep : scanRound schedule flush interval batchSize state round = .ok state') :
    ∃ candidates, round = some candidates ∧ Scanned worker (seen ++ candidates) state' := by
  unfold Integrity.scanRound at hstep
  obtain ⟨middle, hmiddle, hstep⟩ := exists_of_bind_ok hstep
  have hscanned : Scanned worker seen middle := by
    unfold checkRound at hmiddle
    split at hmiddle
    · cases hmiddle
      exact ⟨h.sound, h.all, h.counted⟩
    · obtain ⟨-, -, hmiddle⟩ := exists_of_bind_ok hmiddle
      cases hmiddle
      exact ⟨h.sound, h.all, h.counted⟩
  cases round with
  | none => cases hstep
  | some candidates => exact ⟨candidates, rfl, hscanned.candidates hflush hstep⟩

theorem Scanned.rounds (hflush : Flushes worker flush) {rounds : List (Option (List α))}
    {seen : List α} {state state' : VerificationState α} (h : Scanned worker seen state)
    (hrun : rounds.foldlM (Integrity.scanRound schedule flush interval batchSize) state = .ok state') :
    ∃ candidates : List (List α), rounds = candidates.map some ∧
      Scanned worker (seen ++ candidates.flatten) state' := by
  induction rounds generalizing seen state with
  | nil =>
    cases hrun
    exact ⟨[], rfl, by rwa [List.flatten_nil, List.append_nil]⟩
  | cons round rest ih =>
    rw [List.foldlM_cons] at hrun
    obtain ⟨middle, hround, hrest⟩ := exists_of_bind_ok hrun
    obtain ⟨candidates, rfl, hscanned⟩ := h.scanRound hflush hround
    obtain ⟨others, rfl, hscanned⟩ := ih hscanned hrest
    refine ⟨candidates :: others, rfl, ?_⟩
    rwa [List.flatten_cons, ← List.append_assoc]

/-- The scan ends, and its rounds yield these candidates. -/
def CandidateScan.Yields (scan : CandidateScan α) (candidates : List α) : Prop :=
  scan.ends = true ∧ ∃ rounds : List (List α), scan.rounds = rounds.map some ∧ rounds.flatten = candidates

/-- A verification that returns has compared every candidate once, and counted it. -/
theorem verifyCandidates_ok (hflush : Flushes worker flush) {scan : CandidateScan α} {count : ℕ}
    {results : VerificationResults α}
    (h : verifyCandidates schedule flush interval batchSize scan = .ok (count, results)) :
    ∃ candidates, scan.Yields candidates ∧ Sound worker results ∧
      results.compared.Perm candidates ∧ count = candidates.length := by
  unfold verifyCandidates at h
  obtain ⟨state, hstate, h⟩ := exists_of_bind_ok h
  obtain ⟨rounds, hrounds, hscanned⟩ := scanned_start.rounds hflush hstate
  rw [List.nil_append] at hscanned
  split at h
  · cases h
  · rename_i hends
    obtain ⟨⟨clock, last⟩, hlast, h⟩ := exists_of_bind_ok h
    cases h
    have hcompares := hflush _ _ _ _ _ hlast
    exact ⟨rounds.flatten, ⟨by simpa using hends, rounds, hrounds, rfl⟩,
      hcompares.sound hscanned.sound,
      (hcompares.compared hscanned.sound).trans hscanned.all, hscanned.counted⟩

/-! ## Runs that nothing stops -/

/-- Every control check answers to go on, and one round finds every future done. -/
def quiet (α : Type) : Schedule α where
  control _ := .run
  rounds _ items := [items]
  all_done _ items := by simp

/-- The flush never stops a run. -/
def Returns (flush : Flush α) : Prop :=
  ∀ batch clock results, ∃ out, flush batch clock results = .ok out

theorem foldlM_returns {β γ : Type} {f : β → γ → Except Stop β} {l : List γ}
    (h : ∀ b, ∀ c ∈ l, ∃ b', f b c = .ok b') (b : β) : ∃ b', l.foldlM f b = .ok b' := by
  induction l generalizing b with
  | nil => exact ⟨b, rfl⟩
  | cons c rest ih =>
    obtain ⟨middle, hmiddle⟩ := h b c (List.mem_cons_self ..)
    obtain ⟨last, hlast⟩ := ih (fun b c hc => h b c (List.mem_cons_of_mem _ hc)) middle
    refine ⟨last, ?_⟩
    rw [List.foldlM_cons, hmiddle]
    exact hlast

theorem flushCurrentVerificationBatch_returns (workerCount : ℕ) :
    Returns (flushCurrentVerificationBatch (quiet α) worker workerCount) := by
  intro batch clock results
  unfold flushCurrentVerificationBatch strongVerifySizeOnlyObjects
  split
  · exact ⟨_, rfl⟩
  · obtain ⟨⟨last, now⟩, hlast⟩ := foldlM_returns
      (f := fun (state : Clock × VerificationResults α) chunk =>
        runStrongVerificationBatch (quiet α) worker chunk state.1 state.2)
      (fun _ _ _ => ⟨_, rfl⟩) (l := Lists.slices (max 1 (min workerCount batch.length)) batch)
      (clock, {})
    exact ⟨(last, results.merge now), by simp_all [bind, Except.bind, pure, Except.pure]⟩

theorem flushVersionAwareVerificationBatch_returns :
    Returns (flushVersionAwareVerificationBatch (quiet α) worker) := by
  intro batch clock results
  unfold flushVersionAwareVerificationBatch
  split
  · exact ⟨_, rfl⟩
  · exact ⟨_, rfl⟩

theorem addCandidate_returns (hflush : Returns flush) (state : VerificationState α) (item : α) :
    ∃ state', addCandidate flush batchSize state item = .ok state' := by
  unfold addCandidate
  split
  · exact ⟨_, rfl⟩
  · obtain ⟨out, hout⟩ := hflush (state.batch ++ [item]) state.clock state.results
    rw [hout]
    exact ⟨_, rfl⟩

theorem verifyCandidates_returns (hflush : Returns flush) {scan : CandidateScan α}
    {candidates : List α} (hscan : scan.Yields candidates) :
    ∃ out, verifyCandidates (quiet α) flush interval batchSize scan = .ok out := by
  obtain ⟨hends, rounds, hrounds, -⟩ := hscan
  have hstep : ∀ state, ∀ round ∈ scan.rounds,
      ∃ state', scanRound (quiet α) flush interval batchSize state round = .ok state' := by
    intro state round hround
    rw [hrounds] at hround
    obtain ⟨candidates, -, rfl⟩ := List.mem_map.mp hround
    have hcandidates := foldlM_returns (f := addCandidate flush batchSize) (l := candidates)
      fun state item _ => addCandidate_returns hflush state item
    unfold scanRound checkRound
    split
    · exact hcandidates _
    · exact hcandidates _
  obtain ⟨state, hstate⟩ := foldlM_returns hstep {}
  obtain ⟨out, hout⟩ := hflush state.batch state.clock state.results
  unfold verifyCandidates
  rw [hstate]
  refine ⟨(state.sizeOnlyCount, out.2), ?_⟩
  simp [hends, hout, bind, Except.bind, pure, Except.pure]

end Integrity
end BucketReef

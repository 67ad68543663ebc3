import BucketReef.Portal.RestoreSearch

/-!
# Restore runs

What a run does with the candidates of the index: each has one place in it, a copy makes its own key
visible and touches no other, and every step brings the run closer to its end.
-/

namespace BucketReef
namespace DeletedObjects

open Cleanup Lists Transitions Versions

/-! ## Histories -/

/-- The entries of the key, newest first. -/
def history (bucket : List Listed) (key : String) : List Listed := bucket.filter (isOf key)

theorem visible_eq (bucket : List Listed) (key : String) :
    visible bucket key = (history bucket key).head?.any fun entry => !entry.isDeleteMarker := by
  unfold history
  rw [List.head?_filter]
  rfl

theorem visible_congr {bucket bucket' : List Listed} {key : String}
    (h : history bucket key = history bucket' key) : visible bucket key = visible bucket' key := by
  rw [visible_eq, visible_eq, h]

theorem not_visible_of_isDeleted {bucket : List Listed} (h : LatestFirst bucket) {key : String}
    (hdeleted : IsDeleted bucket key) : visible bucket key = false := by
  obtain ⟨entry, hin, hkey, hlatest, hmarker⟩ := hdeleted
  have hmem : entry ∈ history bucket key :=
    List.mem_filter.mpr ⟨hin, by rw [isOf, decide_eq_true_eq]; exact hkey⟩
  have hpairs : (history bucket key).Pairwise fun a b => entryKey a = entryKey b →
      b.raw.isLatest = false := h.filter _
  rw [visible_eq]
  cases hhistory : history bucket key with
  | nil => rfl
  | cons first rest =>
    rw [hhistory] at hmem hpairs
    have hfirst : entryKey first = some key := by
      have hin : first ∈ history bucket key := by
        rw [hhistory]
        exact List.mem_cons_self
      simpa [isOf] using (List.mem_filter.mp hin).2
    rcases List.mem_cons.mp hmem with rfl | hrest
    · simp [hmarker]
    · have hold := (List.pairwise_cons.mp hpairs).1 entry hrest (hfirst.trans hkey.symm)
      rw [hlatest] at hold
      simp at hold

theorem isOf_demote (key other : String) (entry : Listed) :
    isOf other (if isOf key entry then demote entry else entry) = isOf other entry := by
  split <;> rfl

theorem filter_map_demote (key : String) {other : String} (hother : other ≠ key) (l : List Listed) :
    (l.map fun old => if isOf key old then demote old else old).filter (isOf other) =
      l.filter (isOf other) := by
  induction l with
  | nil => rfl
  | cons entry l ih =>
    rw [List.map_cons, List.filter_cons, List.filter_cons, isOf_demote, ih]
    by_cases h : isOf other entry = true
    · have hkey : isOf key entry = false := by
        rw [isOf, decide_eq_true_eq] at h
        simpa [isOf, h] using hother
      rw [if_pos h, if_pos h, hkey]
      rfl
    · rw [if_neg h, if_neg h]

theorem history_putVersion_other (bucket : List Listed) {key other : String} {entry : Listed}
    (hentry : entryKey entry = some key) (hother : other ≠ key) :
    history (putVersion bucket key entry) other = history bucket other := by
  have hskip : isOf other entry = false := by
    simpa [isOf, hentry] using Ne.symm hother
  unfold history putVersion
  rw [List.filter_append, List.filter_cons, hskip, filter_map_demote key hother]
  simp only [Bool.false_eq_true, if_false]
  rw [← List.filter_append, List.takeWhile_append_dropWhile]

theorem visible_putVersion (bucket : List Listed) {key : String} {entry : Listed}
    (hentry : entryKey entry = some key) (hobject : entry.isDeleteMarker = false) :
    visible (putVersion bucket key entry) key = true := by
  have hbefore : (bucket.takeWhile fun old => !isOf key old).filter (isOf key) = [] := by
    rw [List.filter_eq_nil_iff]
    intro old hold
    have hnot := List.all_eq_true.mp List.all_takeWhile old hold
    simpa using hnot
  have hown : isOf key entry = true := by simp [isOf, hentry]
  rw [visible_eq]
  unfold history putVersion
  rw [List.filter_append, hbefore, List.nil_append, List.filter_cons, if_pos hown]
  simp [hobject]

/-- A copy touches the history of its own key only, and makes it visible. -/
theorem copyObject_spec {bucket bucket' : List Listed} {key versionId : String} {stamp : Stamp}
    (h : copyObject bucket key versionId stamp = some bucket') :
    visible bucket' key = true ∧
      ∀ other, other ≠ key → history bucket' other = history bucket other := by
  obtain ⟨source, -, rfl⟩ := Option.map_eq_some_iff.mp h
  exact ⟨visible_putVersion bucket rfl rfl, fun other hother =>
    history_putVersion_other bucket rfl hother⟩

/-- An attempt leaves the bucket alone or copies; one that is restored has copied. -/
theorem attemptCopy_spec {bucket bucket' : List Listed} {job : Job} {attempt : Attempt}
    (h : attemptCopy bucket job attempt = some bucket') :
    (bucket' = bucket ∧ attempt.outcome ≠ .restored) ∨
      ∃ stamp, copyObject bucket job.key job.versionId stamp = some bucket' := by
  unfold attemptCopy at h
  split at h
  · exact Or.inr ⟨_, h⟩
  · exact Or.inr ⟨_, h⟩
  · exact Or.inl ⟨(Option.some.inj h).symm, by simp [Attempt.outcome]⟩

/-! ## The run -/

/-- The failures among what was recorded. -/
def failedOf (recorded : List (String × Outcome)) : List (String × String) :=
  recorded.filterMap fun r =>
    match r.2 with
    | .restored => none
    | .failed detail => some (r.1, detail)

def restoredOf (recorded : List (String × Outcome)) : List String :=
  (recorded.filter fun r => r.2 = .restored).map Prod.fst

/-- Where the candidates of a run stand. -/
structure RunInv (bucket : List Listed) (wanted : List (String × String)) (s : RestoreState) :
    Prop where
  account : (s.recorded.map Prod.fst ++ s.futures.map Job.key ++ s.rest.map Prod.fst).Perm
    (wanted.map Prod.fst)
  rest_wanted : ∀ row ∈ s.rest, row ∈ wanted
  job_wanted : ∀ job ∈ s.futures, (job.key, job.versionId) ∈ wanted
  untouched : ∀ key, key ∉ s.recorded.map Prod.fst →
    (∀ job ∈ s.futures, job.key = key → job.outcome = none) →
    history s.bucket key = history bucket key
  done : ∀ job ∈ s.futures, job.outcome = some .restored → visible s.bucket job.key = true
  recorded : ∀ r ∈ s.recorded, r.2 = .restored → visible s.bucket r.1 = true
  restoredObjects : s.restoredObjects = (restoredOf s.recorded).length
  failedObjects : s.failedObjects = (failedOf s.recorded).length
  failures : s.failures = (failedOf s.recorded).take failureDetailLimit
  completed : s.phase = .completed → s.futures = [] ∧ s.rest = []

variable {bucket : List Listed} {wanted : List (String × String)} {s s' : RestoreState}

theorem runInv_submit (h : RunInv bucket wanted s) (hfutures : s.futures = []) :
    RunInv bucket wanted { s with
      futures := (s.rest.take restoreConcurrency).map fun row =>
        { key := row.1, versionId := row.2 }
      rest := s.rest.drop restoreConcurrency } where
  account := by
    have haccount := h.account
    rw [hfutures, List.map_nil, List.append_nil] at haccount
    have hkeys : ((s.rest.take restoreConcurrency).map fun row =>
        ({ key := row.1, versionId := row.2 } : Job)).map Job.key =
        (s.rest.take restoreConcurrency).map Prod.fst := by
      rw [List.map_map]
      rfl
    show (s.recorded.map Prod.fst ++ List.map Job.key _ ++ _).Perm _
    rw [hkeys, List.append_assoc, ← List.map_append, List.take_append_drop]
    exact haccount
  rest_wanted row hrow := h.rest_wanted row (List.mem_of_mem_drop hrow)
  job_wanted := by
    intro job hjob
    obtain ⟨row, hrow, rfl⟩ := List.mem_map.mp hjob
    exact h.rest_wanted row (List.mem_of_mem_take hrow)
  untouched key hrecorded _ := h.untouched key hrecorded (by simp [hfutures])
  done := by
    intro job hjob hdone
    obtain ⟨row, -, rfl⟩ := List.mem_map.mp hjob
    simp at hdone
  recorded := h.recorded
  restoredObjects := h.restoredObjects
  failedObjects := h.failedObjects
  failures := h.failures
  completed := by
    intro hphase
    obtain ⟨-, hrest⟩ := h.completed hphase
    simp [hrest]

theorem map_key_settleJob (futures : List Job) (key : String) (outcome : Outcome) :
    (settleJob futures key outcome).map Job.key = futures.map Job.key := by
  unfold settleJob
  rw [List.map_map]
  apply List.map_congr_left
  intro job _
  simp only [Function.comp_apply]
  split <;> rfl

theorem mem_settleJob {futures : List Job} {key : String} {outcome : Outcome} {job : Job}
    (h : job ∈ settleJob futures key outcome) :
    ∃ old ∈ futures, old.key = job.key ∧ old.versionId = job.versionId ∧
      (job.key = key ∧ job.outcome = some outcome ∨ job.key ≠ key ∧ job.outcome = old.outcome) := by
  obtain ⟨old, hold, rfl⟩ := List.mem_map.mp h
  by_cases hkey : old.key = key
  · exact ⟨old, hold, by simp [hkey], by simp [hkey], Or.inl (by simp [hkey])⟩
  · exact ⟨old, hold, by simp [hkey], by simp [hkey], Or.inr (by simp [hkey])⟩

/-- A key has one place in a run. -/
theorem RunInv.nodup (h : RunInv bucket wanted s) (hwanted : (wanted.map Prod.fst).Nodup) :
    (s.recorded.map Prod.fst ++ s.futures.map Job.key ++ s.rest.map Prod.fst).Nodup :=
  h.account.nodup_iff.mpr hwanted

theorem eq_of_job_key {futures : List Job} (h : (futures.map Job.key).Nodup) {job job' : Job}
    (hjob : job ∈ futures) (hjob' : job' ∈ futures) (hkey : job.key = job'.key) : job = job' :=
  List.inj_on_of_nodup_map h hjob hjob' hkey

/-- The job of a waiting future. -/
theorem waiting_job {futures : List Job} {key : String} {job : Job}
    (h : (futures.find? fun job => job.key = key && job.outcome.isNone) = some job) :
    job ∈ futures ∧ job.key = key ∧ job.outcome = none := by
  have hsome := List.find?_some h
  simp only [Bool.and_eq_true, decide_eq_true_eq, Option.isNone_iff_eq_none] at hsome
  exact ⟨List.mem_of_find?_eq_some h, hsome⟩

/-- While its call is running, a candidate is as deleted as in the listing. -/
theorem RunInv.history_waiting (h : RunInv bucket wanted s) (hwanted : (wanted.map Prod.fst).Nodup)
    {job : Job} (hjob : job ∈ s.futures) (hwaiting : job.outcome = none) :
    history s.bucket job.key = history bucket job.key := by
  obtain ⟨hfront, -, -⟩ := List.nodup_append.mp (h.nodup hwanted)
  obtain ⟨-, hjobs, hdisjoint⟩ := List.nodup_append.mp hfront
  refine h.untouched job.key ?_ ?_
  · intro hrecorded
    exact hdisjoint _ hrecorded _ (List.mem_map_of_mem hjob) rfl
  · intro other hother hkey
    rw [eq_of_job_key hjobs hother hjob hkey]
    exact hwaiting

theorem runInv_work (h : RunInv bucket wanted s) (hwanted : (wanted.map Prod.fst).Nodup) {job : Job}
    {attempt : Attempt} {left : List Listed} (hjob : job ∈ s.futures)
    (hcopy : attemptCopy s.bucket job attempt = some left) :
    RunInv bucket wanted { s with
      bucket := left, futures := settleJob s.futures job.key attempt.outcome } := by
  obtain ⟨hfront, -, -⟩ := List.nodup_append.mp (h.nodup hwanted)
  obtain ⟨-, hjobs, hdisjoint⟩ := List.nodup_append.mp hfront
  have hothers : ∀ other, other ≠ job.key → history left other = history s.bucket other := by
    rcases attemptCopy_spec hcopy with ⟨rfl, -⟩ | ⟨stamp, hstamp⟩
    · exact fun _ _ => rfl
    · exact (copyObject_spec hstamp).2
  have hvisible : ∀ key, visible s.bucket key = true → visible left key = true := by
    intro key hkey
    by_cases hsame : key = job.key
    · subst hsame
      rcases attemptCopy_spec hcopy with ⟨rfl, -⟩ | ⟨stamp, hstamp⟩
      · exact hkey
      · exact (copyObject_spec hstamp).1
    · rw [visible_congr (hothers key hsame)]
      exact hkey
  refine ⟨?_, h.rest_wanted, ?_, ?_, ?_, ?_, h.restoredObjects, h.failedObjects, h.failures, ?_⟩
  · show (s.recorded.map Prod.fst ++ (settleJob _ _ _).map Job.key ++ _).Perm _
    rw [map_key_settleJob]
    exact h.account
  · intro other hother
    obtain ⟨old, hold, hkey, hversion, -⟩ := mem_settleJob hother
    rw [← hkey, ← hversion]
    exact h.job_wanted old hold
  · intro key hrecorded hidle
    have hne : key ≠ job.key := by
      rintro rfl
      have hin : ({ job with outcome := some attempt.outcome } : Job) ∈
          settleJob s.futures job.key attempt.outcome :=
        List.mem_map.mpr ⟨job, hjob, if_pos rfl⟩
      have hnone := hidle _ hin rfl
      simp at hnone
    show history left key = _
    rw [hothers key hne]
    refine h.untouched key hrecorded ?_
    intro other hother hkey
    have hin : other ∈ settleJob s.futures job.key attempt.outcome :=
      List.mem_map.mpr ⟨other, hother, if_neg (by rw [hkey]; exact hne)⟩
    exact hidle other hin hkey
  · intro other hother hdone
    obtain ⟨old, hold, hkey, -, ⟨hsame, houtcome⟩ | ⟨hne, houtcome⟩⟩ := mem_settleJob hother
    · rw [houtcome, Option.some.injEq] at hdone
      rcases attemptCopy_spec hcopy with ⟨-, hfailed⟩ | ⟨stamp, hstamp⟩
      · exact absurd hdone hfailed
      · rw [hsame]
        exact (copyObject_spec hstamp).1
    · rw [houtcome] at hdone
      rw [← hkey]
      exact hvisible _ (h.done old hold hdone)
  · intro r hr hdone
    exact hvisible _ (h.recorded r hr hdone)
  · intro hphase
    obtain ⟨hfutures, -⟩ := h.completed hphase
    rw [hfutures] at hjob
    simp at hjob

theorem take_concat {α : Type} (l : List α) (x : α) (n : ℕ) :
    (l ++ [x]).take n = if (l.take n).length < n then l.take n ++ [x] else l.take n := by
  rw [List.length_take]
  by_cases h : l.length < n
  · have hall : (l ++ [x]).length ≤ n := by
      rw [List.length_append, List.length_singleton]
      omega
    rw [if_pos (by omega), List.take_of_length_le hall, List.take_of_length_le h.le]
  · rw [if_neg (by omega), List.take_append_of_le_length (by omega)]

theorem account_collect {futures : List Job} (h : (futures.map Job.key).Nodup) {job : Job}
    (hjob : job ∈ futures) :
    (futures.map Job.key).Perm
      (job.key :: (futures.filter fun other => other.key ≠ job.key).map Job.key) := by
  have hfilter : (futures.filter fun other => other.key ≠ job.key).map Job.key =
      (futures.map Job.key).erase job.key := by
    rw [h.erase_eq_filter, List.filter_map]
    congr 1
    apply List.filter_congr
    intro other _
    by_cases hkey : other.key = job.key
    · simp [hkey]
    · simp [hkey]
  rw [hfilter]
  exact List.perm_cons_erase (List.mem_map_of_mem hjob)

/-- What the run holds once the future of `job` has been yielded, but for the counters. -/
theorem runInv_collect (h : RunInv bucket wanted s) (hwanted : (wanted.map Prod.fst).Nodup)
    {job : Job} {outcome : Outcome} (hjob : job ∈ s.futures) (houtcome : job.outcome = some outcome) :
    RunInv bucket wanted
      ({ s with futures := s.futures.filter fun other => other.key ≠ job.key }.record job.key
        outcome) := by
  obtain ⟨hfront, -, -⟩ := List.nodup_append.mp (h.nodup hwanted)
  obtain ⟨-, hjobs, -⟩ := List.nodup_append.mp hfront
  have haccount : ((s.recorded ++ [(job.key, outcome)]).map Prod.fst ++
      (s.futures.filter fun other => other.key ≠ job.key).map Job.key ++
        s.rest.map Prod.fst).Perm (wanted.map Prod.fst) := by
    refine List.Perm.trans ?_ h.account
    rw [List.map_append, List.append_assoc (s.recorded.map Prod.fst)]
    exact ((account_collect hjobs hjob).symm.append_left _).append_right _
  have hjobWanted : ∀ other ∈ s.futures.filter (fun other => other.key ≠ job.key),
      (other.key, other.versionId) ∈ wanted :=
    fun other hother => h.job_wanted other (List.mem_filter.mp hother).1
  have huntouched : ∀ key, key ∉ (s.recorded ++ [(job.key, outcome)]).map Prod.fst →
      (∀ other ∈ s.futures.filter (fun other => other.key ≠ job.key),
        other.key = key → other.outcome = none) → history s.bucket key = history bucket key := by
    intro key hrecorded hidle
    rw [List.map_append, List.mem_append, not_or] at hrecorded
    refine h.untouched key hrecorded.1 ?_
    intro other hother hkey
    refine hidle other (List.mem_filter.mpr ⟨hother, ?_⟩) hkey
    rw [decide_eq_true_eq, hkey]
    rintro rfl
    exact hrecorded.2 (by simp)
  have hdone : ∀ other ∈ s.futures.filter (fun other => other.key ≠ job.key),
      other.outcome = some .restored → visible s.bucket other.key = true :=
    fun other hother => h.done other (List.mem_filter.mp hother).1
  have hrecorded : ∀ r ∈ s.recorded ++ [(job.key, outcome)], r.2 = .restored →
      visible s.bucket r.1 = true := by
    intro r hr hrestored
    rcases List.mem_append.mp hr with hold | hnew
    · exact h.recorded r hold hrestored
    · rw [List.mem_singleton.mp hnew] at hrestored ⊢
      have hrestored : outcome = .restored := hrestored
      subst hrestored
      exact h.done job hjob houtcome
  have hcompleted : s.phase = .completed →
      (s.futures.filter fun other => other.key ≠ job.key) = [] ∧ s.rest = [] := by
    intro hphase
    obtain ⟨hfutures, hrest⟩ := h.completed hphase
    simp [hfutures, hrest]
  rcases outcome with _ | detail
  · refine ⟨haccount, h.rest_wanted, hjobWanted, huntouched, hdone, hrecorded, ?_, ?_, ?_, hcompleted⟩
    · show s.restoredObjects + 1 = (restoredOf (s.recorded ++ [(job.key, Outcome.restored)])).length
      rw [h.restoredObjects]
      simp [restoredOf]
    · show s.failedObjects = (failedOf (s.recorded ++ [(job.key, Outcome.restored)])).length
      rw [h.failedObjects]
      simp [failedOf]
    · show s.failures = (failedOf (s.recorded ++ [(job.key, Outcome.restored)])).take _
      rw [h.failures]
      simp [failedOf]
  · refine ⟨haccount, h.rest_wanted, hjobWanted, huntouched, hdone, hrecorded, ?_, ?_, ?_, hcompleted⟩
    · show s.restoredObjects = (restoredOf (s.recorded ++ [(job.key, Outcome.failed detail)])).length
      rw [h.restoredObjects]
      simp [restoredOf]
    · show s.failedObjects + 1 = (failedOf (s.recorded ++ [(job.key, Outcome.failed detail)])).length
      rw [h.failedObjects]
      simp [failedOf]
    · show (if s.failures.length < failureDetailLimit then s.failures ++ [(job.key, detail)]
        else s.failures) = (failedOf (s.recorded ++ [(job.key, Outcome.failed detail)])).take _
      have happend : failedOf (s.recorded ++ [(job.key, Outcome.failed detail)]) =
          failedOf s.recorded ++ [(job.key, detail)] := by simp [failedOf]
      rw [happend, take_concat, ← h.failures]

theorem step_running {label : Label} (h : step s label = some s') :
    s.phase = .running ∧ running s label = some s' := by
  unfold step at h
  split at h
  · next hphase => exact ⟨hphase, h⟩
  · simp at h

theorem step_inv (hwanted : (wanted.map Prod.fst).Nodup) {label : Label}
    (h : RunInv bucket wanted s) (hstep : step s label = some s') : RunInv bucket wanted s' := by
  obtain ⟨hphase, hrunning⟩ := step_running hstep
  unfold running at hrunning
  split at hrunning
  · split at hrunning
    · next hready =>
      cases hrunning
      exact runInv_submit h hready.1
    · simp at hrunning
  · next key attempt =>
    split at hrunning
    · simp at hrunning
    · next job hfound =>
      obtain ⟨hjob, rfl, -⟩ := waiting_job hfound
      obtain ⟨left, hcopy, rfl⟩ := Option.map_eq_some_iff.mp hrunning
      exact runInv_work h hwanted hjob hcopy
  · next key =>
    split at hrunning
    · simp at hrunning
    · next outcome hfound =>
      cases hrunning
      obtain ⟨job, hfind, houtcome⟩ := Option.bind_eq_some_iff.mp hfound
      have hkey := List.find?_some hfind
      rw [decide_eq_true_eq] at hkey
      subst hkey
      exact runInv_collect h hwanted (List.mem_of_find?_eq_some hfind) houtcome
  · split at hrunning
    · next hdone =>
      cases hrunning
      exact ⟨h.account, h.rest_wanted, h.job_wanted, h.untouched, h.done, h.recorded,
        h.restoredObjects, h.failedObjects, h.failures, fun _ => hdone⟩
    · simp at hrunning
  · split at hrunning
    · cases hrunning
      exact ⟨h.account, h.rest_wanted, h.job_wanted, h.untouched, h.done, h.recorded,
        h.restoredObjects, h.failedObjects, h.failures, by simp⟩
    · simp at hrunning

theorem start_inv (bucket : List Listed) (store : ObjectRestoreStore) :
    RunInv bucket (candidates store) (start bucket store) where
  account := by simp [start]
  rest_wanted _ hrow := hrow
  job_wanted := by simp [start]
  untouched _ _ _ := rfl
  done := by simp [start]
  recorded := by simp [start]
  restoredObjects := rfl
  failedObjects := rfl
  failures := rfl
  completed := by simp [start]

/-- A step that changes the bucket copies a candidate's version onto its key, which is deleted. -/
theorem step_copies (h : RunInv bucket wanted s) (hwanted : (wanted.map Prod.fst).Nodup)
    (hdeleted : ∀ row ∈ wanted, visible bucket row.1 = false) {label : Label}
    (hstep : step s label = some s') :
    s'.bucket = s.bucket ∨ ∃ key versionId stamp, (key, versionId) ∈ wanted ∧
      copyObject s.bucket key versionId stamp = some s'.bucket ∧ visible s.bucket key = false := by
  obtain ⟨-, hrunning⟩ := step_running hstep
  unfold running at hrunning
  split at hrunning
  · split at hrunning
    · cases hrunning
      exact Or.inl rfl
    · simp at hrunning
  · next key attempt =>
    split at hrunning
    · simp at hrunning
    · next job hfound =>
      obtain ⟨hjob, rfl, hwaiting⟩ := waiting_job hfound
      obtain ⟨left, hcopy, rfl⟩ := Option.map_eq_some_iff.mp hrunning
      rcases attemptCopy_spec hcopy with ⟨rfl, -⟩ | ⟨stamp, hstamp⟩
      · exact Or.inl rfl
      · refine Or.inr ⟨job.key, job.versionId, stamp, h.job_wanted job hjob, hstamp, ?_⟩
        rw [visible_congr (h.history_waiting hwanted hjob hwaiting)]
        exact hdeleted _ (h.job_wanted job hjob)
  · split at hrunning
    · simp at hrunning
    · next outcome _ =>
      cases hrunning
      left
      cases outcome <;> rfl
  · split at hrunning
    · cases hrunning
      exact Or.inl rfl
    · simp at hrunning
  · split at hrunning
    · cases hrunning
      exact Or.inl rfl
    · simp at hrunning

theorem recorded_split (recorded : List (String × Outcome)) :
    (restoredOf recorded).length + (failedOf recorded).length = recorded.length := by
  induction recorded with
  | nil => rfl
  | cons r recorded ih =>
    obtain ⟨key, outcome⟩ := r
    rcases outcome with _ | detail
    · simp only [restoredOf, failedOf, List.length_map] at ih ⊢
      simp only [List.filter_cons, List.filterMap_cons, decide_true, if_true, List.length_cons]
      omega
    · simp only [restoredOf, failedOf, List.length_map] at ih ⊢
      simp only [List.filter_cons, List.filterMap_cons, reduceCtorEq, decide_false,
        Bool.false_eq_true, if_false, List.length_cons]
      omega

/-! ## Progress -/

/-- The steps a candidate still takes once it has been submitted. -/
def Job.remaining (job : Job) : ℕ := if job.outcome = none then 2 else 1

/-- No run of `s` is longer. -/
def RestoreState.remaining (s : RestoreState) : ℕ :=
  3 * s.rest.length + (s.futures.map Job.remaining).sum + if s.phase = .running then 1 else 0

theorem sum_settleJob_lt {futures : List Job} {job : Job} (hjob : job ∈ futures)
    (hwaiting : job.outcome = none) (outcome : Outcome) :
    ((settleJob futures job.key outcome).map Job.remaining).sum <
      (futures.map Job.remaining).sum := by
  unfold settleJob
  rw [List.map_map]
  refine List.sum_lt_sum _ _ (fun other _ => ?_) ⟨job, hjob, ?_⟩
  · simp only [Function.comp_apply, Job.remaining]
    split
    · simp only [reduceCtorEq, if_false]
      split <;> omega
    · exact le_rfl
  · simp [Job.remaining, hwaiting]

theorem sum_filter_lt {futures : List Job} {job : Job} (hjob : job ∈ futures) :
    ((futures.filter fun other => other.key ≠ job.key).map Job.remaining).sum <
      (futures.map Job.remaining).sum := by
  have hpos : 0 < job.remaining := by
    unfold Job.remaining
    split <;> omega
  have hle : ∀ jobs : List Job,
      ((jobs.filter fun other => other.key ≠ job.key).map Job.remaining).sum ≤
        (jobs.map Job.remaining).sum :=
    fun jobs => (List.filter_sublist.map Job.remaining).sum_le_sum fun _ _ => Nat.zero_le _
  obtain ⟨front, back, rfl⟩ := List.append_of_mem hjob
  have hfront := hle front
  have hback := hle back
  rw [List.filter_append, List.filter_cons_of_neg (by simp)]
  simp only [List.map_append, List.map_cons, List.sum_append, List.sum_cons]
  omega

theorem sum_submitted (rows : List (String × String)) :
    ((rows.map fun row => ({ key := row.1, versionId := row.2 } : Job)).map Job.remaining).sum =
      2 * rows.length := by
  induction rows with
  | nil => rfl
  | cons row rows ih =>
    rw [List.map_cons, List.map_cons, List.sum_cons, ih, List.length_cons]
    simp only [Job.remaining, if_true]
    omega

theorem step_remaining {label : Label} (h : step s label = some s') : s'.remaining < s.remaining := by
  obtain ⟨hphase, hrunning⟩ := step_running h
  unfold running at hrunning
  split at hrunning
  · split at hrunning
    · next hready =>
      cases hrunning
      obtain ⟨hfutures, hrest⟩ := hready
      have hpos := List.length_pos_of_ne_nil hrest
      simp only [RestoreState.remaining, hfutures, hphase, if_true, List.map_nil, List.sum_nil]
      rw [sum_submitted, List.length_take, List.length_drop]
      unfold restoreConcurrency
      omega
    · cases hrunning
  · next key attempt =>
    split at hrunning
    · cases hrunning
    · next job hfound =>
      obtain ⟨hjob, rfl, hwaiting⟩ := waiting_job hfound
      obtain ⟨left, -, rfl⟩ := Option.map_eq_some_iff.mp hrunning
      have hlt := sum_settleJob_lt hjob hwaiting attempt.outcome
      simp only [RestoreState.remaining]
      omega
  · next key =>
    split at hrunning
    · cases hrunning
    · next outcome hfound =>
      cases hrunning
      obtain ⟨job, hfind, -⟩ := Option.bind_eq_some_iff.mp hfound
      have hkey := List.find?_some hfind
      rw [decide_eq_true_eq] at hkey
      subst hkey
      have hlt := sum_filter_lt (List.mem_of_find?_eq_some hfind)
      cases outcome <;>
        · simp only [RestoreState.remaining, RestoreState.record, hphase, if_true]
          omega
  · split at hrunning
    · cases hrunning
      simp [RestoreState.remaining, hphase]
    · cases hrunning
  · split at hrunning
    · cases hrunning
      simp [RestoreState.remaining, hphase]
    · cases hrunning

/-- The version of every candidate is in the bucket. -/
def Sourced (bucket : List Listed) (wanted : List (String × String)) : Prop :=
  ∀ row ∈ wanted, ∃ entry ∈ bucket, entry.isDeleteMarker = false ∧ entryIdentity entry = some row

/-- A candidate whose call is running can be copied. -/
theorem attemptCopy_isSome (h : RunInv bucket wanted s) (hwanted : (wanted.map Prod.fst).Nodup)
    (hsourced : Sourced bucket wanted) {job : Job} (hjob : job ∈ s.futures)
    (hwaiting : job.outcome = none) (attempt : Attempt) :
    (attemptCopy s.bucket job attempt).isSome = true := by
  have hcopy : ∀ stamp, (copyObject s.bucket job.key job.versionId stamp).isSome = true := by
    intro stamp
    obtain ⟨entry, hentry, hobject, hidentity⟩ := hsourced _ (h.job_wanted job hjob)
    have hown : entry ∈ history bucket job.key := by
      refine List.mem_filter.mpr ⟨hentry, ?_⟩
      rw [isOf, decide_eq_true_eq]
      exact (rawIdentity_some hidentity).1
    rw [← h.history_waiting hwanted hjob hwaiting] at hown
    unfold copyObject
    rw [Option.isSome_map, List.find?_isSome]
    exact ⟨entry, (List.mem_filter.mp hown).1, by simp [hobject, hidentity]⟩
  unfold attemptCopy
  split
  · exact hcopy _
  · exact hcopy _
  · rfl

/-- A call that ends ends as `attempts` says. -/
def Chosen (attempts : String → Attempt) (label : Label) : Prop :=
  label ≠ .cancel ∧ ∀ key attempt, label = .work key attempt → attempt = attempts key

/-- However its calls end, a run that is not over can go on. -/
theorem RunInv.exists_step (h : RunInv bucket wanted s) (hwanted : (wanted.map Prod.fst).Nodup)
    (hsourced : Sourced bucket wanted) (attempts : String → Attempt) (hphase : s.phase = .running) :
    ∃ label s', Chosen attempts label ∧ step s label = some s' := by
  cases hfutures : s.futures with
  | nil =>
    by_cases hrest : s.rest = []
    · exact ⟨.finish, _, ⟨by simp, by simp⟩,
        by rw [step, if_pos hphase, running, if_pos ⟨hfutures, hrest⟩]⟩
    · exact ⟨.submit, _, ⟨by simp, by simp⟩,
        by rw [step, if_pos hphase, running, if_pos ⟨hfutures, hrest⟩]⟩
  | cons job jobs =>
    have hjob : job ∈ s.futures := by simp [hfutures]
    cases houtcome : job.outcome with
    | none =>
      have hfound : (s.futures.find? fun other =>
          other.key = job.key && other.outcome.isNone) = some job := by
        simp [hfutures, houtcome]
      obtain ⟨left, hcopy⟩ := Option.isSome_iff_exists.mp
        (attemptCopy_isSome h hwanted hsourced hjob houtcome (attempts job.key))
      refine ⟨.work job.key (attempts job.key), { s with
          bucket := left
          futures := settleJob s.futures job.key (attempts job.key).outcome }, ⟨by simp, ?_⟩, ?_⟩
      · rintro key attempt hlabel
        cases hlabel
        rfl
      · simp only [step, hphase, if_true, running, hfound, hcopy, Option.map_some]
    | some outcome =>
      have hfound : (s.futures.find? fun other => other.key = job.key).bind Job.outcome =
          some outcome := by
        simp [hfutures, houtcome]
      exact ⟨.collect job.key, _, ⟨by simp, by simp⟩,
        by rw [step, if_pos hphase, running, hfound]⟩

/-- The calls have ended as `attempts` says, and the run is not cancelled. -/
structure Follows (attempts : String → Attempt) (s : RestoreState) : Prop where
  recorded : ∀ r ∈ s.recorded, r.2 = (attempts r.1).outcome
  futures : ∀ job ∈ s.futures, ∀ outcome, job.outcome = some outcome →
    outcome = (attempts job.key).outcome
  kept : s.phase ≠ .cancelled

theorem Follows.step {attempts : String → Attempt} (h : Follows attempts s) {label : Label}
    (hchosen : Chosen attempts label) (hstep : step s label = some s') : Follows attempts s' := by
  obtain ⟨hphase, hrunning⟩ := step_running hstep
  unfold running at hrunning
  split at hrunning
  · split at hrunning
    · cases hrunning
      refine ⟨h.recorded, fun job hjob outcome houtcome => ?_, h.kept⟩
      obtain ⟨row, -, rfl⟩ := List.mem_map.mp hjob
      cases houtcome
    · cases hrunning
  · next key attempt =>
    split at hrunning
    · cases hrunning
    · next job hfound =>
      obtain ⟨left, -, rfl⟩ := Option.map_eq_some_iff.mp hrunning
      refine ⟨h.recorded, fun other hother outcome hsettled => ?_, h.kept⟩
      obtain ⟨old, hold, hkey, -, ⟨hsame, hnew⟩ | ⟨-, hnew⟩⟩ := mem_settleJob hother
      · rw [hsettled, Option.some.injEq] at hnew
        rw [hnew, hsame, hchosen.2 key attempt rfl]
      · rw [← hkey]
        exact h.futures old hold outcome (hnew ▸ hsettled)
  · next key =>
    split at hrunning
    · cases hrunning
    · next outcome hfound =>
      cases hrunning
      obtain ⟨job, hfind, houtcome⟩ := Option.bind_eq_some_iff.mp hfound
      have hkey := List.find?_some hfind
      rw [decide_eq_true_eq] at hkey
      have hended := h.futures job (List.mem_of_find?_eq_some hfind) outcome houtcome
      have hrecorded : ∀ r ∈ s.recorded ++ [(key, outcome)], r.2 = (attempts r.1).outcome := by
        intro r hr
        rcases List.mem_append.mp hr with hr | hr
        · exact h.recorded r hr
        · rw [List.mem_singleton.mp hr, ← hkey]
          exact hended
      have hothers : ∀ other ∈ s.futures.filter (fun other => other.key ≠ key), ∀ outcome,
          other.outcome = some outcome → outcome = (attempts other.key).outcome :=
        fun other hother => h.futures other (List.mem_filter.mp hother).1
      cases outcome <;> exact ⟨hrecorded, hothers, h.kept⟩
  · split at hrunning
    · cases hrunning
      exact ⟨h.recorded, h.futures, by simp⟩
    · cases hrunning
  · exact absurd rfl hchosen.1

/-- However the calls end, some run completes. -/
theorem exists_completed (hwanted : (wanted.map Prod.fst).Nodup) (hsourced : Sourced bucket wanted)
    {attempts : String → Attempt} (h : RunInv bucket wanted s) (hfollows : Follows attempts s) :
    ∃ s', Reached step anyStep s s' ∧ s'.phase = .completed ∧ Follows attempts s' := by
  refine @Reached.of_rank _ _ step anyStep s
    (fun s => RunInv bucket wanted s ∧ Follows attempts s)
    (fun s => s.phase = .completed ∧ Follows attempts s) RestoreState.remaining ?_ ⟨h, hfollows⟩
  intro s ⟨hinv, hfollows⟩ hfinal
  have hrunning : s.phase = .running := by
    cases hcase : s.phase with
    | running => rfl
    | completed => exact absurd ⟨hcase, hfollows⟩ hfinal
    | cancelled => exact absurd hcase hfollows.kept
  obtain ⟨label, next, hchosen, hnext⟩ := hinv.exists_step hwanted hsourced attempts hrunning
  exact ⟨label, next, trivial, hnext,
    ⟨step_inv hwanted hinv hnext, hfollows.step hchosen hnext⟩, step_remaining hnext⟩

end DeletedObjects
end BucketReef

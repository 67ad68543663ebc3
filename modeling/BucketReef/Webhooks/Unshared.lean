import BucketReef.Webhooks.Monotone

/-!
# Dispatchers that share no delivery

The lease alone does not keep a second dispatcher from a row whose POST is still open. Runs in which it
does, so that no row is selected while somebody else is at work on it, are unraced, and deliveries move
forward in them.
-/

namespace BucketReef
namespace Webhooks

open Transitions

variable {runtime : WebhookRuntimeConfig}

/-- No dispatcher selects a row while another one is at work on it. -/
def Unshared (runtime : WebhookRuntimeConfig) (s : State) : Label → Prop
  | .dispatch dispatcher lag =>
    ∀ id ∈ dueIds runtime s.records (s.clock - lag), ∀ other, other ≠ dispatcher → s.job other id = .absent
  | _ => True

/-- The contents of a row, also of one that was deleted. -/
def State.contents (s : State) (id : ℕ) : Option WebhookDelivery := s.records[id]?.map Record.delivery

/-- What a job knows of the row it works on. -/
def Job.Holds (clock : ℕ) (contents : Option WebhookDelivery) : Job → Prop
  | .absent => True
  | .selected => ∃ row, contents = some row ∧ row.nextAttemptAt ≤ clock
  | .ready loaded | .posting loaded =>
    contents = some loaded ∧ loaded.status.isOpen = true ∧ loaded.nextAttemptAt ≤ clock
  | .saving loaded _ _ => contents = some loaded

/-- Every row is the work of one dispatcher at most, which knows its contents. -/
structure Owned (s : State) : Prop where
  alone : ∀ id dispatcher other, s.job dispatcher id ≠ .absent → s.job other id ≠ .absent →
    dispatcher = other
  holds : ∀ dispatcher id, (s.job dispatcher id).Holds s.clock (s.contents id)

theorem Job.Holds.later {clock clock' : ℕ} {contents : Option WebhookDelivery} {job : Job}
    (h : clock ≤ clock') (hjob : job.Holds clock contents) : job.Holds clock' contents := by
  cases job with
  | absent => trivial
  | selected =>
    obtain ⟨row, hrow, hdue⟩ := hjob
    exact ⟨row, hrow, le_trans hdue h⟩
  | ready loaded => exact ⟨hjob.1, hjob.2.1, le_trans hjob.2.2 h⟩
  | posting loaded => exact ⟨hjob.1, hjob.2.1, le_trans hjob.2.2 h⟩
  | saving loaded changed attempt => exact hjob

/-- A job at work has a row. -/
theorem Job.Holds.known {clock : ℕ} {contents : Option WebhookDelivery} {job : Job}
    (hjob : job.Holds clock contents) (hwork : job ≠ .absent) : contents.isSome = true := by
  cases job with
  | absent => exact absurd rfl hwork
  | selected =>
    obtain ⟨row, hrow, -⟩ := hjob
    rw [hrow]
    rfl
  | ready loaded => exact hjob.1 ▸ rfl
  | posting loaded => exact hjob.1 ▸ rfl
  | saving loaded changed attempt => exact (show contents = some loaded from hjob) ▸ rfl

theorem Owned.init (clock : ℕ) : Owned (State.init clock) where
  alone := fun _ _ _ hwork => absurd rfl hwork
  holds := fun _ _ => trivial

/-- A change of the table that keeps the contents of the rows in it. -/
theorem Owned.setRecords {s : State} (h : Owned s) (records : List Record)
    (hkept : ∀ id row, s.contents id = some row → records[id]?.map Record.delivery = some row) :
    Owned { s with records := records } where
  alone := h.alone
  holds := by
    intro dispatcher id
    by_cases hwork : s.job dispatcher id = .absent
    · show (s.job dispatcher id).Holds _ _
      rw [hwork]
      trivial
    · obtain ⟨row, hrow⟩ := Option.isSome_iff_exists.mp ((h.holds dispatcher id).known hwork)
      have hholds := h.holds dispatcher id
      rw [hrow, ← hkept id row hrow] at hholds
      exact hholds

theorem Owned.mapRecords {s : State} (h : Owned s) {f : Record → Record}
    (hf : ∀ record, (f record).delivery = record.delivery) :
    Owned { s with records := s.records.map f } := by
  refine h.setRecords _ fun id row hrow => ?_
  rw [List.getElem?_map, Option.map_map]
  exact (congrArg (s.records[id]?.map) (funext hf)).trans hrow

theorem job_setJob (s : State) (dispatcher id : ℕ) (job : Job) (d i : ℕ) :
    (s.setJob dispatcher id job).job d i = if d = dispatcher ∧ i = id then job else s.job d i := by
  show Function.update s.job dispatcher (Function.update (s.job dispatcher) id job) d i = _
  by_cases hd : d = dispatcher
  · subst hd
    rw [Function.update_self]
    by_cases hi : i = id
    · subst hi
      rw [Function.update_self, if_pos ⟨rfl, rfl⟩]
    · rw [Function.update_of_ne hi, if_neg fun h => hi h.2]
  · rw [Function.update_of_ne hd, if_neg fun h => hd h.1]

/-- The next phase of a job at work. -/
theorem Owned.setJob {s : State} (h : Owned s) {dispatcher id : ℕ} {job : Job}
    (hwork : s.job dispatcher id ≠ .absent) (hjob : job.Holds s.clock (s.contents id)) :
    Owned (s.setJob dispatcher id job) := by
  have hbefore : ∀ d i, (s.setJob dispatcher id job).job d i ≠ .absent → s.job d i ≠ .absent := by
    intro d i hd
    rw [job_setJob] at hd
    split_ifs at hd with heq
    · obtain ⟨rfl, rfl⟩ := heq
      exact hwork
    · exact hd
  refine ⟨fun i d other hd hother => h.alone i d other (hbefore d i hd) (hbefore other i hother), ?_⟩
  intro d i
  rw [job_setJob]
  split_ifs with heq
  · obtain ⟨rfl, rfl⟩ := heq
    exact hjob
  · exact h.holds d i

/-- The jobs of a dispatcher that starts or ends. -/
theorem Owned.setJobs {s : State} (h : Owned s) (dispatcher : ℕ) (phases : ℕ → Dispatcher)
    {jobs : ℕ → Job}
    (halone : ∀ id, jobs id ≠ .absent → ∀ other, other ≠ dispatcher → s.job other id = .absent)
    (hjobs : ∀ id, (jobs id).Holds s.clock (s.contents id)) :
    Owned { s with dispatcher := phases, job := Function.update s.job dispatcher jobs } where
  alone := by
    intro id d other hd hother
    by_contra hne
    dsimp only at hd hother
    by_cases heq : d = dispatcher
    · subst heq
      rw [Function.update_self] at hd
      rw [Function.update_of_ne (Ne.symm hne)] at hother
      exact hother (halone id hd other (Ne.symm hne))
    · rw [Function.update_of_ne heq] at hd
      by_cases heq' : other = dispatcher
      · subst heq'
        rw [Function.update_self] at hother
        exact hd (halone id hother d heq)
      · rw [Function.update_of_ne heq'] at hother
        exact hne (h.alone id d other hd hother)
  holds := by
    intro d id
    show (Function.update s.job dispatcher jobs d id).Holds _ _
    by_cases heq : d = dispatcher
    · subst heq
      rw [Function.update_self]
      exact hjobs id
    · rw [Function.update_of_ne heq]
      exact h.holds d id

theorem contents_of_dueIds {s : State} {now id : ℕ} (h : id ∈ dueIds runtime s.records now) :
    ∃ row, s.contents id = some row ∧ row.nextAttemptAt ≤ now := by
  unfold dueIds at h
  obtain ⟨-, hdue⟩ := List.mem_filter.mp ((Lists.sortedBy_perm _ _).mem_iff.mp (List.mem_of_mem_take h))
  obtain ⟨record, hrecord, hdue⟩ := (Option.any_eq_true _ _).mp hdue
  simp only [isDue, Bool.and_eq_true, decide_eq_true_eq] at hdue
  exact ⟨record.delivery, congrArg (Option.map Record.delivery) hrecord, hdue.2⟩

theorem contents_of_row {s : State} {id : ℕ} {row : WebhookDelivery} (h : s.row id = some row) :
    s.contents id = some row :=
  congrArg (Option.map Record.delivery) (row_eq_some h)

theorem loadJob_holds {s : State} {id : ℕ} (endpoint : Option WebhookEndpoint)
    (hselected : Job.selected.Holds s.clock (s.contents id)) :
    (loadJob runtime s.clock (s.row id) endpoint).Holds s.clock (s.contents id) := by
  obtain ⟨contents, hcontents, hdue⟩ := hselected
  unfold loadJob
  split
  · rename_i delivery endpoint hrow
    have hsame := contents_of_row hrow
    obtain rfl : contents = delivery := Option.some.inj (hcontents.symm.trans hsame)
    split
    · rename_i hopen
      split
      · exact hsame
      · exact ⟨hsame, hopen, hdue⟩
    · trivial
  · trivial

/-- A commit changes the row of its own job only. -/
theorem Owned.commitJob {s : State} (h : Owned s) {dispatcher id : ℕ} {loaded changed : WebhookDelivery}
    {attempt : Bool} (hwork : s.job dispatcher id ≠ .absent) :
    Owned (commitJob s dispatcher id loaded changed attempt) := by
  unfold Webhooks.commitJob
  split
  · exact h.setJob hwork trivial
  · rename_i row hrow
    have hdone := @Owned.setJob s h dispatcher id .absent hwork trivial
    refine ⟨hdone.alone, fun d i => ?_⟩
    by_cases hi : i = id
    · subst hi
      -- nobody else is at work on the row
      have habsent : (s.setJob dispatcher i .absent).job d i = .absent := by
        rw [job_setJob]
        split_ifs with heq
        · rfl
        · by_contra hother
          exact heq ⟨h.alone i d dispatcher hother hwork, rfl⟩
      show ((s.setJob dispatcher i .absent).job d i).Holds _ _
      rw [habsent]
      trivial
    · have hkept : (s.records.set id ⟨writeColumns loaded changed row, false⟩)[i]? = s.records[i]? :=
        List.getElem?_set_ne (Ne.symm hi)
      show ((s.setJob dispatcher id .absent).job d i).Holds s.clock
        ((s.records.set id ⟨writeColumns loaded changed row, false⟩)[i]?.map Record.delivery)
      rw [hkept]
      exact hdone.holds d i

theorem owned_step {s s' : State} {label : Label} (h : Owned s) (hunshared : Unshared runtime s label)
    (hs : step runtime s label = some s') : Owned s' := by
  cases label with
  | tick elapsed =>
    cases hs
    exact ⟨h.alone, fun d id => (h.holds d id).later (Nat.le_add_right _ _)⟩
  | queue endpointId isTest =>
    cases hs
    refine h.setRecords _ fun id row hrow => ?_
    obtain ⟨record, hrecord, hrow⟩ := Option.map_eq_some_iff.mp hrow
    rw [List.getElem?_append_left (List.getElem?_eq_some_iff.mp hrecord).1, hrecord]
    exact congrArg some hrow
  | deleteEndpoint endpointId =>
    cases hs
    apply h.mapRecords
    intro record
    split <;> rfl
  | purge =>
    simp only [step] at hs
    split at hs
    · cases hs
      exact h
    · cases hs
      apply h.mapRecords
      intro record
      split <;> rfl
  | acquire dispatcher =>
    simp only [step, Option.ite_none_right_eq_some, Option.some.injEq] at hs
    obtain ⟨-, rfl⟩ := hs
    exact ⟨h.alone, h.holds⟩
  | release dispatcher =>
    simp only [step, Option.ite_none_right_eq_some, Option.some.injEq] at hs
    obtain ⟨-, rfl⟩ := hs
    exact ⟨h.alone, h.holds⟩
  | dispatch dispatcher lag =>
    simp only [step, Option.ite_none_right_eq_some, Option.some.injEq] at hs
    obtain ⟨-, rfl⟩ := hs
    refine h.setJobs dispatcher _ ?_ ?_
    · intro id hwork other hother
      by_cases hid : id ∈ dueIds runtime s.records (s.clock - lag)
      · exact hunshared id hid other hother
      · rw [if_neg hid] at hwork
        exact absurd rfl hwork
    · intro id
      split_ifs with hid
      · obtain ⟨row, hrow, hdue⟩ := contents_of_dueIds hid
        exact ⟨row, hrow, le_trans hdue (Nat.sub_le _ _)⟩
      · trivial
  | load dispatcher id endpoint =>
    simp only [step] at hs
    split at hs
    · rename_i hselected
      cases hs
      have hholds := h.holds dispatcher id
      rw [hselected] at hholds
      exact h.setJob (by rw [hselected]; exact Job.noConfusion) (loadJob_holds endpoint hholds)
    · cases hs
  | post dispatcher id =>
    simp only [step] at hs
    split at hs
    · rename_i loaded hready
      cases hs
      have hholds := h.holds dispatcher id
      rw [hready] at hholds
      have hposted := @Owned.setJob s h dispatcher id (.posting loaded)
        (by rw [hready]; exact Job.noConfusion) hholds
      exact ⟨hposted.alone, hposted.holds⟩
    · cases hs
  | reply dispatcher id reply =>
    simp only [step] at hs
    split at hs
    · rename_i loaded hposting
      cases hs
      have hholds := h.holds dispatcher id
      rw [hposting] at hholds
      exact h.setJob (by rw [hposting]; exact Job.noConfusion) hholds.1
    · cases hs
  | commit dispatcher id succeeds =>
    simp only [step] at hs
    split at hs
    · rename_i loaded changed attempt hsaving
      have hwork : s.job dispatcher id ≠ .absent := by
        rw [hsaving]
        exact Job.noConfusion
      split at hs
      · cases hs
        exact h.commitJob hwork
      · cases hs
        exact h.setJob hwork trivial
    · cases hs
  | join dispatcher =>
    simp only [step] at hs
    split at hs
    · rw [Option.ite_none_right_eq_some] at hs
      obtain ⟨-, hs⟩ := hs
      cases hs
      exact ⟨h.alone, h.holds⟩
    · cases hs
  | crash dispatcher =>
    cases hs
    exact h.setJobs dispatcher _ (fun id hwork => absurd rfl hwork) fun id => trivial

theorem Owned.unraced {s s' : State} {label : Label} (h : Owned s)
    (hs : step runtime s label = some s') : unraced s label = true := by
  cases label with
  | load dispatcher id endpoint =>
    simp only [step] at hs
    split at hs
    · rename_i hselected
      have hholds := h.holds dispatcher id
      rw [hselected] at hholds
      obtain ⟨row, hrow, hdue⟩ := hholds
      obtain ⟨record, hrecord, rfl⟩ := Option.map_eq_some_iff.mp hrow
      simp [Webhooks.unraced, hrecord, hdue]
    · cases hs
  | post dispatcher id =>
    simp only [step] at hs
    split at hs
    · rename_i loaded hready
      have hholds := h.holds dispatcher id
      rw [hready] at hholds
      obtain ⟨hrow, hopen, hdue⟩ := hholds
      obtain ⟨record, hrecord, rfl⟩ := Option.map_eq_some_iff.mp hrow
      simp [Webhooks.unraced, hrecord, hopen, hdue]
    · cases hs
  | commit dispatcher id succeeds =>
    simp only [step] at hs
    split at hs
    · rename_i loaded changed attempt hsaving
      have hholds := h.holds dispatcher id
      rw [hsaving] at hholds
      simp only [Webhooks.unraced, hsaving]
      cases hrow : s.row id with
      | none => rfl
      | some row =>
        obtain rfl := Option.some.inj ((contents_of_row hrow).symm.trans hholds)
        exact decide_eq_true rfl
    · cases hs
  | _ => rfl

/-- Runs in which the dispatchers never work on one delivery at the same time are unraced. -/
theorem unraced_of_unshared {clock : ℕ} {s : State}
    (h : Reached (step runtime) (Unshared runtime) (State.init clock) s) :
    Reached (step runtime) (fun s label => unraced s label = true) (State.init clock) s :=
  (h.of_invariant (Owned.init clock) fun _ _ _ howned hunshared hs =>
    ⟨howned.unraced hs, owned_step howned hunshared hs⟩).1

/-! ## Runs -/

/-- Deliveries move forward in every run in which no dispatcher is overtaken, so in every run in which the
dispatchers share no delivery. -/
theorem deliveries_monotone (runtime : WebhookRuntimeConfig) (clock : ℕ) (s : State) :
    (Reached (step runtime) (fun s label => unraced s label = true) (State.init clock) s →
      Monotone runtime s) ∧
    (Reached (step runtime) (Unshared runtime) (State.init clock) s →
      Reached (step runtime) (fun s label => unraced s label = true) (State.init clock) s) :=
  ⟨monotone_of_unraced, unraced_of_unshared⟩

/-- The default settings. -/
def defaultRuntime : WebhookRuntimeConfig where
  workers := 4
  maxAttempts := 8
  retryInitialSeconds := 30
  retryMaxSeconds := 3600
  retentionDays := 30
  leaseSeconds := 120
  sanitizedErrorLogDetail := id
  maxAttempts_pos := by decide

def reachableEndpoint : WebhookEndpoint := ⟨true, true, .ok ()⟩

/-- An attempt fails and the one after its back-off is delivered. -/
def retriedLabels : List Label :=
  [.queue 1 false, .acquire 0, .dispatch 0 0, .load 0 0 (some reachableEndpoint), .post 0 0,
    .reply 0 0 (.response 500 none), .commit 0 0 true, .join 0, .tick (seconds 30), .acquire 0,
    .dispatch 0 0, .load 0 0 (some reachableEndpoint), .post 0 0, .reply 0 0 (.response 204 none),
    .commit 0 0 true]

theorem deliveries_monotone_retried : ∃ s,
    Reached (step defaultRuntime) (fun s label => unraced s label = true) (State.init 0) s ∧
      s.log = [.post 0 0, .save 0 .retrying true (seconds 30), .post 0 (seconds 30),
        .save 0 .delivered true (seconds 30)] ∧
      Monotone defaultRuntime s := by
  have hrun : (afterOk (step defaultRuntime) unraced (State.init 0) retriedLabels).any (fun s =>
      s.log = [.post 0 0, .save 0 .retrying true (seconds 30), .post 0 (seconds 30),
        .save 0 .delivered true (seconds 30)]) = true := by
    decide +kernel
  obtain ⟨s, hs, hlog⟩ := (Option.any_eq_true _ _).mp hrun
  have hreach := Reached.init.afterOk hs
  exact ⟨s, hreach, of_decide_eq_true hlog, (deliveries_monotone defaultRuntime 0 s).1 hreach⟩

/-- Both dispatchers read the row; the second commits a delivery and the first writes over it. -/
def overtakenLabels : List Label :=
  [.queue 1 false, .acquire 0, .dispatch 0 0, .load 0 0 (some reachableEndpoint), .post 0 0,
    .tick (seconds 120), .acquire 1, .dispatch 1 0, .load 1 0 (some reachableEndpoint), .post 1 0,
    .reply 1 0 (.response 200 none), .commit 1 0 true, .reply 0 0 (.response 500 none), .commit 0 0 true]

/-- A slow POST outlives the lease, and its commit reopens the delivery. -/
theorem deliveries_not_monotone :
    ¬∀ runtime clock s, Reachable runtime clock s → Monotone runtime s := by
  intro h
  have hrun : (after (step defaultRuntime) (State.init 0) overtakenLabels).any (fun s =>
      .save 0 .delivered true 0 ∈ s.log ∧
        s.records[0]?.map (fun record => record.delivery.status) = some .retrying) = true := by
    decide +kernel
  obtain ⟨s, hs, hfinal⟩ := (Option.any_eq_true _ _).mp hrun
  obtain ⟨hsave, hstatus⟩ := of_decide_eq_true hfinal
  obtain ⟨record, hrecord, hstatus⟩ := Option.map_eq_some_iff.mp hstatus
  have hmono := h defaultRuntime 0 s (Reached.init.after hs)
  have hclosed := hmono.closed 0 record hrecord _ _ _ hsave rfl
  rw [hstatus] at hclosed
  cases hclosed

end Webhooks
end BucketReef

import BucketReef.Webhooks.Deliveries

/-!
# Deliveries move forward

As long as a row is due when a dispatcher reads and posts it, and is as it was read when the dispatcher
writes it, a closed delivery stays closed, its counter is the number of committed attempts and every
back-off is kept. Nothing in the worker checks this: two dispatchers may read one row, and the later
commit then writes over the earlier one.
-/

namespace BucketReef
namespace Webhooks

open Transitions

/-! ## The property -/

/-- The committed attempts of a delivery. -/
def attemptsOf (log : List Event) (id : ℕ) : ℕ :=
  log.countP fun
    | .save saved _ attempt _ => saved = id && attempt
    | .post _ _ => false

/-- What may come after an event: nothing new once a delivery is closed, and no POST before the due
time of the last commit. -/
def MayFollow : Event → Event → Prop
  | .save id status _ nextAttemptAt, .post posted time =>
    id = posted → status.isOpen = true ∧ nextAttemptAt ≤ time
  | .save id status _ _, .save saved status' _ _ => id = saved → status.isOpen = false → status' = status
  | .post _ _, _ => True

structure Monotone (runtime : WebhookRuntimeConfig) (s : State) : Prop where
  order : s.log.Pairwise MayFollow
  /-- A row shows the status it was closed with. -/
  closed : ∀ id record, s.records[id]? = some record → ∀ status attempt time,
    .save id status attempt time ∈ s.log → status.isOpen = false → record.delivery.status = status
  counted : ∀ id record, s.records[id]? = some record →
    record.delivery.attemptCount = attemptsOf s.log id ∧
      record.delivery.attemptCount ≤ runtime.maxAttempts

/-- A dispatcher reads a row that is closed or still due, posts one that is still open and due, and
writes one that nobody changed since. A row that was deleted counts with its last contents. -/
def unraced (s : State) : Label → Bool
  | .load dispatcher id _ =>
    s.job dispatcher id ≠ .selected ||
      s.records[id]?.all fun record =>
        !record.delivery.status.isOpen || record.delivery.nextAttemptAt ≤ s.clock
  | .post _ id =>
    s.records[id]?.any fun record =>
      record.delivery.status.isOpen && record.delivery.nextAttemptAt ≤ s.clock
  | .commit dispatcher id _ =>
    match s.job dispatcher id with
    | .saving loaded _ _ => (s.row id).all fun row => row = loaded
    | _ => true
  | _ => true

/-! ## One attempt -/

/-- What a changed object is to the row it was read from. -/
structure Outcome (runtime : WebhookRuntimeConfig) (loaded changed : WebhookDelivery) (attempt : Bool) :
    Prop where
  wasOpen : loaded.status.isOpen = true
  unmoved : changed.endpointId = loaded.endpointId ∧ changed.isTest = loaded.isTest
  count : changed.attemptCount = loaded.attemptCount + if attempt then 1 else 0
  again : changed.status.isOpen = true →
    changed.attemptCount < runtime.maxAttempts ∧ loaded.nextAttemptAt ≤ changed.nextAttemptAt

variable {runtime : WebhookRuntimeConfig} {now : ℕ} {loaded changed : WebhookDelivery} {attempt : Bool}

theorem failTerminal_outcome (attempt : Bool) (hopen : loaded.status.isOpen = true)
    (hunmoved : changed.endpointId = loaded.endpointId ∧ changed.isTest = loaded.isTest)
    (hcount : changed.attemptCount = loaded.attemptCount + if attempt then 1 else 0) (error : String) :
    Outcome runtime loaded (failTerminal runtime now changed error) attempt where
  wasOpen := hopen
  unmoved := hunmoved
  count := hcount
  again := fun h => by cases h

theorem retryOrFail_outcome (hopen : loaded.status.isOpen = true) (hdue : loaded.nextAttemptAt ≤ now)
    (hunmoved : changed.endpointId = loaded.endpointId ∧ changed.isTest = loaded.isTest)
    (hcount : changed.attemptCount = loaded.attemptCount) (error : String) (retryAfter : Option ℕ) :
    Outcome runtime loaded (retryOrFail runtime now changed error retryAfter) true := by
  have hnext : changed.attemptCount + 1 = loaded.attemptCount + if true then 1 else 0 := by
    rw [hcount, if_pos rfl]
  unfold retryOrFail
  dsimp only
  split
  · exact ⟨hopen, hunmoved, hnext, fun h => by cases h⟩
  · rename_i hless
    refine ⟨hopen, hunmoved, hnext, ?_⟩
    intro _
    exact ⟨by simpa using hless, le_trans hdue (Nat.le_add_right _ _)⟩

theorem applyReply_outcome (hopen : loaded.status.isOpen = true) (hdue : loaded.nextAttemptAt ≤ now)
    (reply : Reply) : Outcome runtime loaded (applyReply runtime now loaded reply) true := by
  cases reply with
  | exception error => exact retryOrFail_outcome hopen hdue ⟨rfl, rfl⟩ rfl error none
  | response statusCode retryAfter =>
    unfold applyReply applyDeliveryResponse
    dsimp only
    split
    · exact ⟨hopen, ⟨rfl, rfl⟩, rfl, fun h => by cases h⟩
    · split
      · exact retryOrFail_outcome hopen hdue (by exact ⟨rfl, rfl⟩) (by rfl) _ retryAfter
      · exact failTerminal_outcome true hopen (by exact ⟨rfl, rfl⟩) (by rfl) _

theorem flushed_self {α : Type} [DecidableEq α] (column : WebhookDelivery → α) :
    flushed column loaded changed loaded = column changed := by
  unfold flushed
  split
  · rename_i h
    exact h.symm
  · rfl

/-- Over the row that was read, a flush leaves the changed object. -/
theorem writeColumns_self (h : changed.endpointId = loaded.endpointId ∧ changed.isTest = loaded.isTest) :
    writeColumns loaded changed loaded = changed := by
  unfold writeColumns
  simp only [flushed_self, ← h.1, ← h.2]

/-! ## The invariant -/

/-- A row against the log. -/
structure RowInv (runtime : WebhookRuntimeConfig) (log : List Event) (id : ℕ) (row : WebhookDelivery) :
    Prop where
  count : row.attemptCount = attemptsOf log id
  bound : row.attemptCount ≤ runtime.maxAttempts
  room : row.status.isOpen = true → row.attemptCount < runtime.maxAttempts
  due : row.status.isOpen = true → ∀ status attempt time, .save id status attempt time ∈ log →
    status.isOpen = true ∧ time ≤ row.nextAttemptAt
  closed : ∀ status attempt time, .save id status attempt time ∈ log → status.isOpen = false →
    row.status = status

def JobInv (runtime : WebhookRuntimeConfig) (clock : ℕ) : Job → Prop
  | .absent | .selected => True
  | .ready loaded | .posting loaded => loaded.status.isOpen = true ∧ loaded.nextAttemptAt ≤ clock
  | .saving loaded changed attempt => Outcome runtime loaded changed attempt

structure Inv (runtime : WebhookRuntimeConfig) (s : State) : Prop where
  order : s.log.Pairwise MayFollow
  rows : ∀ id record, s.records[id]? = some record → RowInv runtime s.log id record.delivery
  known : ∀ id status attempt time, .save id status attempt time ∈ s.log → id < s.records.length
  jobs : ∀ dispatcher id, JobInv runtime s.clock (s.job dispatcher id)

theorem JobInv.later {clock clock' : ℕ} (h : clock ≤ clock') {job : Job}
    (hjob : JobInv runtime clock job) : JobInv runtime clock' job := by
  cases job with
  | absent => trivial
  | selected => trivial
  | ready loaded => exact ⟨hjob.1, le_trans hjob.2 h⟩
  | posting loaded => exact ⟨hjob.1, le_trans hjob.2 h⟩
  | saving loaded changed attempt => exact hjob

theorem Inv.init (runtime : WebhookRuntimeConfig) (clock : ℕ) : Inv runtime (State.init clock) where
  order := List.Pairwise.nil
  rows := fun _ _ h => by simp [State.init] at h
  known := fun _ _ _ _ h => by cases h
  jobs := fun _ _ => trivial

theorem Inv.monotone {s : State} (h : Inv runtime s) : Monotone runtime s where
  order := h.order
  closed := fun id record hrecord => (h.rows id record hrecord).closed
  counted := fun id record hrecord => ⟨(h.rows id record hrecord).count, (h.rows id record hrecord).bound⟩

theorem Inv.setJob {s : State} (h : Inv runtime s) (dispatcher id : ℕ) (job : Job)
    (hjob : JobInv runtime s.clock job) : Inv runtime (s.setJob dispatcher id job) where
  order := h.order
  rows := h.rows
  known := h.known
  jobs := by
    intro d i
    show JobInv runtime s.clock (Function.update s.job dispatcher _ d i)
    by_cases hd : d = dispatcher
    · subst hd
      rw [Function.update_self]
      by_cases hi : i = id
      · subst hi
        rwa [Function.update_self]
      · rw [Function.update_of_ne hi]
        exact h.jobs d i
    · rw [Function.update_of_ne hd]
      exact h.jobs d i

/-- Deleting rows keeps their contents. -/
theorem Inv.mapRecords {s : State} (h : Inv runtime s) {f : Record → Record}
    (hf : ∀ record, (f record).delivery = record.delivery) :
    Inv runtime { s with records := s.records.map f } where
  order := h.order
  rows := by
    intro id record hrecord
    rw [List.getElem?_map, Option.map_eq_some_iff] at hrecord
    obtain ⟨old, hold, rfl⟩ := hrecord
    rw [hf]
    exact h.rows id old hold
  known := fun id status attempt time hsave => by
    rw [List.length_map]
    exact h.known id status attempt time hsave
  jobs := h.jobs

/-- An event of another delivery does not concern a row. -/
theorem RowInv.append {log : List Event} {id : ℕ} {row : WebhookDelivery} (h : RowInv runtime log id row)
    {event : Event} (hother : ∀ status attempt time, event ≠ .save id status attempt time) :
    RowInv runtime (log ++ [event]) id row := by
  have hcount : attemptsOf (log ++ [event]) id = attemptsOf log id := by
    unfold attemptsOf
    rw [List.countP_append]
    cases event with
    | post posted time => rfl
    | save saved status attempt time =>
      have hne : saved ≠ id := by
        rintro rfl
        exact hother status attempt time rfl
      simp [hne]
  have hmem : ∀ status attempt time, Event.save id status attempt time ∈ log ++ [event] →
      Event.save id status attempt time ∈ log := by
    intro status attempt time hin
    rcases List.mem_append.mp hin with hin | hin
    · exact hin
    · exact absurd (List.mem_singleton.mp hin).symm (hother status attempt time)
  exact ⟨h.count.trans hcount.symm, h.bound, h.room,
    fun hopen status attempt time hin => h.due hopen status attempt time (hmem _ _ _ hin),
    fun status attempt time hin => h.closed status attempt time (hmem _ _ _ hin)⟩

theorem attemptsOf_unknown {s : State} (h : Inv runtime s) : attemptsOf s.log s.records.length = 0 := by
  unfold attemptsOf
  rw [List.countP_eq_zero]
  intro event hevent hcounted
  cases event with
  | post posted time => cases hcounted
  | save saved status attempt time =>
    have hlt := h.known saved status attempt time hevent
    simp only [Bool.and_eq_true, decide_eq_true_eq] at hcounted
    omega

theorem inv_queue {s : State} (h : Inv runtime s) (delivery : WebhookDelivery)
    (hcount : delivery.attemptCount = 0) :
    Inv runtime { s with records := s.records ++ [⟨delivery, false⟩] } where
  order := h.order
  rows := by
    intro id record hrecord
    rcases Nat.lt_or_ge id s.records.length with hlt | hge
    · rw [List.getElem?_append_left hlt] at hrecord
      exact h.rows id record hrecord
    · rw [List.getElem?_append_right hge, List.getElem?_singleton] at hrecord
      rw [Option.ite_none_right_eq_some] at hrecord
      obtain ⟨hid, hrecord⟩ := hrecord
      cases hrecord
      have hid : id = s.records.length := by omega
      subst hid
      -- the log does not know the new id
      have hunknown : ∀ status attempt time, Event.save s.records.length status attempt time ∉ s.log := by
        intro status attempt time hin
        exact lt_irrefl _ (h.known _ _ _ _ hin)
      refine ⟨hcount.trans (attemptsOf_unknown h).symm, ?_, ?_, ?_, ?_⟩
      · rw [hcount]
        exact Nat.zero_le _
      · intro _
        rw [hcount]
        exact runtime.maxAttempts_pos
      · intro _ status attempt time hin
        exact absurd hin (hunknown status attempt time)
      · intro status attempt time hin
        exact absurd hin (hunknown status attempt time)
  known := fun id status attempt time hsave => by
    rw [List.length_append]
    exact Nat.lt_add_right _ (h.known id status attempt time hsave)
  jobs := h.jobs

/-- A POST of an open and due row. -/
theorem inv_post {s : State} (h : Inv runtime s) {id : ℕ} {record : Record}
    (hrecord : s.records[id]? = some record) (hopen : record.delivery.status.isOpen = true)
    (hdue : record.delivery.nextAttemptAt ≤ s.clock) :
    Inv runtime { s with log := s.log ++ [.post id s.clock] } where
  order := by
    rw [List.pairwise_append]
    refine ⟨h.order, List.pairwise_singleton _ _, ?_⟩
    intro event hevent other hother
    rw [List.mem_singleton.mp hother]
    cases event with
    | post posted time => trivial
    | save saved status attempt time =>
      rintro rfl
      obtain ⟨hstatus, htime⟩ := (h.rows saved record hrecord).due hopen status attempt time hevent
      exact ⟨hstatus, le_trans htime hdue⟩
  rows := fun other row hrow => (h.rows other row hrow).append fun _ _ _ heq => by cases heq
  known := by
    intro saved status attempt time hin
    rcases List.mem_append.mp hin with hin | hin
    · exact h.known saved status attempt time hin
    · cases List.mem_singleton.mp hin
  jobs := h.jobs

/-- The commit of an outcome over the row it was read from. -/
theorem inv_save {s : State} (h : Inv runtime s) {id : ℕ} {loaded changed : WebhookDelivery}
    {attempt : Bool} {deleted : Bool} (hrecord : s.records[id]? = some ⟨loaded, deleted⟩)
    (houtcome : Outcome runtime loaded changed attempt) :
    Inv runtime { s with
      records := s.records.set id ⟨changed, false⟩
      log := s.log ++ [.save id changed.status attempt changed.nextAttemptAt] } := by
  have hold := h.rows id _ hrecord
  have hlt : id < s.records.length := (List.getElem?_eq_some_iff.mp hrecord).1
  have hcount : changed.attemptCount = attemptsOf (s.log ++ [.save id changed.status attempt
      changed.nextAttemptAt]) id := by
    unfold attemptsOf
    rw [List.countP_append, houtcome.count, hold.count]
    cases attempt <;> simp [attemptsOf]
  have hsaves : ∀ status attempt' time, Event.save id status attempt' time ∈ s.log ++
      [.save id changed.status attempt changed.nextAttemptAt] →
      (status.isOpen = true ∧ time ≤ loaded.nextAttemptAt) ∨
        (status = changed.status ∧ time = changed.nextAttemptAt) := by
    intro status attempt' time hin
    rcases List.mem_append.mp hin with hin | hin
    · exact Or.inl (hold.due houtcome.wasOpen status attempt' time hin)
    · cases List.mem_singleton.mp hin
      exact Or.inr ⟨rfl, rfl⟩
  refine ⟨?_, ?_, ?_, h.jobs⟩
  · rw [List.pairwise_append]
    refine ⟨h.order, List.pairwise_singleton _ _, ?_⟩
    intro event hevent other hother
    rw [List.mem_singleton.mp hother]
    cases event with
    | post posted time => trivial
    | save saved status attempt' time =>
      rintro rfl hclosed
      rw [(hold.due houtcome.wasOpen status attempt' time hevent).1] at hclosed
      cases hclosed
  · intro other record hother
    by_cases hid : other = id
    · subst hid
      rw [List.getElem?_set_self hlt] at hother
      cases hother
      refine ⟨hcount, ?_, fun hopen => (houtcome.again hopen).1, ?_, ?_⟩
      · have hroom : loaded.attemptCount < runtime.maxAttempts := hold.room houtcome.wasOpen
        have hnext : changed.attemptCount ≤ loaded.attemptCount + 1 := by
          rw [houtcome.count]
          split <;> omega
        exact le_trans hnext hroom
      · intro hopen status attempt' time hin
        rcases hsaves status attempt' time hin with ⟨hstatus, htime⟩ | ⟨rfl, rfl⟩
        · exact ⟨hstatus, le_trans htime (houtcome.again hopen).2⟩
        · exact ⟨hopen, le_rfl⟩
      · intro status attempt' time hin hclosed
        rcases hsaves status attempt' time hin with ⟨hstatus, -⟩ | ⟨rfl, -⟩
        · rw [hstatus] at hclosed
          cases hclosed
        · rfl
    · rw [List.getElem?_set_ne (Ne.symm hid)] at hother
      refine (h.rows other record hother).append ?_
      intro status attempt' time heq
      cases heq
      exact hid rfl
  · intro saved status attempt' time hin
    rw [List.length_set]
    rcases List.mem_append.mp hin with hin | hin
    · exact h.known saved status attempt' time hin
    · cases List.mem_singleton.mp hin
      exact hlt

/-! ## The steps -/

theorem row_eq_some {s : State} {id : ℕ} {row : WebhookDelivery} (h : s.row id = some row) :
    s.records[id]? = some ⟨row, false⟩ := by
  unfold State.row at h
  obtain ⟨⟨delivery, deleted⟩, hrecord, rfl⟩ := Option.map_eq_some_iff.mp h
  obtain ⟨hrecord, hlive⟩ := Option.filter_eq_some_iff.mp hrecord
  cases deleted with
  | false => exact hrecord
  | true => cases hlive

theorem loadJob_inv {s : State} {id : ℕ} (endpoint : Option WebhookEndpoint)
    (hdue : ∀ record, s.records[id]? = some record → record.delivery.status.isOpen = true →
      record.delivery.nextAttemptAt ≤ s.clock) :
    JobInv runtime s.clock (loadJob runtime s.clock (s.row id) endpoint) := by
  unfold loadJob
  split
  · rename_i delivery endpoint hrow
    split
    · rename_i hopen
      split
      · exact failTerminal_outcome false hopen ⟨rfl, rfl⟩ rfl _
      · exact ⟨hopen, hdue _ (row_eq_some hrow) hopen⟩
    · trivial
  · trivial

theorem step_inv {s s' : State} {label : Label} (h : Inv runtime s) (hok : unraced s label = true)
    (hs : step runtime s label = some s') : Inv runtime s' := by
  cases label with
  | tick elapsed =>
    cases hs
    exact ⟨h.order, h.rows, h.known, fun d id => (h.jobs d id).later (Nat.le_add_right _ _)⟩
  | queue endpointId isTest =>
    cases hs
    exact inv_queue h _ rfl
  | deleteEndpoint endpointId =>
    cases hs
    apply h.mapRecords
    intro record
    split <;> rfl
  | purge =>
    simp only [step] at hs
    split at hs
    · cases hs
      exact h
    · cases hs
      apply h.mapRecords
      intro record
      split <;> rfl
  | acquire dispatcher =>
    simp only [step, Option.ite_none_right_eq_some, Option.some.injEq] at hs
    obtain ⟨-, rfl⟩ := hs
    exact ⟨h.order, h.rows, h.known, h.jobs⟩
  | release dispatcher =>
    simp only [step, Option.ite_none_right_eq_some, Option.some.injEq] at hs
    obtain ⟨-, rfl⟩ := hs
    exact ⟨h.order, h.rows, h.known, h.jobs⟩
  | dispatch dispatcher lag =>
    simp only [step, Option.ite_none_right_eq_some, Option.some.injEq] at hs
    obtain ⟨-, rfl⟩ := hs
    refine ⟨h.order, h.rows, h.known, ?_⟩
    intro d id
    show JobInv runtime s.clock (Function.update s.job dispatcher _ d id)
    by_cases hd : d = dispatcher
    · subst hd
      rw [Function.update_self]
      split <;> trivial
    · rw [Function.update_of_ne hd]
      exact h.jobs d id
  | load dispatcher id endpoint =>
    simp only [step] at hs
    split at hs
    · rename_i hselected
      cases hs
      apply h.setJob
      apply loadJob_inv
      intro record hrecord hopen
      simp only [unraced, hselected, hrecord] at hok
      simpa [hopen] using hok
    · cases hs
  | post dispatcher id =>
    simp only [step] at hs
    split at hs
    · rename_i loaded hready
      cases hs
      obtain ⟨record, hrecord, hdue⟩ := (Option.any_eq_true _ _).mp hok
      obtain ⟨hopen, hdue⟩ := Bool.and_eq_true_iff.mp hdue
      have hjob := h.jobs dispatcher id
      rw [hready] at hjob
      exact (inv_post h hrecord hopen (of_decide_eq_true hdue)).setJob dispatcher id (.posting loaded) hjob
    · cases hs
  | reply dispatcher id reply =>
    simp only [step] at hs
    split at hs
    · rename_i loaded hposting
      cases hs
      have hjob := h.jobs dispatcher id
      rw [hposting] at hjob
      exact h.setJob dispatcher id (.saving loaded _ true) (applyReply_outcome hjob.1 hjob.2 reply)
    · cases hs
  | commit dispatcher id succeeds =>
    simp only [step] at hs
    split at hs
    · rename_i loaded changed attempt hsaving
      have hjob := h.jobs dispatcher id
      rw [hsaving] at hjob
      split at hs
      · cases hs
        unfold commitJob
        split
        · exact h.setJob dispatcher id .absent trivial
        · rename_i row hrow
          -- the row is the one that was read
          have hrow' : row = loaded := by
            simp only [unraced, hsaving, hrow] at hok
            simpa using hok
          subst hrow'
          dsimp only
          rw [writeColumns_self hjob.unmoved]
          exact (inv_save h (row_eq_some hrow) hjob).setJob dispatcher id .absent trivial
      · cases hs
        exact h.setJob dispatcher id .absent trivial
    · cases hs
  | join dispatcher =>
    simp only [step] at hs
    split at hs
    · rw [Option.ite_none_right_eq_some] at hs
      obtain ⟨-, hs⟩ := hs
      cases hs
      exact ⟨h.order, h.rows, h.known, h.jobs⟩
    · cases hs
  | crash dispatcher =>
    cases hs
    refine ⟨h.order, h.rows, h.known, ?_⟩
    intro d id
    show JobInv runtime s.clock (Function.update s.job dispatcher _ d id)
    by_cases hd : d = dispatcher
    · subst hd
      rw [Function.update_self]
      trivial
    · rw [Function.update_of_ne hd]
      exact h.jobs d id

/-! ## Runs -/

theorem monotone_of_unraced {clock : ℕ} {s : State}
    (h : Reached (step runtime) (fun s label => unraced s label = true) (State.init clock) s) :
    Monotone runtime s :=
  (h.invariant (Inv.init runtime clock) fun _ _ _ hinv hok hs => step_inv hinv hok hs).monotone

end Webhooks
end BucketReef

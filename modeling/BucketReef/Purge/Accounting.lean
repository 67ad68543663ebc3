import BucketReef.Lists.Slices
import BucketReef.Purge.Purger
import Mathlib.Algebra.BigOperators.Group.List.Basic
import Mathlib.Algebra.Order.Group.Nat

/-!
# What a purge reports

Every listed entry is waiting to be submitted, in a pending batch, counted as deleted or counted as
failed. A purge that returns has nothing waiting and nothing pending, so its counts add up; and when it
reports no failure, S3 accepted the deletion of every entry it listed.
-/

namespace BucketReef
namespace Purge

open Transitions

/-! ## Batches -/

theorem flatten_batches {size : ℕ} (hsize : 0 < size) (items : List Item) :
    (batches size items).flatten = items :=
  Lists.flatten_slices hsize items

theorem mem_batches {size : ℕ} (hsize : 0 < size) {items batch : List Item}
    (h : batch ∈ batches size items) : batch ≠ [] ∧ batch.length ≤ size := by
  unfold batches at h
  obtain ⟨i, hi, rfl⟩ := List.mem_map.mp h
  have hlt : i * size < items.length := by
    have hsucc := (Nat.le_div_iff_mul_le hsize).mp (Nat.succ_le_of_lt (List.mem_range.mp hi))
    rw [Nat.succ_mul] at hsucc
    omega
  constructor
  · rw [← List.length_pos_iff, List.length_take, List.length_drop]
    omega
  · rw [List.length_take]
    exact Nat.min_le_left _ _

theorem chunkSize_bounds (options : Options) :
    0 < options.chunkSize ∧ options.chunkSize ≤ chunkLimit := by
  unfold Options.chunkSize
  split <;> decide

/-! ## Results -/

/-- What `_add_failure` adds to the count. -/
def failedOf (items : List Item) : Option BatchError → ℕ
  | none => 0
  | some (.deleteObjects _ failures) => failures.length
  | some (.raised _) => if items = [] then 1 else items.length

/-- Some batch that was run held the entry, and S3 accepted its deletion. -/
def AcceptedIn (options : Options) (executed : List (List Item × Answers)) (item : Item) : Prop :=
  ∃ batch ∈ executed, ∃ n, batch.1[n]? = some item ∧ batch.2.accepts options.individualDeletes n item

/-- A result accounts for its batch. -/
structure Settled (options : Options) (executed : List (List Item × Answers)) (items : List Item)
    (result : BatchResult) : Prop where
  count : result.deleted + failedOf items result.error = items.length
  failed : result.error ≠ none → 0 < failedOf items result.error
  accepted : result.error = none → ∀ item ∈ items, AcceptedIn options executed item

variable {options : Options} {executed : List (List Item × Answers)}

theorem AcceptedIn.append {item : Item} (h : AcceptedIn options executed item)
    (later : List (List Item × Answers)) : AcceptedIn options (executed ++ later) item := by
  obtain ⟨batch, hbatch, hitem⟩ := h
  exact ⟨batch, List.mem_append_left _ hbatch, hitem⟩

theorem Settled.append {items : List Item} {result : BatchResult}
    (h : Settled options executed items result) (later : List (List Item × Answers)) :
    Settled options (executed ++ later) items result :=
  ⟨h.count, h.failed, fun hnone item hitem => (h.accepted hnone item hitem).append later⟩

/-- The outcome of one batch, whichever way it is deleted. -/
def batchOutcome (options : Options) (items : List Item) (answers : Answers) : Except BatchError ℕ :=
  if options.individualDeletes then deleteObjectsIndividually answers.item items
  else deleteObjectsCount options.sanitize (fun _ => answers) items

theorem accounted_outcome {items : List Item} (hne : items ≠ []) (hshort : items.length ≤ chunkLimit)
    (answers : Answers) : Accounted items (batchOutcome options items answers) := by
  unfold batchOutcome
  split
  · exact accounted_individually answers.item items
  · rw [deleteObjectsCount_short options.sanitize _ hne hshort]
    exact accounted_chunk options.sanitize answers items

theorem accepts_outcome {items : List Item} (hne : items ≠ []) (hshort : items.length ≤ chunkLimit)
    {answers : Answers} {count : ℕ} (h : batchOutcome options items answers = .ok count) :
    ∀ n item, items[n]? = some item → answers.accepts options.individualDeletes n item := by
  unfold batchOutcome at h
  split at h
  · rename_i hindividual
    intro n item hitem
    unfold Answers.accepts
    rw [if_pos hindividual]
    exact accepts_individually h n item hitem
  · rename_i hbatch
    rw [deleteObjectsCount_short options.sanitize _ hne hshort] at h
    rw [Bool.not_eq_true] at hbatch
    rw [hbatch]
    exact accepts_of_ok h

theorem deleteBatch_eq (options : Options) (items : List Item) (answers : Answers) :
    deleteBatch options items answers =
      match batchOutcome options items answers with
      | .ok deleted => ⟨deleted, none⟩
      | .error (.deleteObjects deleted failures) => ⟨deleted, some (.deleteObjects deleted failures)⟩
      | .error (.raised message) => ⟨0, some (.raised message)⟩ :=
  rfl

theorem settled_deleteBatch {items : List Item} (hne : items ≠ []) (hshort : items.length ≤ chunkLimit)
    (answers : Answers) :
    Settled options (executed ++ [(items, answers)]) items (deleteBatch options items answers) := by
  have haccounted : Accounted items (batchOutcome options items answers) :=
    accounted_outcome hne hshort answers
  rw [deleteBatch_eq]
  cases houtcome : batchOutcome options items answers with
  | ok count =>
    rw [houtcome] at haccounted
    refine ⟨haccounted, fun h => absurd rfl h, ?_⟩
    intro _ item hitem
    obtain ⟨n, hn⟩ := List.getElem?_of_mem hitem
    exact ⟨(items, answers), by simp, n, hn, accepts_outcome hne hshort houtcome n item hn⟩
  | error error =>
    rw [houtcome] at haccounted
    cases error with
    | deleteObjects count failures =>
      refine ⟨haccounted.2, fun _ => List.length_pos_iff.mpr haccounted.1, ?_⟩
      intro h
      cases h
    | raised message =>
      refine ⟨?_, fun _ => ?_, fun h => by cases h⟩
      · simp [failedOf, hne]
      · simp only [failedOf, if_neg hne]
        exact List.length_pos_iff.mpr hne

/-! ## The invariant -/

def Phase.waiting : Phase → List (List Item)
  | .submitting _ rest _ => rest
  | _ => []

/-- Entries in the pending batches. -/
def pendingCount (pending : List Future) : ℕ := (pending.map fun future => future.items.length).sum

/-- A phase that a page may be followed by. -/
def Phase.Follows : Phase → Prop
  | .listing _ | .listingVersions _ _ | .draining _ => True
  | _ => False

structure Inv (options : Options) (s : State) : Prop where
  account : s.listedObjects + s.listedVersions = s.deletedObjects + s.deletedVersions + s.failedCount +
    pendingCount s.pending + s.phase.waiting.flatten.length
  waiting : ∀ batch ∈ s.phase.waiting, batch ≠ [] ∧ batch.length ≤ chunkLimit
  futures : ∀ future ∈ s.pending, future.items ≠ [] ∧ future.items.length ≤ chunkLimit ∧
    ∀ result, future.result = some result → Settled options s.executed future.items result
  covered : ∀ item ∈ s.listed, (∃ batch ∈ s.phase.waiting, item ∈ batch) ∨
    (∃ future ∈ s.pending, item ∈ future.items) ∨ 0 < s.failedCount ∨
      AcceptedIn options s.executed item
  follows : ∀ stage rest next, s.phase = .submitting stage rest next → next.Follows
  returned : s.phase = .returned false → s.pending = []

theorem Phase.Follows.waiting {phase : Phase} (h : phase.Follows) : phase.waiting = [] := by
  cases phase <;> first | rfl | cases h

/-- A phase without waiting batches takes over. -/
theorem Inv.setPhase {s : State} (h : Inv options s) {phase : Phase} (hwaiting : s.phase.waiting = [])
    (hnext : phase.Follows ∨ phase = .returned true) :
    Inv options { s with phase := phase } := by
  have hnone : phase.waiting = [] := by
    rcases hnext with hnext | rfl
    · exact hnext.waiting
    · rfl
  obtain ⟨haccount, -, hfutures, hcovered, -, -⟩ := h
  rw [hwaiting] at haccount hcovered
  refine ⟨?_, ?_, hfutures, ?_, ?_, ?_⟩
  · rw [hnone]
    exact haccount
  · rw [hnone]
    intro batch hbatch
    cases hbatch
  · rw [hnone]
    exact hcovered
  · rintro stage rest next rfl
    rcases hnext with hnext | hnext <;> cases hnext
  · rintro rfl
    rcases hnext with hnext | hnext <;> cases hnext

theorem inv_queue {s : State} (h : Inv options s) (hwaiting : s.phase.waiting = []) {items : List Item}
    {objects versions : ℕ} {stage : Stage} {next : Phase} (hnext : next.Follows)
    (hlisted : objects + versions = s.listedObjects + s.listedVersions + items.length) :
    Inv options (({ s with listedObjects := objects, listedVersions := versions } : State).queue options
      stage items next) := by
  obtain ⟨hsize, hlimit⟩ := chunkSize_bounds options
  obtain ⟨haccount, -, hfutures, hcovered, -, -⟩ := h
  rw [hwaiting] at haccount hcovered
  refine ⟨?_, ?_, hfutures, ?_, ?_, ?_⟩
  · show objects + versions = s.deletedObjects + s.deletedVersions + s.failedCount +
      pendingCount s.pending + (batches options.chunkSize items).flatten.length
    rw [flatten_batches hsize, hlisted, haccount]
    simp
  · intro batch hbatch
    obtain ⟨hne, hle⟩ := mem_batches hsize hbatch
    exact ⟨hne, le_trans hle hlimit⟩
  · intro item hitem
    rcases List.mem_append.mp hitem with hitem | hitem
    · rcases hcovered item hitem with ⟨batch, hbatch, -⟩ | hrest
      · cases hbatch
      · exact Or.inr hrest
    · rw [← flatten_batches hsize items, List.mem_flatten] at hitem
      exact Or.inl hitem
  · intro stage' rest next' heq
    cases heq
    exact hnext
  · intro heq
    cases heq

theorem inv_submit {s : State} (h : Inv options s) {stage : Stage} {batch : List Item}
    {rest : List (List Item)} {next : Phase} (hphase : s.phase = .submitting stage (batch :: rest) next) :
    Inv options { s with
      pending := s.pending ++ [{ stage := stage, items := batch }]
      phase := .submitting stage rest next } := by
  obtain ⟨haccount, hwaiting, hfutures, hcovered, hfollows, -⟩ := h
  rw [hphase] at haccount hwaiting hcovered
  refine ⟨?_, ?_, ?_, ?_, ?_, fun heq => by cases heq⟩
  · simp only [Phase.waiting, List.flatten_cons, List.length_append] at haccount
    simp only [pendingCount, List.map_append, List.sum_append, Phase.waiting, List.map_cons,
      List.map_nil, List.sum_cons, List.sum_nil] at haccount ⊢
    omega
  · intro other hother
    exact hwaiting other (List.mem_cons_of_mem _ hother)
  · intro future hfuture
    rcases List.mem_append.mp hfuture with hfuture | hfuture
    · exact hfutures future hfuture
    · rw [List.mem_singleton.mp hfuture]
      obtain ⟨hne, hle⟩ := hwaiting batch (by simp [Phase.waiting])
      exact ⟨hne, hle, fun result hresult => by cases hresult⟩
  · intro item hitem
    rcases hcovered item hitem with ⟨other, hother, hin⟩ | ⟨future, hfuture, hin⟩ | hrest
    · rcases List.mem_cons.mp hother with rfl | hother
      · exact Or.inr (Or.inl ⟨_, List.mem_append_right _ (List.mem_singleton.mpr rfl), hin⟩)
      · exact Or.inl ⟨other, hother, hin⟩
    · exact Or.inr (Or.inl ⟨future, List.mem_append_left _ hfuture, hin⟩)
    · exact Or.inr (Or.inr hrest)
  · intro stage' rest' next' heq
    cases heq
    exact hfollows stage _ next hphase

theorem map_set_eq {α β : Type} {f : α → β} {l : List α} {i : ℕ} {a b : α} (h : l[i]? = some a)
    (hf : f b = f a) : (l.set i b).map f = l.map f := by
  apply List.ext_getElem?
  intro j
  rw [List.getElem?_map, List.getElem?_map, List.getElem?_set]
  split
  · rename_i heq
    subst heq
    split
    · rw [h, Option.map_some, Option.map_some, hf]
    · rename_i hlt
      rw [h]
      exact absurd (List.getElem?_eq_some_iff.mp h).1 hlt
  · rfl

theorem inv_finish {s : State} (h : Inv options s) {index : ℕ} {stage : Stage} {items : List Item}
    (hfuture : s.pending[index]? = some ⟨stage, items, none⟩) (answers : Answers) :
    Inv options { s with
      pending := s.pending.set index ⟨stage, items, some (deleteBatch options items answers)⟩
      executed := s.executed ++ [(items, answers)] } := by
  obtain ⟨haccount, hwaiting, hfutures, hcovered, hfollows, hreturned⟩ := h
  have hin : (⟨stage, items, none⟩ : Future) ∈ s.pending := List.mem_of_getElem? hfuture
  have hcount : pendingCount
      (s.pending.set index ⟨stage, items, some (deleteBatch options items answers)⟩) =
        pendingCount s.pending :=
    congrArg List.sum (map_set_eq hfuture rfl)
  refine ⟨?_, hwaiting, ?_, ?_, hfollows, ?_⟩
  · dsimp only
    rw [hcount]
    exact haccount
  · intro future hmem
    rcases List.mem_or_eq_of_mem_set hmem with hmem | rfl
    · obtain ⟨hne, hle, hsettled⟩ := hfutures future hmem
      exact ⟨hne, hle, fun result hresult => (hsettled result hresult).append _⟩
    · obtain ⟨hne, hle, -⟩ := hfutures _ hin
      refine ⟨hne, hle, ?_⟩
      intro result hresult
      cases hresult
      exact settled_deleteBatch hne hle answers
  · intro item hitem
    rcases hcovered item hitem with hbatch | ⟨future, hmem, hitem⟩ | hfailed | haccepted
    · exact Or.inl hbatch
    · right
      left
      obtain ⟨j, hj⟩ := List.getElem?_of_mem hmem
      by_cases hij : index = j
      · subst hij
        rw [hfuture] at hj
        cases hj
        have hlt := (List.getElem?_eq_some_iff.mp hfuture).1
        exact ⟨_, List.mem_of_getElem? (List.getElem?_set_self hlt), hitem⟩
      · exact ⟨future, List.mem_of_getElem? ((List.getElem?_set_ne hij).trans hj), hitem⟩
    · exact Or.inr (Or.inr (Or.inl hfailed))
    · exact Or.inr (Or.inr (Or.inr (haccepted.append _)))
  · intro hphase
    have hnone := hreturned hphase
    rw [hnone] at hin
    cases hin

/-- What `addResult` does to the counters, and that it leaves the rest alone. -/
theorem addResult_spec (s : State) (future : Future) (result : BatchResult) :
    (s.addResult future result).deletedObjects + (s.addResult future result).deletedVersions =
        s.deletedObjects + s.deletedVersions + result.deleted ∧
      (s.addResult future result).failedCount = s.failedCount + failedOf future.items result.error ∧
      (s.addResult future result).listedObjects = s.listedObjects ∧
      (s.addResult future result).listedVersions = s.listedVersions ∧
      (s.addResult future result).phase = s.phase ∧
      (s.addResult future result).pending = s.pending ∧
      (s.addResult future result).listed = s.listed ∧
      (s.addResult future result).executed = s.executed := by
  obtain ⟨stage, items, stored⟩ := future
  obtain ⟨deleted, error⟩ := result
  cases stage <;> cases error with
  | none =>
    simp [State.addResult, failedOf]
    try omega
  | some error =>
    cases error with
    | deleteObjects count failures =>
      simp [State.addResult, State.addFailure, failedOf]
      try omega
    | raised message =>
      simp only [State.addResult, State.addFailure, failedOf]
      split <;> simp <;> omega

theorem inv_collect {s : State} (h : Inv options s) {index : ℕ} {future : Future} {result : BatchResult}
    (hfuture : s.pending[index]? = some future) (hresult : future.result = some result)
    (hphase : s.phase.collects = true) :
    Inv options (({ s with pending := s.pending.eraseIdx index } : State).addResult future result) := by
  obtain ⟨haccount, hwaiting, hfutures, hcovered, hfollows, -⟩ := h
  obtain ⟨hdeleted, hfailed, hobjects, hversions, hphase', hpending, hlisted, hexecuted⟩ :=
    addResult_spec { s with pending := s.pending.eraseIdx index } future result
  have hlt := (List.getElem?_eq_some_iff.mp hfuture).1
  have hget : s.pending[index] = future := (List.getElem?_eq_some_iff.mp hfuture).2
  have hperm : (future :: s.pending.eraseIdx index).Perm s.pending := by
    rw [← hget]
    exact List.getElem_cons_eraseIdx_perm hlt
  have hin : future ∈ s.pending := List.mem_of_getElem? hfuture
  obtain ⟨-, -, hsettled⟩ := hfutures future hin
  have hsettled := hsettled result hresult
  have hsum : pendingCount s.pending = future.items.length + pendingCount (s.pending.eraseIdx index) := by
    unfold pendingCount
    rw [← (hperm.map fun future => future.items.length).sum_eq, List.map_cons, List.sum_cons]
  refine ⟨?_, ?_, ?_, ?_, ?_, ?_⟩
  · rw [hdeleted, hfailed, hobjects, hversions, hphase', hpending]
    have hcount := hsettled.count
    dsimp only at haccount ⊢
    omega
  · rw [hphase']
    exact hwaiting
  · rw [hpending, hexecuted]
    intro other hother
    exact hfutures other (List.mem_of_mem_eraseIdx hother)
  · rw [hlisted, hphase', hpending, hexecuted, hfailed]
    intro item hitem
    rcases hcovered item hitem with hbatch | ⟨other, hother, hheld⟩ | hpositive | haccepted
    · exact Or.inl hbatch
    · rcases List.mem_cons.mp (hperm.mem_iff.mpr hother) with rfl | hother
      · -- the collected batch failed somewhere or was accepted as a whole
        by_cases herror : result.error = none
        · exact Or.inr (Or.inr (Or.inr (hsettled.accepted herror item hheld)))
        · exact Or.inr (Or.inr (Or.inl (Nat.add_pos_right _ (hsettled.failed herror))))
      · exact Or.inr (Or.inl ⟨other, hother, hheld⟩)
    · exact Or.inr (Or.inr (Or.inl (Nat.add_pos_left hpositive _)))
    · exact Or.inr (Or.inr (Or.inr haccepted))
  · rw [hphase']
    exact hfollows
  · rw [hphase']
    intro heq
    change s.phase = _ at heq
    rw [heq] at hphase
    cases hphase

theorem inv_start (options : Options) : Inv options start where
  account := rfl
  waiting := fun _ hbatch => by cases hbatch
  futures := fun _ hfuture => by cases hfuture
  covered := fun _ hitem => by cases hitem
  follows := fun _ _ _ heq => by cases heq
  returned := fun heq => by cases heq

/-! ## Runs -/

theorem inv_drained {s : State} (h : Inv options s) {stage : Stage} (hphase : s.phase = .draining stage)
    (hpending : s.pending = []) : Inv options { s with phase := .returned false } := by
  obtain ⟨haccount, -, hfutures, hcovered, -, -⟩ := h
  rw [hphase] at haccount hcovered
  refine ⟨haccount, ?_, hfutures, hcovered, ?_, fun _ => hpending⟩
  · intro batch hbatch
    cases hbatch
  · intro stage' rest next heq
    cases heq

/-- A run that raised has nothing to account for. -/
def Accounts (options : Options) (s : State) : Prop := s.phase = .raised ∨ Inv options s

theorem Accounts.inv {s : State} (h : Accounts options s) (hgoing : s.phase ≠ .raised) :
    Inv options s :=
  h.resolve_left hgoing

/-- The phase of a step of the listing thread, with nothing waiting to be submitted. -/
theorem Accounts.setPhase {s : State} (h : Accounts options s) {phase : Phase}
    (hgoing : s.phase ≠ .raised) (hwaiting : s.phase.waiting = [])
    (hnext : phase = .raised ∨ phase.Follows ∨ phase = .returned true) :
    Accounts options { s with phase := phase } := by
  rcases hnext with hraised | hnext
  · exact Or.inl hraised
  · exact Or.inr ((h.inv hgoing).setPhase hwaiting hnext)

theorem step_accounts {s s' : State} {label : Label} (h : Accounts options s)
    (hs : step options s label = some s') : Accounts options s' := by
  unfold step advance at hs
  split at hs
  · -- a page of objects
    rename_i page token hphase
    cases hs
    right
    apply inv_queue (h.inv (by rw [hphase]; exact nofun))
    · rw [hphase]
      rfl
    · split <;> trivial
    · omega
  · rename_i missing token hphase
    cases hs
    apply h.setPhase
    · rw [hphase]
      exact nofun
    · rw [hphase]
      rfl
    · split
      · exact Or.inr (Or.inr rfl)
      · exact Or.inl rfl
  · -- a page of versions
    rename_i page key version hphase
    cases hs
    right
    apply inv_queue (h.inv (by rw [hphase]; exact nofun))
    · rw [hphase]
      rfl
    · split <;> trivial
    · omega
  · rename_i absent key version hphase
    cases hs
    apply h.setPhase
    · rw [hphase]
      exact nofun
    · rw [hphase]
      rfl
    · split
      · exact Or.inr (Or.inl trivial)
      · exact Or.inl rfl
  · rename_i stage batch rest next hphase
    rw [Option.ite_none_right_eq_some] at hs
    obtain ⟨-, hs⟩ := hs
    cases hs
    exact Or.inr (inv_submit (h.inv (by rw [hphase]; exact nofun)) hphase)
  · rename_i stage next hphase
    cases hs
    have hinv := h.inv (by rw [hphase]; exact nofun)
    apply h.setPhase
    · rw [hphase]
      exact nofun
    · rw [hphase]
      rfl
    · exact Or.inr (Or.inl (hinv.follows stage [] _ hphase))
  · -- a batch is executed
    rename_i index answers
    split at hs
    · rename_i stage items hfuture
      cases hs
      rcases h with hraised | hinv
      · exact Or.inl hraised
      · exact Or.inr (inv_finish hinv hfuture answers)
    · cases hs
  · -- a batch is collected, which a run that raised does not do
    split at hs
    · rename_i stage items result hfuture
      rw [Option.ite_none_right_eq_some] at hs
      obtain ⟨hcollects, hs⟩ := hs
      cases hs
      have hgoing : s.phase ≠ .raised := by
        intro hraised
        rw [hraised] at hcollects
        cases hcollects
      exact Or.inr (inv_collect (h.inv hgoing) hfuture rfl hcollects)
    · cases hs
  · rename_i stage hphase
    rw [Option.ite_none_right_eq_some] at hs
    obtain ⟨hpending, hs⟩ := hs
    cases hs
    have hinv := h.inv (by rw [hphase]; exact nofun)
    right
    split
    · refine hinv.setPhase ?_ (Or.inl trivial)
      rw [hphase]
      rfl
    · exact inv_drained hinv hphase hpending
  · cases hs
    exact Or.inl rfl
  · cases hs

/-- A purge that returns has counted every entry it listed, and reports no failure only when S3 accepted
the deletion of each. -/
theorem purge_accounts (options : Options) (s : State) (h : Reachable options s)
    (hreturned : s.phase = .returned false) :
    s.listedObjects + s.listedVersions = s.deletedObjects + s.deletedVersions + s.failedCount ∧
      (s.failedCount = 0 → ∀ item ∈ s.listed, AcceptedIn options s.executed item) := by
  have hinv : Accounts options s := by
    apply Reached.invariant _ _ h
    · exact Or.inr (inv_start options)
    · intro s label s' hinv _ hs
      exact step_accounts hinv hs
  rcases hinv with hraised | ⟨haccount, -, -, hcovered, -, hpending⟩
  · rw [hraised] at hreturned
    cases hreturned
  rw [hpending hreturned, hreturned] at haccount hcovered
  constructor
  · simpa [pendingCount, Phase.waiting] using haccount
  · intro hzero item hitem
    rcases hcovered item hitem with ⟨batch, hbatch, -⟩ | ⟨future, hfuture, -⟩ | hfailed | haccepted
    · cases hbatch
    · cases hfuture
    · omega
    · exact haccepted

/-- Two objects, deleted as the answer says, and a version whose deletion is answered so. -/
def purgeLabels (objects version : Answers) : List Label :=
  [.listObjects ⟨[some "a", some "b"], none⟩, .submit, .submitted, .finish 0 objects,
    .collect 0, .drained,
    .listVersions ⟨[⟨some "a", some "1", true, none, 0, none, none⟩], [], none, none⟩, .submit,
    .submitted, .finish 0 version, .collect 0, .drained]

def purgeOptions : Options where
  sanitize := id

/-- With one object refused the counts add up, and with none every listed item has been accepted. -/
theorem purge_accounts_refused :
    (∃ s, Reachable purgeOptions s ∧ s.phase = .returned false ∧ s.failedCount = 1 ∧
      s.listedObjects + s.listedVersions = s.deletedObjects + s.deletedVersions + s.failedCount) ∧
    ∃ s, Reachable purgeOptions s ∧ s.phase = .returned false ∧ s.listed.length = 3 ∧
      ∀ item ∈ s.listed, AcceptedIn purgeOptions s.executed item := by
  constructor
  · have hrun : (after (step purgeOptions) start (purgeLabels
        ⟨.response (.errors [.dict (.string "b") .none (.string "AccessDenied") .none]),
          fun _ => .deleted⟩ ⟨.unparsable, fun _ => .deleted⟩)).any (fun s =>
        s.phase = .returned false ∧ s.failedCount = 1) = true := by
      decide +kernel
    obtain ⟨s, hs, hfinal⟩ := (Option.any_eq_true _ _).mp hrun
    obtain ⟨hphase, hfailed⟩ := of_decide_eq_true hfinal
    have hreach : Reachable purgeOptions s := Reached.init.after hs
    exact ⟨s, hreach, hphase, hfailed, (purge_accounts purgeOptions s hreach hphase).1⟩
  · have hrun : (after (step purgeOptions) start (purgeLabels ⟨.response .withoutErrors, fun _ => .deleted⟩
        ⟨.response .withoutErrors, fun _ => .deleted⟩)).any (fun s =>
        s.phase = .returned false ∧ s.failedCount = 0 ∧ s.listed.length = 3) = true := by
      decide +kernel
    obtain ⟨s, hs, hfinal⟩ := (Option.any_eq_true _ _).mp hrun
    obtain ⟨hphase, hfailed, hlisted⟩ := of_decide_eq_true hfinal
    have hreach : Reachable purgeOptions s := Reached.init.after hs
    exact ⟨s, hreach, hphase, hlisted, (purge_accounts purgeOptions s hreach hphase).2 hfailed⟩

end Purge
end BucketReef

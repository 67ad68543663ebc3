import BucketReef.Effects.Logic
import Mathlib.Data.List.Basic

/-!
# Threads, events and runs

A system runs programs as threads over one world, interleaved with events of the environment. If
every program it starts meets its weakest precondition and every event respects `rely` and the
invariant, then in every reachable state the invariant holds, and so does the requirement of every
operation a thread is about to call.
-/

namespace Effects

/-- A machine with the events of its environment and the jobs that start threads. -/
structure System (Op : Type) (Reply : Op → Type) (ε World Session Choice Event Job : Type) extends
    Machine Op Reply ε World Session Choice where
  /-- The world after an event; `none` when the event cannot happen. -/
  apply : Event → World → Option World
  /-- The world after a job was taken, and the thread that runs it. -/
  start : Job → World → Option (World × Session × Prog Op Reply ε Unit)

structure Thread (Op : Type) (Reply : Op → Type) (ε Session : Type) where
  session : Session
  prog : Prog Op Reply ε Unit

structure State (Op : Type) (Reply : Op → Type) (ε World Session : Type) where
  world : World
  threads : List (Thread Op Reply ε Session)

inductive Label (Choice Event Job : Type)
  | event (e : Event)
  | start (job : Job)
  /-- Thread `i` executes its next operation. -/
  | advance (i : ℕ) (choice : Choice)
  /-- Thread `i` ends: it has finished, or it crashed. -/
  | stop (i : ℕ)

section Runs

variable {Op : Type} {Reply : Op → Type} {ε World Session Choice Event Job : Type}
variable (S : System Op Reply ε World Session Choice Event Job)

def System.next (st : State Op Reply ε World Session) :
    Label Choice Event Job → Option (State Op Reply ε World Session)
  | .event e => (S.apply e st.world).map fun world => { st with world := world }
  | .start job => (S.start job st.world).map fun (world, session, prog) =>
      ⟨world, st.threads ++ [⟨session, prog⟩]⟩
  | .advance i choice =>
    match st.threads[i]? with
    | some ⟨session, .call op next⟩ =>
      let (world, session, reply) := S.exec op choice st.world session
      some ⟨world, st.threads.set i ⟨session, next reply⟩⟩
    | _ => none
  | .stop i => if i < st.threads.length then some { st with threads := st.threads.eraseIdx i } else none

/-- The states of all runs whose steps all satisfy `ok`. -/
inductive Reachable (ok : State Op Reply ε World Session → Label Choice Event Job → Prop)
    (world : World) : State Op Reply ε World Session → Prop
  | init : Reachable ok world ⟨world, []⟩
  | step {st st' : State Op Reply ε World Session} {label : Label Choice Event Job} :
      Reachable ok world st → ok st label → S.next st label = some st' → Reachable ok world st'

/-- The state after a list of labels; `none` when one cannot happen or is not `ok`. -/
def System.run (ok : State Op Reply ε World Session → Label Choice Event Job → Bool)
    (st : State Op Reply ε World Session) :
    List (Label Choice Event Job) → Option (State Op Reply ε World Session)
  | [] => some st
  | label :: labels =>
    if ok st label then (S.next st label).bind fun st' => System.run ok st' labels else none

variable {S}

theorem Reachable.run {ok : State Op Reply ε World Session → Label Choice Event Job → Bool}
    {world : World} {st st' : State Op Reply ε World Session} {labels : List (Label Choice Event Job)}
    (h : Reachable S (fun st label => ok st label = true) world st)
    (hrun : S.run ok st labels = some st') :
    Reachable S (fun st label => ok st label = true) world st' := by
  induction labels generalizing st with
  | nil =>
    cases hrun
    exact h
  | cons label labels ih =>
    simp only [System.run, Option.ite_none_right_eq_some, Option.bind_eq_some_iff] at hrun
    obtain ⟨hok, next, hnext, hrun⟩ := hrun
    exact ih (h.step hok hnext) hrun

/-! ## Soundness of the weakest precondition -/

variable (S) (R : Rules Op World Session)

/-- The operation thread `t` is about to call. -/
def Thread.pending (t : Thread Op Reply ε Session) : Option Op :=
  match t.prog with
  | .call op _ => some op
  | _ => none

/-- The thread runs on safely, whatever the environment does. -/
def Safe (t : Thread Op Reply ε Session) (world : World) : Prop :=
  wp S.toMachine R t.prog (fun _ _ _ => True) (fun _ _ _ => True) world t.session

/-- What makes the runs of a system safe: events and new jobs respect the rules, and a thread only
shares the world with others if its operations respect `rely`. -/
structure Sound (ok : State Op Reply ε World Session → Label Choice Event Job → Prop) : Prop where
  event : ∀ {st e world'}, R.inv st.world → ok st (.event e) → S.apply e st.world = some world' →
    R.rely st.world world' ∧ R.inv world'
  start : ∀ {st job world' session prog}, R.inv st.world → ok st (.start job) →
    S.start job st.world = some (world', session, prog) →
      R.rely st.world world' ∧ R.inv world' ∧ Safe S R ⟨session, prog⟩ world'
  advance : ∀ {st i choice t op next}, ok st (.advance i choice) → st.threads[i]? = some t →
    t.prog = .call op next → R.allowed op st.world t.session
  shared : ∀ {st i choice st'}, R.inv st.world → ok st (.advance i choice) →
    S.next st (.advance i choice) = some st' →
      st.threads.length ≤ 1 ∨ R.rely st.world st'.world

/-- The invariant, with every thread safe. -/
structure SafeState (st : State Op Reply ε World Session) : Prop where
  inv : R.inv st.world
  safe : ∀ t ∈ st.threads, Safe S R t st.world

variable {S R}

theorem Safe.rely {t : Thread Op Reply ε Session} {world world' : World} (h : Safe S R t world)
    (hrely : R.rely world world') (hinv : R.inv world') : Safe S R t world' :=
  wp_rely (fun _ _ _ _ _ _ _ => trivial) (fun _ _ _ _ _ _ _ => trivial) h hrely hinv

theorem Safe.require {t : Thread Op Reply ε Session} {world : World} (h : Safe S R t world)
    (hinv : R.inv world) {op : Op} (hop : t.pending = some op) : R.require op world t.session := by
  unfold Thread.pending at hop
  split at hop
  · rename_i next hprog
    cases hop
    unfold Safe at h
    rw [hprog] at h
    exact (h world (R.rely_refl world) hinv).1
  · cases hop

theorem SafeState.step {ok : State Op Reply ε World Session → Label Choice Event Job → Prop}
    (hsound : Sound S R ok) {st st' : State Op Reply ε World Session}
    {label : Label Choice Event Job} (h : SafeState S R st)
    (hok : ok st label) (hnext : S.next st label = some st') : SafeState S R st' := by
  cases label with
  | event e =>
    simp only [System.next, Option.map_eq_some_iff] at hnext
    obtain ⟨world, hworld, rfl⟩ := hnext
    obtain ⟨hrely, hinv⟩ := hsound.event h.inv hok hworld
    exact ⟨hinv, fun t ht => (h.safe t ht).rely hrely hinv⟩
  | start job =>
    simp only [System.next, Option.map_eq_some_iff] at hnext
    obtain ⟨⟨world, session, prog⟩, hstart, rfl⟩ := hnext
    obtain ⟨hrely, hinv, hsafe⟩ := hsound.start h.inv hok hstart
    refine ⟨hinv, ?_⟩
    intro t ht
    rcases List.mem_append.mp ht with ht | ht
    · exact (h.safe t ht).rely hrely hinv
    · rw [List.mem_singleton.mp ht]
      exact hsafe
  | advance i choice =>
    have hshared := hsound.shared h.inv hok hnext
    simp only [System.next] at hnext
    split at hnext
    · rename_i session op next hthread
      have hmem := List.mem_of_getElem? hthread
      obtain ⟨-, hstep⟩ := h.safe _ hmem st.world (R.rely_refl _) h.inv
      obtain ⟨hinv, hwp⟩ := hstep (hsound.advance hok hthread rfl) choice
      cases hnext
      refine ⟨hinv, ?_⟩
      intro t ht
      rcases hshared with hone | hrely
      · -- the only thread is the one that moved
        obtain ⟨u, hu⟩ := List.length_eq_one_iff.mp
          (Nat.le_antisymm hone (List.length_pos_of_mem hmem))
        have hi : i = 0 := by
          have hlt := (List.getElem?_eq_some_iff.mp hthread).1
          omega
        simp only [hu, hi, List.set_cons_zero, List.mem_singleton] at ht
        rw [ht]
        exact hwp
      · rcases List.mem_or_eq_of_mem_set ht with ht | rfl
        · exact (h.safe t ht).rely hrely hinv
        · exact hwp
    · cases hnext
  | stop i =>
    simp only [System.next, Option.ite_none_right_eq_some, Option.some.injEq] at hnext
    obtain ⟨-, rfl⟩ := hnext
    exact ⟨h.inv, fun t ht => h.safe t (List.mem_of_mem_eraseIdx ht)⟩

/-- Every reachable state satisfies the invariant, and every thread in it is safe. -/
theorem SafeState.of_reachable {ok : State Op Reply ε World Session → Label Choice Event Job → Prop}
    (hsound : Sound S R ok) {world : World} (hinv : R.inv world) {st : State Op Reply ε World Session}
    (h : Reachable S ok world st) : SafeState S R st := by
  induction h with
  | init => exact ⟨hinv, fun t ht => absurd ht List.not_mem_nil⟩
  | step _ hok hnext ih => exact ih.step hsound hok hnext

end Runs

end Effects

import Mathlib.Data.List.Basic

/-!
# Runs of a step function

A transition system is a partial step function on states. Its runs may be restricted to steps that
meet a condition; an invariant of every such step holds in every state of these runs.
-/

namespace Transitions

section Runs

variable {σ ℓ : Type} (step : σ → ℓ → Option σ) (ok : σ → ℓ → Prop)

/-- The states of the runs from `start` whose steps all meet `ok`. -/
inductive Reached (start : σ) : σ → Prop
  | init : Reached start start
  | step {s s' : σ} {label : ℓ} :
      Reached start s → ok s label → step s label = some s' → Reached start s'

/-- The condition that every step meets. -/
def anyStep : σ → ℓ → Prop := fun _ _ => True

variable {step ok} {start s s' : σ}

theorem Reached.invariant {inv : σ → Prop} (hinit : inv start)
    (hstep : ∀ s label s', inv s → ok s label → step s label = some s' → inv s')
    (h : Reached step ok start s) : inv s := by
  induction h with
  | init => exact hinit
  | step _ hok hs ih => exact hstep _ _ _ ih hok hs

/-- Fewer runs meet a stronger condition. -/
theorem Reached.mono {ok' : σ → ℓ → Prop} (hok : ∀ s label, ok s label → ok' s label)
    (h : Reached step ok start s) : Reached step ok' start s := by
  induction h with
  | init => exact .init
  | step _ hlabel hs ih => exact ih.step (hok _ _ hlabel) hs

/-- The runs of an invariant meet a condition that follows from it. -/
theorem Reached.of_invariant {inv : σ → Prop} {ok' : σ → ℓ → Prop} (hinit : inv start)
    (hstep : ∀ s label s', inv s → ok s label → step s label = some s' → ok' s label ∧ inv s')
    (h : Reached step ok start s) : Reached step ok' start s ∧ inv s := by
  induction h with
  | init => exact ⟨.init, hinit⟩
  | step _ hok hs ih =>
    obtain ⟨hmeets, hinv⟩ := hstep _ _ _ ih.2 hok hs
    exact ⟨ih.1.step hmeets hs, hinv⟩

theorem Reached.head {label : ℓ} {next : σ} (hok : ok s label) (hs : step s label = some next)
    (h : Reached step ok next s') : Reached step ok s s' := by
  induction h with
  | init => exact Reached.init.step hok hs
  | step _ hlabel hnext ih => exact ih.step hlabel hnext

/-- A run ends when some step brings every state on the way closer to its end. -/
theorem Reached.of_rank {inv final : σ → Prop} {rank : σ → ℕ}
    (hdown : ∀ s, inv s → ¬ final s →
      ∃ label next, ok s label ∧ step s label = some next ∧ inv next ∧ rank next < rank s)
    (hs : inv s) : ∃ s', Reached step ok s s' ∧ final s' := by
  induction hrank : rank s using Nat.strongRecOn generalizing s with
  | ind n ih =>
    by_cases hfinal : final s
    · exact ⟨s, .init, hfinal⟩
    · obtain ⟨label, next, hok, hnext, hinv, hlt⟩ := hdown s hs hfinal
      obtain ⟨s', hreached, hend⟩ := ih (rank next) (hrank ▸ hlt) hinv rfl
      exact ⟨s', hreached.head hok hnext, hend⟩

variable (step) in
/-- The state after a list of labels; `none` when one of them cannot happen. -/
def after (s : σ) : List ℓ → Option σ
  | [] => some s
  | label :: labels => (step s label).bind fun s' => after s' labels

/-- A list of labels that meet the condition in every state. -/
theorem Reached.after_of {labels : List ℓ} (h : Reached step ok start s)
    (hok : ∀ label ∈ labels, ∀ s, ok s label) (hafter : after step s labels = some s') :
    Reached step ok start s' := by
  induction labels generalizing s with
  | nil =>
    cases hafter
    exact h
  | cons label labels ih =>
    obtain ⟨next, hnext, hafter⟩ := Option.bind_eq_some_iff.mp hafter
    exact ih (h.step (hok label List.mem_cons_self s) hnext)
      (fun other hother => hok other (List.mem_cons_of_mem label hother)) hafter

theorem Reached.after {labels : List ℓ} (h : Reached step anyStep start s)
    (hafter : after step s labels = some s') : Reached step anyStep start s' :=
  h.after_of (fun _ _ _ => trivial) hafter

variable (step) in
/-- As `after`, for steps that meet a decidable condition. -/
def afterOk (ok : σ → ℓ → Bool) (s : σ) : List ℓ → Option σ
  | [] => some s
  | label :: labels =>
    if ok s label then (step s label).bind fun s' => afterOk ok s' labels else none

theorem Reached.afterOk {ok : σ → ℓ → Bool} {labels : List ℓ}
    (h : Reached step (fun s label => ok s label = true) start s)
    (hafter : afterOk step ok s labels = some s') :
    Reached step (fun s label => ok s label = true) start s' := by
  induction labels generalizing s with
  | nil =>
    cases hafter
    exact h
  | cons label labels ih =>
    simp only [Transitions.afterOk, Option.ite_none_right_eq_some, Option.bind_eq_some_iff] at hafter
    obtain ⟨hok, next, hnext, hafter⟩ := hafter
    exact ih (h.step hok hnext) hafter

end Runs

section Calls

/-- A call that may fail, before or after it took effect. -/
def settle {σ : Type} (failed effect : Bool) (before after : σ) (onFail onDone : σ → σ) : σ :=
  if failed then onFail (if effect then after else before) else onDone after

theorem settle_inv {σ : Type} {inv : σ → Prop} {failed effect : Bool} {before after : σ}
    {onFail onDone : σ → σ} (hbefore : inv (onFail before)) (hafter : inv (onFail after))
    (hdone : inv (onDone after)) : inv (settle failed effect before after onFail onDone) := by
  unfold settle
  cases failed with
  | false => exact hdone
  | true =>
    cases effect with
    | false => exact hbefore
    | true => exact hafter

end Calls

end Transitions

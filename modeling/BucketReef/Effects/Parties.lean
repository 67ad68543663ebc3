import Mathlib.Data.Fintype.Card
import Mathlib.Logic.Function.Basic

/-!
# Counting parties

How many of finitely many parties are in a state that meets a condition, as one party moves at a
time.
-/

namespace Parties

variable {ι α : Type} [Fintype ι] [DecidableEq ι] (meets : α → Prop) [DecidablePred meets]
  (states : ι → α)

/-- The number of parties whose state meets the condition. -/
def number : ℕ := (Finset.univ.filter fun i => meets (states i)).card

theorem number_le_card : number meets states ≤ Fintype.card ι :=
  (Finset.univ.filter fun i => meets (states i)).card_le_univ

variable {meets states} {i : ι} {next : α}

theorem number_update_le (h : meets next → meets (states i)) :
    number meets (Function.update states i next) ≤ number meets states := by
  refine Finset.card_le_card fun j hj => ?_
  have hj : meets (Function.update states i next j) := (Finset.mem_filter.mp hj).2
  refine Finset.mem_filter.mpr ⟨Finset.mem_univ j, ?_⟩
  by_cases hji : j = i
  · subst hji
    exact h (by rwa [Function.update_self] at hj)
  · rwa [Function.update_of_ne hji] at hj

theorem number_update_lt (hold : meets (states i)) (hnew : ¬ meets next) :
    number meets (Function.update states i next) < number meets states := by
  refine Finset.card_lt_card ⟨fun j hj => ?_, fun hsubset => ?_⟩
  · have hj : meets (Function.update states i next j) := (Finset.mem_filter.mp hj).2
    refine Finset.mem_filter.mpr ⟨Finset.mem_univ j, ?_⟩
    by_cases hji : j = i
    · exact hji ▸ hold
    · rwa [Function.update_of_ne hji] at hj
  · have hi : i ∈ Finset.univ.filter fun j => meets (Function.update states i next j) :=
      hsubset (Finset.mem_filter.mpr ⟨Finset.mem_univ i, hold⟩)
    have hi : meets (Function.update states i next i) := (Finset.mem_filter.mp hi).2
    rw [Function.update_self] at hi
    exact hnew hi

end Parties

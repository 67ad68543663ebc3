import Mathlib.Data.List.Basic

/-!
# Slices

A list cut into consecutive slices of one size; the last may be shorter.
-/

namespace Lists

variable {α : Type*}

/-- `items[start : start + size] for start in range(0, len(items), size)`. -/
def slices (size : ℕ) (items : List α) : List (List α) :=
  (List.range ((items.length + size - 1) / size)).map fun i => (items.drop (i * size)).take size

theorem flatten_slices {size : ℕ} (hsize : 0 < size) (items : List α) :
    (slices size items).flatten = items := by
  have htake : ∀ n, ((List.range n).map fun i => (items.drop (i * size)).take size).flatten =
      items.take (n * size) := by
    intro n
    induction n with
    | zero => simp
    | succ n ih =>
      rw [List.range_succ, List.map_append, List.flatten_append, ih, Nat.succ_mul, List.take_add]
      simp
  unfold slices
  rw [htake, List.take_of_length_le]
  have hdiv := Nat.lt_div_mul_add (a := items.length + size - 1) hsize
  omega

end Lists

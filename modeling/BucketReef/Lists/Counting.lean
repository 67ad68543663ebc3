import Mathlib.Data.List.Count
import Mathlib.Data.List.Nodup

/-!
# Counting in a table

A table is a list whose rows carry distinct tags. A condition that fixes the tag counts at most one
row, so an update of one tagged row moves any count by at most one.
-/

namespace Lists

variable {α β : Type*}

theorem countP_or_le (p q : α → Bool) (l : List α) :
    l.countP (fun a => p a || q a) ≤ l.countP p + l.countP q := by
  induction l with
  | nil => simp
  | cons a l ih =>
    simp only [List.countP_cons]
    cases p a <;> cases q a <;> simp <;> omega

/-- At most one row satisfies a condition that fixes its tag. -/
theorem countP_le_one_of_tag [DecidableEq β] {tag : α → β} {l : List α} (hnodup : (l.map tag).Nodup)
    {p : α → Bool} {t : β} (hp : ∀ a, p a = true → tag a = t) : l.countP p ≤ 1 := by
  calc l.countP p ≤ l.countP (fun a => tag a == t) :=
        List.countP_mono_left fun a _ ha => by simp [hp a ha]
    _ = (l.map tag).count t := by
        rw [List.count, List.countP_map]
        rfl
    _ ≤ 1 := List.nodup_iff_count_le_one.mp hnodup t

/-- An update that changes only the rows satisfying `p`, of which there is at most one, adds at
most one to a count. -/
theorem countP_map_le_add_one [DecidableEq β] {tag : α → β} {l : List α}
    (hnodup : (l.map tag).Nodup) {f : α → α} {p q : α → Bool} {t : β}
    (hp : ∀ a, p a = true → tag a = t)
    (hf : ∀ a ∈ l, p a = false → q (f a) = true → q a = true) :
    (l.map f).countP q ≤ l.countP q + 1 := by
  calc (l.map f).countP q = l.countP (q ∘ f) := List.countP_map
    _ ≤ l.countP (fun a => q a || p a) := by
        apply List.countP_mono_left
        intro a ha hq
        cases hpa : p a with
        | true => simp
        | false => simp [hf a ha hpa hq]
    _ ≤ l.countP q + l.countP p := countP_or_le q p l
    _ ≤ l.countP q + 1 := Nat.add_le_add_left (countP_le_one_of_tag hnodup hp) _

end Lists

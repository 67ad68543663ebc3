import Mathlib.Algebra.BigOperators.Group.List.Basic
import Mathlib.Data.List.Nodup

/-!
# Tallies

The weights of a list, summed key by key. A tally does not depend on the order of the list, adds up
over its parts, and summed over all the keys gives back the weight of the whole list.
-/

namespace Lists

variable {α κ M : Type*} [DecidableEq κ] [AddCommMonoid M]

/-- The weight of the elements of `l` under the key `k`. -/
def tally (key : α → κ) (weight : α → M) (l : List α) (k : κ) : M :=
  ((l.filter fun a => key a = k).map weight).sum

variable (key : α → κ) (weight : α → M)

@[simp] theorem tally_nil (k : κ) : tally key weight [] k = 0 := rfl

theorem tally_cons (a : α) (l : List α) (k : κ) :
    tally key weight (a :: l) k = (if key a = k then weight a else 0) + tally key weight l k := by
  unfold tally
  by_cases h : key a = k
  · simp [h]
  · simp [h]

theorem tally_append (l l' : List α) (k : κ) :
    tally key weight (l ++ l') k = tally key weight l k + tally key weight l' k := by
  unfold tally
  rw [List.filter_append, List.map_append, List.sum_append]

theorem tally_concat (l : List α) (a : α) (k : κ) :
    tally key weight (l ++ [a]) k = tally key weight l k + if key a = k then weight a else 0 := by
  rw [tally_append, tally_cons, tally_nil, add_zero]

theorem tally_perm {l l' : List α} (h : l.Perm l') (k : κ) :
    tally key weight l k = tally key weight l' k :=
  ((h.filter _).map _).sum_eq

theorem tally_flatMap {β : Type*} (f : β → List α) (l : List β) (k : κ) :
    tally key weight (l.flatMap f) k = (l.map fun b => tally key weight (f b) k).sum := by
  induction l with
  | nil => rfl
  | cons b l ih => rw [List.flatMap_cons, tally_append, ih, List.map_cons, List.sum_cons]

theorem tally_eq_zero {l : List α} {k : κ} (h : k ∉ l.map key) : tally key weight l k = 0 := by
  induction l with
  | nil => rfl
  | cons a l ih =>
    rw [List.map_cons, List.mem_cons, not_or] at h
    rw [tally_cons, if_neg (Ne.symm h.1), ih h.2, add_zero]

/-- Over distinct keys the tally reads the weight back. -/
theorem tally_id {keys : List κ} (hnodup : keys.Nodup) (f : κ → M) (k : κ) :
    tally id f keys k = if k ∈ keys then f k else 0 := by
  induction keys with
  | nil => rfl
  | cons k' keys ih =>
    rw [List.nodup_cons] at hnodup
    rw [tally_cons, ih hnodup.2]
    by_cases h : k' = k
    · subst h
      simp [hnodup.1]
    · simp [h, Ne.symm h]

theorem sum_ite_key {keys : List κ} (hnodup : keys.Nodup) {k : κ} (hk : k ∈ keys) (m : M) :
    (keys.map fun k' => if k = k' then m else 0).sum = m := by
  induction keys with
  | nil => simp at hk
  | cons k' keys ih =>
    rw [List.nodup_cons] at hnodup
    rw [List.map_cons, List.sum_cons]
    by_cases h : k = k'
    · subst h
      have hzero : (keys.map fun k' => if k = k' then m else 0).sum = 0 := by
        apply List.sum_eq_zero
        intro x hx
        obtain ⟨k', hk', rfl⟩ := List.mem_map.mp hx
        rw [if_neg]
        rintro rfl
        exact hnodup.1 hk'
      rw [if_pos rfl, hzero, add_zero]
    · rw [if_neg h, zero_add]
      exact ih hnodup.2 ((List.mem_cons.mp hk).resolve_left h)

/-- Summed over distinct keys that cover the list, the tally is the weight of the list. -/
theorem sum_tally {keys : List κ} (hnodup : keys.Nodup) {l : List α}
    (hcover : ∀ a ∈ l, key a ∈ keys) :
    (keys.map (tally key weight l)).sum = (l.map weight).sum := by
  induction l with
  | nil =>
    apply List.sum_eq_zero
    intro x hx
    obtain ⟨k, -, rfl⟩ := List.mem_map.mp hx
    rfl
  | cons a l ih =>
    have hsplit : tally key weight (a :: l) =
        fun k => (if key a = k then weight a else 0) + tally key weight l k := by
      funext k
      exact tally_cons key weight a l k
    rw [hsplit, List.sum_map_add, sum_ite_key hnodup (hcover a List.mem_cons_self),
      ih fun b hb => hcover b (List.mem_cons_of_mem a hb), List.map_cons, List.sum_cons]

/-- The tallies under distinct keys and the weight of the elements under other keys make up the
weight of the list. -/
theorem sum_tally_add_others {keys : List κ} (hnodup : keys.Nodup) (l : List α) :
    (keys.map (tally key weight l)).sum + ((l.filter fun a => key a ∉ keys).map weight).sum =
      (l.map weight).sum := by
  have htally : ∀ k ∈ keys, tally key weight (l.filter fun a => key a ∈ keys) k =
      tally key weight l k := by
    intro k hk
    unfold tally
    rw [List.filter_filter]
    congr 2
    refine List.filter_congr fun a _ => ?_
    by_cases h : key a = k
    · simp [h, hk]
    · simp [h]
  have hkeys : (keys.map (tally key weight l)).sum =
      ((l.filter fun a => key a ∈ keys).map weight).sum := by
    rw [← sum_tally key weight hnodup fun a ha => by simpa using (List.mem_filter.mp ha).2]
    exact congrArg List.sum (List.map_congr_left fun k hk => (htally k hk).symm)
  have hperm : ((l.filter fun a => key a ∈ keys) ++ l.filter fun a => key a ∉ keys).Perm l := by
    simpa using List.filter_append_perm (fun a => decide (key a ∈ keys)) l
  rw [hkeys, ← List.sum_append, ← List.map_append]
  exact (hperm.map weight).sum_eq

end Lists

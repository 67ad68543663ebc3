import BucketReef.Lists.Tally
import Mathlib.Data.List.Dedup

/-!
# Keyed tables

A table holds one value for each key, in the order in which the keys first came. Adding to a key that
is not there yet opens an entry for it, so the values of a table sum to everything that was added.
-/

namespace Lists

variable {α β κ M : Type*} [DecidableEq κ] [AddCommMonoid M]

/-- `table[k] += m`, where an entry starts from zero. -/
def addAt (k : κ) (m : M) : List (κ × M) → List (κ × M)
  | [] => [(k, 0 + m)]
  | (k', v) :: rest => if k' = k then (k', v + m) :: rest else (k', v) :: addAt k m rest

/-- The table of a list, filled from the left. -/
def tableOf (key : α → κ) (weight : α → M) (l : List α) : List (κ × M) :=
  l.foldl (fun table a => addAt (key a) (weight a) table) []

theorem sum_addAt (k : κ) (m : M) (table : List (κ × M)) :
    ((addAt k m table).map Prod.snd).sum = (table.map Prod.snd).sum + m := by
  induction table with
  | nil => simp [addAt]
  | cons entry rest ih =>
    obtain ⟨k', v⟩ := entry
    rw [addAt]
    split_ifs with h
    · rw [List.map_cons, List.sum_cons, List.map_cons, List.sum_cons, add_right_comm]
    · rw [List.map_cons, List.sum_cons, ih, List.map_cons, List.sum_cons, add_assoc]

/-- A key of the table was there before, or is the one added to. -/
theorem mem_keys_addAt {k k' : κ} {m : M} {table : List (κ × M)}
    (h : k' ∈ (addAt k m table).map Prod.fst) : k' = k ∨ k' ∈ table.map Prod.fst := by
  induction table with
  | nil => exact .inl (by simpa [addAt] using h)
  | cons entry rest ih =>
    obtain ⟨k'', v⟩ := entry
    rw [addAt] at h
    split_ifs at h with heq
    · exact .inr h
    · rw [List.map_cons, List.mem_cons] at h ⊢
      rcases h with h | h
      · exact .inr (.inl h)
      · exact (ih h).imp_right .inr

theorem foldl_addAt_sum (key : α → κ) (weight : α → M) (l : List α) (table : List (κ × M)) :
    ((l.foldl (fun table a => addAt (key a) (weight a) table) table).map Prod.snd).sum =
      (table.map Prod.snd).sum + (l.map weight).sum := by
  induction l generalizing table with
  | nil => simp
  | cons a rest ih =>
    rw [List.foldl_cons, ih, sum_addAt, List.map_cons, List.sum_cons, add_assoc]

/-- The values of a table sum to the weight of its list. -/
theorem sum_tableOf (key : α → κ) (weight : α → M) (l : List α) :
    ((tableOf key weight l).map Prod.snd).sum = (l.map weight).sum := by
  rw [tableOf, foldl_addAt_sum, List.map_nil, List.sum_nil, zero_add]

theorem mem_keys_tableOf {key : α → κ} {weight : α → M} {l : List α} {k : κ}
    (h : k ∈ (tableOf key weight l).map Prod.fst) : ∃ a ∈ l, key a = k := by
  have hfold : ∀ (l : List α) (table : List (κ × M)),
      k ∈ (l.foldl (fun table a => addAt (key a) (weight a) table) table).map Prod.fst →
        (∃ a ∈ l, key a = k) ∨ k ∈ table.map Prod.fst := by
    intro l
    induction l with
    | nil => exact fun _ h => .inr h
    | cons a rest ih =>
      intro table h
      rcases ih _ h with ⟨b, hb, hkey⟩ | h
      · exact .inl ⟨b, List.mem_cons_of_mem a hb, hkey⟩
      · rcases mem_keys_addAt h with rfl | h
        · exact .inl ⟨a, List.mem_cons_self, rfl⟩
        · exact .inr h
  exact (hfold l [] h).resolve_right (by simp)

/-! ## Grouping -/

/-- A table with one entry for each key that occurs, computed from the elements under it. -/
def groupsOf (key : α → κ) (f : List α → β) (l : List α) : List (κ × β) :=
  (l.map key).dedup.map fun k => (k, f (l.filter fun a => key a = k))

theorem lookup_map_mk (f : κ → β) (keys : List κ) (k : κ) :
    (keys.map fun k => (k, f k)).lookup k = if k ∈ keys then some (f k) else none := by
  induction keys with
  | nil => rfl
  | cons k' keys ih =>
    rw [List.map_cons, List.lookup_cons]
    by_cases h : k = k'
    · subst h
      simp
    · rw [beq_false_of_ne h]
      simp [h, ih]

/-- The entry of a key; there is none for a key without elements. -/
theorem lookup_groupsOf (key : α → κ) (f : List α → β) (l : List α) (k : κ) :
    (groupsOf key f l).lookup k = if (l.filter fun a => key a = k) = [] then none
      else some (f (l.filter fun a => key a = k)) := by
  have hmem : k ∈ (l.map key).dedup ↔ ¬ (l.filter fun a => key a = k) = [] := by
    simp [List.filter_eq_nil_iff]
  rw [groupsOf, lookup_map_mk]
  by_cases h : (l.filter fun a => key a = k) = []
  · rw [if_neg fun hk => hmem.mp hk h, if_pos h]
  · rw [if_pos (hmem.mpr h), if_neg h]

end Lists

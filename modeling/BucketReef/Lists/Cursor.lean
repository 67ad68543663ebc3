import Mathlib

/-!
# Reading a table in the order of an index

A cursor reads the rows of a table one by one in increasing order and remembers only the last row it
read. Rows at or before that position may be removed while it is open: it still reads what it would
have read from the table it began with. Where the rows of a group stand next to each other, the number
of rows of its group before a row is a counter that the cursor can keep.
-/

namespace Lists

variable {α κ : Type*} [LinearOrder κ] (order : α → κ)

/-- The row comes after the position; every row comes after the start. -/
def isAfter (position : Option α) (row : α) : Bool :=
  position.all fun last => decide (order last < order row)

/-- The row a cursor at the position reads next. -/
def IsNext (position : Option α) (table : List α) (row : α) : Prop :=
  row ∈ table ∧ isAfter order position row = true ∧
    ∀ other ∈ table, isAfter order position other = true → order row ≤ order other

instance [DecidableEq α] (position : Option α) (table : List α) (row : α) :
    Decidable (IsNext order position table row) :=
  inferInstanceAs (Decidable (_ ∧ _ ∧ _))

/-- The cursor has read every row. -/
def AtEnd (position : Option α) (table : List α) : Prop :=
  ∀ row ∈ table, isAfter order position row = false

instance (position : Option α) (table : List α) : Decidable (AtEnd order position table) :=
  inferInstanceAs (Decidable (∀ row ∈ table, _))

/-- The two tables hold the same rows after the position. -/
def AgreeAfter (position : Option α) (table other : List α) : Prop :=
  ∀ row, isAfter order position row = true → (row ∈ table ↔ row ∈ other)

/-- The number of rows of its group that come before a row. -/
def place {γ : Type*} [DecidableEq γ] (group : α → γ) (table : List α) (row : α) : ℕ :=
  table.countP fun other => group other = group row ∧ order other < order row

/-- The number of rows after the position. -/
def unread (position : Option α) (table : List α) : ℕ := table.countP (isAfter order position)

variable {order} {position : Option α} {table other : List α} {row : α}

theorem isAfter_some {last : α} : isAfter order (some last) row = true ↔ order last < order row := by
  unfold isAfter
  rw [Option.all_some, decide_eq_true_eq]

/-! ## Tables that shrink behind the cursor -/

theorem AgreeAfter.rfl : AgreeAfter order position table table := fun _ _ => Iff.rfl

theorem AgreeAfter.isNext (h : AgreeAfter order position table other)
    (hnext : IsNext order position table row) : IsNext order position other row := by
  obtain ⟨hmem, hafter, hleast⟩ := hnext
  refine ⟨(h row hafter).mp hmem, hafter, ?_⟩
  intro next hin hlater
  exact hleast next ((h next hlater).mpr hin) hlater

theorem isAfter_of_isAfter_row {next : α} (hafter : isAfter order position row = true)
    (h : isAfter order (some row) next = true) : isAfter order position next = true := by
  cases position with
  | none => exact Eq.refl true
  | some last => exact isAfter_some.mpr (lt_trans (isAfter_some.mp hafter) (isAfter_some.mp h))

theorem AgreeAfter.advance (h : AgreeAfter order position table other)
    (hafter : isAfter order position row = true) : AgreeAfter order (some row) table other :=
  fun next hnext => h next (isAfter_of_isAfter_row hafter hnext)

/-- Only rows that were read are removed. -/
theorem AgreeAfter.remove {keep : α → Bool} (h : AgreeAfter order position table other)
    (hkeep : ∀ row ∈ table, isAfter order position row = true → keep row = true) :
    AgreeAfter order position (table.filter keep) other := by
  intro next hnext
  rw [← h next hnext, List.mem_filter]
  exact ⟨And.left, fun hin => ⟨hin, hkeep next hin hnext⟩⟩

theorem AgreeAfter.atEnd (h : AgreeAfter order position table other)
    (hend : AtEnd order position table) : AtEnd order position other := by
  intro next hin
  by_contra hlater
  rw [Bool.not_eq_false] at hlater
  have := hend next ((h next hlater).mpr hin)
  rw [hlater] at this
  cases this

/-- What was not after the cursor is not after a later position. -/
theorem not_isAfter_advance {next : α} (hafter : isAfter order position row = true)
    (h : isAfter order position next = false) : isAfter order (some row) next = false := by
  by_contra hlater
  rw [Bool.not_eq_false] at hlater
  rw [isAfter_of_isAfter_row hafter hlater] at h
  cases h

/-- A cursor that is not at the end has a next row. -/
theorem exists_isNext (hmore : ¬ AtEnd order position table) : ∃ row, IsNext order position table row := by
  classical
  have hlater : table.filter (isAfter order position) ≠ [] := by
    intro hnone
    refine hmore fun row hrow => ?_
    simpa using List.filter_eq_nil_iff.mp hnone row hrow
  obtain ⟨row, hrow, hleast⟩ := (table.filter (isAfter order position)).toFinset.exists_min_image order
    (List.toFinset_nonempty_iff _ |>.mpr hlater)
  rw [List.mem_toFinset, List.mem_filter] at hrow
  refine ⟨row, hrow.1, hrow.2, fun other hother hafter => hleast other ?_⟩
  rw [List.mem_toFinset, List.mem_filter]
  exact ⟨hother, hafter⟩

theorem unread_advance_lt (hnext : IsNext order position table row) :
    unread order (some row) table < unread order position table := by
  unfold unread
  have hsub : table.countP (isAfter order (some row)) =
      (table.filter (isAfter order position)).countP (isAfter order (some row)) := by
    rw [List.countP_filter]
    refine List.countP_congr fun next _ => ?_
    rw [Bool.and_eq_true]
    exact ⟨fun h => ⟨h, isAfter_of_isAfter_row hnext.2.1 h⟩, And.left⟩
  rw [hsub, List.countP_eq_length_filter (p := isAfter order position)]
  refine lt_of_le_of_ne List.countP_le_length fun hall => ?_
  have hself := List.countP_eq_length.mp hall row (List.mem_filter.mpr ⟨hnext.1, hnext.2.1⟩)
  exact lt_irrefl _ (isAfter_some.mp hself)

/-- The row just read is the only one the position passes. -/
theorem eq_of_passed {next : α} (hinj : ∀ a ∈ table, ∀ b ∈ table, order a = order b → a = b)
    (hnext : IsNext order position table row) (hin : next ∈ table)
    (hafter : isAfter order position next = true) (hpassed : isAfter order (some row) next = false) :
    next = row := by
  apply hinj next hin row hnext.1
  apply le_antisymm
  · rw [← not_lt, ← isAfter_some, hpassed]
    exact Bool.false_ne_true
  · exact hnext.2.2 next hin hafter

/-! ## Counting within a group -/

variable {γ : Type*} [DecidableEq γ] {group : α → γ}

theorem countP_lt_succ (p : α → Prop) [DecidablePred p] {last : α} (hnodup : (table.map order).Nodup)
    (hin : last ∈ table) (hp : p last) :
    table.countP (fun other => p other ∧ order other ≤ order last) =
      table.countP (fun other => p other ∧ order other < order last) + 1 := by
  induction table with
  | nil => cases hin
  | cons head rest ih =>
    rw [List.map_cons, List.nodup_cons] at hnodup
    obtain ⟨hhead, hnodup⟩ := hnodup
    by_cases heq : head = last
    · subst heq
      -- no other row has the order of this one
      have hrest : rest.countP (fun other => p other ∧ order other ≤ order head) =
          rest.countP (fun other => p other ∧ order other < order head) := by
        apply List.countP_congr
        intro other hother
        have hne : order other ≠ order head := by
          intro h
          exact hhead (h ▸ List.mem_map_of_mem hother)
        simp only [decide_eq_true_eq]
        constructor
        · rintro ⟨h, hle⟩
          exact ⟨h, lt_of_le_of_ne hle hne⟩
        · rintro ⟨h, hlt⟩
          exact ⟨h, le_of_lt hlt⟩
      rw [List.countP_cons_of_pos (by simp [hp]), List.countP_cons_of_neg (by simp), hrest]
    · have hin : last ∈ rest := (List.mem_cons.mp hin).resolve_left (Ne.symm heq)
      have hne : order head ≠ order last := by
        intro h
        exact hhead (h ▸ List.mem_map_of_mem hin)
      have hiff : (p head ∧ order head ≤ order last) ↔ (p head ∧ order head < order last) := by
        constructor
        · rintro ⟨h, hle⟩
          exact ⟨h, lt_of_le_of_ne hle hne⟩
        · rintro ⟨h, hlt⟩
          exact ⟨h, le_of_lt hlt⟩
      rw [List.countP_cons, List.countP_cons, ih hnodup hin]
      simp only [hiff]
      omega

/-- The counter of the cursor: it goes on within a group and starts again with the next one. -/
theorem place_next (hnodup : (table.map order).Nodup)
    (hgroups : ∀ a b c, order a ≤ order b → order b ≤ order c → group a = group c → group b = group c)
    (hposition : ∀ last, position = some last → last ∈ table)
    (hnext : IsNext order position table row) :
    place order group table row =
      match position with
      | none => 0
      | some last => if group last = group row then place order group table last + 1 else 0 := by
  obtain ⟨-, hafter, hleast⟩ := hnext
  cases position with
  | none =>
    unfold place
    rw [List.countP_eq_zero]
    intro other hother h
    exact absurd (decide_eq_true_eq.mp h).2 (not_lt.mpr (hleast other hother rfl))
  | some last =>
    have hlt : order last < order row := isAfter_some.mp hafter
    have hbefore : ∀ other ∈ table, (order other < order row ↔ order other ≤ order last) := by
      intro other hother
      constructor
      · intro h
        by_contra hlater
        exact absurd h (not_lt.mpr (hleast other hother (isAfter_some.mpr (not_le.mp hlater))))
      · intro h
        exact lt_of_le_of_lt h hlt
    show place order group table row =
      if group last = group row then place order group table last + 1 else 0
    unfold place
    by_cases hgroup : group last = group row
    · rw [if_pos hgroup, ← countP_lt_succ (fun other => group other = group last) hnodup
        (hposition last rfl) rfl, hgroup]
      apply List.countP_congr
      intro other hother
      simp only [decide_eq_true_eq, hbefore other hother]
    · rw [if_neg hgroup, List.countP_eq_zero]
      intro other hother h
      obtain ⟨hsame, hother'⟩ := decide_eq_true_eq.mp h
      exact hgroup (hgroups other last row ((hbefore other hother).mp hother') (le_of_lt hlt) hsame)

end Lists

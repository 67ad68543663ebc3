import Mathlib.Data.List.Nodup

/-!
# Dictionaries in insertion order

A dictionary is the list of its entries. An assignment to a new key adds an entry at the end; to an old
one it keeps the place. Grouping rows by a key is a loop that modifies one entry for each row: what it
leaves at a key is the loop over the rows of that key.
-/

/-- A dictionary with the keys in the order in which they were first assigned. -/
abbrev Dict (κ α : Type) := List (κ × α)

namespace Dict

variable {κ α ρ : Type} [DecidableEq κ]

def get? : Dict κ α → κ → Option α
  | [], _ => none
  | (k', v) :: d, k => if k' = k then some v else get? d k

def getD (d : Dict κ α) (k : κ) (default : α) : α := (get? d k).getD default

def set : Dict κ α → κ → α → Dict κ α
  | [], k, v => [(k, v)]
  | (k', v') :: d, k, v => if k' = k then (k', v) :: d else (k', v') :: set d k v

/-- `setdefault`, and a change of the entry. -/
def modify (d : Dict κ α) (k : κ) (default : α) (f : α → α) : Dict κ α :=
  set d k (f (getD d k default))

def keys (d : Dict κ α) : List κ := d.map Prod.fst

def values (d : Dict κ α) : List α := d.map Prod.snd

theorem get?_set (d : Dict κ α) (k k' : κ) (v : α) :
    get? (set d k v) k' = if k = k' then some v else get? d k' := by
  induction d with
  | nil => simp [set, get?]
  | cons entry d ih =>
    obtain ⟨k₀, v₀⟩ := entry
    unfold set
    by_cases h : k₀ = k
    · subst h
      rw [if_pos rfl]
      by_cases h' : k₀ = k'
      · simp [get?, h']
      · simp [get?, h']
    · rw [if_neg h]
      unfold get?
      rw [ih]
      by_cases h' : k₀ = k'
      · subst h'
        rw [if_pos rfl, if_neg (Ne.symm h), if_pos rfl]
      · rw [if_neg h', if_neg h']

theorem getD_modify (d : Dict κ α) (k k' : κ) (default : α) (f : α → α) :
    getD (modify d k default f) k' default =
      if k = k' then f (getD d k' default) else getD d k' default := by
  unfold modify
  rw [getD, get?_set]
  by_cases h : k = k'
  · rw [if_pos h, if_pos h, Option.getD_some, h]
  · rw [if_neg h, if_neg h, getD]

theorem getD_set_of_ne {d : Dict κ α} {k k' : κ} {v default : α} (h : k ≠ k') :
    getD (set d k v) k' default = getD d k' default := by
  rw [getD, get?_set, if_neg h, getD]

theorem keys_set (d : Dict κ α) (k : κ) (v : α) :
    keys (set d k v) = if k ∈ keys d then keys d else keys d ++ [k] := by
  induction d with
  | nil => simp [set, keys]
  | cons entry d ih =>
    obtain ⟨k₀, v₀⟩ := entry
    unfold set
    by_cases h : k₀ = k
    · simp [keys, h]
    · rw [if_neg h]
      unfold keys at ih ⊢
      rw [List.map_cons, ih, List.map_cons]
      by_cases hmem : k ∈ d.map Prod.fst
      · rw [if_pos hmem, if_pos (List.mem_cons_of_mem _ hmem)]
      · rw [if_neg hmem, if_neg, List.cons_append]
        simp only [List.mem_cons, not_or]
        exact ⟨Ne.symm h, hmem⟩

theorem set_of_notMem {d : Dict κ α} {k : κ} (h : k ∉ keys d) (v : α) : set d k v = d ++ [(k, v)] := by
  induction d with
  | nil => rfl
  | cons entry d ih =>
    unfold keys at h ih
    rw [List.map_cons, List.mem_cons, not_or] at h
    unfold set
    rw [if_neg (Ne.symm h.1), ih h.2, List.cons_append]

theorem mem_keys_modify (d : Dict κ α) (k k' : κ) (default : α) (f : α → α) :
    k' ∈ keys (modify d k default f) ↔ k' ∈ keys d ∨ k' = k := by
  unfold modify
  rw [keys_set]
  by_cases h : k ∈ keys d
  · rw [if_pos h]
    exact ⟨.inl, fun h' => h'.elim (fun h' => h') fun h' => h' ▸ h⟩
  · rw [if_neg h, List.mem_append, List.mem_singleton]

theorem nodup_keys_modify {d : Dict κ α} (h : (keys d).Nodup) (k : κ) (default : α) (f : α → α) :
    (keys (modify d k default f)).Nodup := by
  unfold modify
  rw [keys_set]
  by_cases hmem : k ∈ keys d
  · rw [if_pos hmem]
    exact h
  · rw [if_neg hmem]
    refine List.nodup_append.mpr ⟨h, List.nodup_singleton k, ?_⟩
    rintro k' hk' k'' hk'' rfl
    rw [List.mem_singleton.mp hk''] at hk'
    exact hmem hk'

/-- An entry is what a lookup of its key finds. -/
theorem getD_of_mem {d : Dict κ α} (h : (keys d).Nodup) {entry : κ × α} (hmem : entry ∈ d)
    (default : α) : getD d entry.1 default = entry.2 := by
  induction d with
  | nil => cases hmem
  | cons first d ih =>
    unfold keys at h ih
    rw [List.map_cons, List.nodup_cons] at h
    unfold getD get?
    rcases List.mem_cons.mp hmem with rfl | hmem
    · rw [if_pos rfl, Option.getD_some]
    · rw [if_neg]
      · exact ih h.2 hmem
      · rintro hfirst
        exact h.1 (hfirst ▸ List.mem_map_of_mem hmem)

section Loops

variable (key : ρ → κ) (default : κ → α) (f : ρ → α → α) (rows : List ρ)

/-- A loop that modifies one entry for each row. -/
def group (d : Dict κ α) : Dict κ α :=
  rows.foldl (fun d row => modify d (key row) (default (key row)) (f row)) d

variable {rows}

theorem getD_group (d : Dict κ α) (k : κ) :
    getD (group key default f rows d) k (default k) =
      (rows.filter fun row => key row = k).foldl (fun v row => f row v) (getD d k (default k)) := by
  unfold group
  induction rows generalizing d with
  | nil => rfl
  | cons row rows ih =>
    rw [List.foldl_cons, ih, List.filter_cons]
    by_cases h : key row = k
    · rw [if_pos (decide_eq_true h), List.foldl_cons, h, getD_modify, if_pos rfl]
    · rw [if_neg (by simpa using h)]
      congr 1
      exact getD_set_of_ne h

theorem mem_keys_group (d : Dict κ α) (k : κ) :
    k ∈ keys (group key default f rows d) ↔ k ∈ keys d ∨ ∃ row ∈ rows, key row = k := by
  unfold group
  induction rows generalizing d with
  | nil => simp
  | cons row rows ih =>
    rw [List.foldl_cons, ih, mem_keys_modify, or_assoc]
    refine or_congr Iff.rfl ?_
    constructor
    · rintro (rfl | ⟨other, hmem, rfl⟩)
      · exact ⟨row, List.mem_cons_self, rfl⟩
      · exact ⟨other, List.mem_cons_of_mem _ hmem, rfl⟩
    · rintro ⟨other, hmem, rfl⟩
      rcases List.mem_cons.mp hmem with rfl | hmem
      · exact .inl rfl
      · exact .inr ⟨other, hmem, rfl⟩

theorem nodup_keys_group {d : Dict κ α} (h : (keys d).Nodup) :
    (keys (group key default f rows d)).Nodup := by
  unfold group
  induction rows generalizing d with
  | nil => exact h
  | cons row rows ih => exact ih (nodup_keys_modify h _ _ _)

end Loops

section NestedLoops

variable (default : α) (f : ρ → α → α) (keysOf : ρ → List κ)

/-- A loop that modifies several entries for each row. -/
def groupAll (rows : List ρ) (d : Dict κ α) : Dict κ α :=
  rows.foldl (fun d row => (keysOf row).foldl (fun d k => modify d k default (f row)) d) d

variable {rows : List ρ}

theorem getD_foldl_keys {l : List κ} (h : l.Nodup) (g : α → α) (d : Dict κ α) (k : κ) :
    getD (l.foldl (fun d k' => modify d k' default g) d) k default =
      if k ∈ l then g (getD d k default) else getD d k default := by
  induction l generalizing d with
  | nil => rfl
  | cons k' l ih =>
    rw [List.nodup_cons] at h
    rw [List.foldl_cons, ih h.2, getD_modify]
    by_cases hk : k' = k
    · subst hk
      rw [if_neg h.1, if_pos rfl, if_pos List.mem_cons_self]
    · rw [if_neg hk]
      refine if_congr ?_ rfl rfl
      rw [List.mem_cons]
      exact ⟨.inr, fun h => h.resolve_left (Ne.symm hk)⟩

theorem getD_groupAll (h : ∀ row ∈ rows, (keysOf row).Nodup) (d : Dict κ α) (k : κ) :
    getD (groupAll default f keysOf rows d) k default =
      (rows.filter fun row => k ∈ keysOf row).foldl (fun v row => f row v) (getD d k default) := by
  unfold groupAll
  induction rows generalizing d with
  | nil => rfl
  | cons row rows ih =>
    rw [List.foldl_cons, ih (fun other hother => h other (List.mem_cons_of_mem _ hother)),
      getD_foldl_keys default (h row List.mem_cons_self), List.filter_cons]
    by_cases hk : k ∈ keysOf row
    · rw [if_pos hk, if_pos (decide_eq_true hk), List.foldl_cons]
    · rw [if_neg hk, if_neg (by simpa using hk)]

end NestedLoops

end Dict

import Mathlib.Data.List.Basic
import Mathlib.Data.List.Perm.Basic
import Mathlib.Data.Nat.Notation
import Mathlib.Tactic.Set

/-!
# Ordered tables with expiry

A cache that keeps its entries in the order of their last use: the least recently used one is first.
-/

namespace Caches

section Tables

variable {Key α : Type} [DecidableEq Key]

/-- An entry of a table, with the clock at which it expires. -/
structure Entry (α : Type) where
  expiresAt : ℕ
  value : α
  deriving DecidableEq, Repr

abbrev LruTable (Key α : Type) := List (Key × Entry α)

namespace LruTable

def get (table : LruTable Key α) (key : Key) : Option (Entry α) :=
  (table.find? fun pair => pair.1 = key).map Prod.snd

def moveToEnd (table : LruTable Key α) (key : Key) : LruTable Key α :=
  table.filter (fun pair => pair.1 ≠ key) ++ table.filter (fun pair => pair.1 = key)

/-- Stores an entry as the most recently used one. -/
def store (table : LruTable Key α) (key : Key) (entry : Entry α) : LruTable Key α :=
  table.filter (fun pair => pair.1 ≠ key) ++ [(key, entry)]

def removeWhere (table : LruTable Key α) (predicate : Key → Bool) : LruTable Key α :=
  table.filter fun pair => !predicate pair.1

def removeExpired (table : LruTable Key α) (now : ℕ) : LruTable Key α :=
  table.filter fun pair => now < pair.2.expiresAt

/-- Keeps the most recently used entries. -/
def keepLast (table : LruTable Key α) (maxEntries : ℕ) : LruTable Key α :=
  table.drop (table.length - maxEntries)

theorem mem_of_get {table : LruTable Key α} {key : Key} {entry : Entry α}
    (h : table.get key = some entry) : (key, entry) ∈ table := by
  obtain ⟨pair, hfind, rfl⟩ := Option.map_eq_some_iff.mp h
  have hkey : pair.1 = key := by simpa using List.find?_some hfind
  rw [← hkey]
  exact List.mem_of_find?_eq_some hfind

@[simp] theorem mem_moveToEnd {table : LruTable Key α} {key : Key} {pair : Key × Entry α} :
    pair ∈ table.moveToEnd key ↔ pair ∈ table := by
  unfold moveToEnd
  by_cases h : pair.1 = key <;> simp [h]

theorem mem_store {table : LruTable Key α} {key : Key} {entry : Entry α} {pair : Key × Entry α} :
    pair ∈ table.store key entry ↔ (pair ∈ table ∧ pair.1 ≠ key) ∨ pair = (key, entry) := by
  simp [store]

omit [DecidableEq Key] in
theorem mem_removeWhere {table : LruTable Key α} {predicate : Key → Bool} {pair : Key × Entry α} :
    pair ∈ table.removeWhere predicate ↔ pair ∈ table ∧ predicate pair.1 = false := by
  simp [removeWhere]

omit [DecidableEq Key] in
theorem mem_of_removeExpired {table : LruTable Key α} {now : ℕ} {pair : Key × Entry α}
    (h : pair ∈ table.removeExpired now) : pair ∈ table := List.mem_of_mem_filter h

omit [DecidableEq Key] in
theorem mem_of_keepLast {table : LruTable Key α} {maxEntries : ℕ} {pair : Key × Entry α}
    (h : pair ∈ table.keepLast maxEntries) : pair ∈ table := List.mem_of_mem_drop h

/-- `prune_expired_lru_cache`. -/
def prune (table : LruTable Key α) (now maxEntries : ℕ) : LruTable Key α :=
  (table.removeExpired now).keepLast maxEntries

omit [DecidableEq Key] in
theorem mem_of_prune {table : LruTable Key α} {now maxEntries : ℕ} {pair : Key × Entry α}
    (h : pair ∈ table.prune now maxEntries) : pair ∈ table :=
  mem_of_removeExpired (mem_of_keepLast h)

/-! ## `_TtlLruCache` -/

/-- What an operation leaves: its reply, the table, and the values it evicted. -/
structure Outcome (Key α β : Type) where
  reply : β
  table : LruTable Key α
  evicted : List α

/-- `get`: an expired entry is evicted, another becomes the most recently used one. -/
def ttlGet (table : LruTable Key α) (now : ℕ) (key : Key) : Outcome Key α (Option α) :=
  match table.get key with
  | none => ⟨none, table, []⟩
  | some entry =>
    if entry.expiresAt ≤ now then
      ⟨none, table.removeWhere (fun k => k = key),
        (table.filter fun pair => pair.1 = key).map fun pair => pair.2.value⟩
    else ⟨some entry.value, table.moveToEnd key, []⟩

/-- `set`: the previous entry of the key is evicted, then the least recently used ones. -/
def ttlSet (table : LruTable Key α) (maxEntries : ℕ) (key : Key) (entry : Entry α) :
    Outcome Key α Unit :=
  let stored := table.store key entry
  ⟨(), stored.keepLast maxEntries,
    (table.filter fun pair => pair.1 = key).map (fun pair => pair.2.value) ++
      (stored.take (stored.length - maxEntries)).map fun pair => pair.2.value⟩

/-- `invalidate_where`. -/
def ttlInvalidate (table : LruTable Key α) (predicate : Key → Bool) : Outcome Key α Unit :=
  ⟨(), table.removeWhere predicate,
    (table.filter fun pair => predicate pair.1).map fun pair => pair.2.value⟩

def values (table : LruTable Key α) : List α := table.map fun pair => pair.2.value

theorem moveToEnd_perm (table : LruTable Key α) (key : Key) : (table.moveToEnd key).Perm table := by
  have h := List.filter_append_perm (fun pair : Key × Entry α => decide (pair.1 ≠ key)) table
  simpa [moveToEnd] using h

omit [DecidableEq Key] in
theorem removeWhere_perm (table : LruTable Key α) (predicate : Key → Bool) :
    (table.removeWhere predicate ++ table.filter fun pair => predicate pair.1).Perm table := by
  have h := List.filter_append_perm (fun pair : Key × Entry α => !predicate pair.1) table
  simpa [removeWhere] using h

/-- What `get` keeps and what it evicts are the table. -/
theorem ttlGet_perm (table : LruTable Key α) (now : ℕ) (key : Key) :
    ((table.ttlGet now key).table.values ++ (table.ttlGet now key).evicted).Perm table.values := by
  unfold ttlGet
  split
  · simp [values]
  · split
    · have h := (removeWhere_perm table fun k => decide (k = key)).map fun pair => pair.2.value
      rw [List.map_append] at h
      exact h
    · simpa [values] using (moveToEnd_perm table key).map fun pair => pair.2.value

/-- What `set` keeps and what it evicts are the table and the new value. -/
theorem ttlSet_perm (table : LruTable Key α) (maxEntries : ℕ) (key : Key) (entry : Entry α) :
    ((table.ttlSet maxEntries key entry).table.values ++
      (table.ttlSet maxEntries key entry).evicted).Perm (table.values ++ [entry.value]) := by
  have hparts : ∀ stored : LruTable Key α, ∀ n,
      (values (stored.drop n) ++ (stored.take n).map fun pair => pair.2.value).Perm
        stored.values := by
    intro stored n
    have hcomm : (stored.drop n ++ stored.take n).Perm (stored.take n ++ stored.drop n) :=
      List.perm_append_comm
    have h := hcomm.map fun pair => pair.2.value
    rw [List.take_append_drop, List.map_append] at h
    exact h
  have hremoved := (removeWhere_perm table fun k => decide (k = key)).map fun pair => pair.2.value
  rw [List.map_append] at hremoved
  set stored := table.store key entry with hstored
  have hvalues : stored.values =
      (table.removeWhere fun k => decide (k = key)).values ++ [entry.value] := by
    simp [hstored, store, values, removeWhere]
  show (values (stored.drop _) ++ (_ ++ _)).Perm _
  refine ((List.perm_append_comm_assoc _ _ _).trans ((hparts stored _).append_left _)).trans ?_
  rw [hvalues, ← List.append_assoc]
  exact ((List.perm_append_comm).trans hremoved).append_right _

omit [DecidableEq Key] in
theorem ttlInvalidate_perm (table : LruTable Key α) (predicate : Key → Bool) :
    ((table.ttlInvalidate predicate).table.values ++ (table.ttlInvalidate predicate).evicted).Perm
      table.values := by
  have h := (removeWhere_perm table predicate).map fun pair => pair.2.value
  rw [List.map_append] at h
  exact h

theorem ttlGet_reply {table : LruTable Key α} {now : ℕ} {key : Key} {value : α}
    (h : (table.ttlGet now key).reply = some value) :
    ∃ pair ∈ table, pair.1 = key ∧ pair.2.value = value := by
  unfold ttlGet at h
  split at h
  · cases h
  · rename_i entry hget
    split at h
    · cases h
    · cases h
      exact ⟨_, mem_of_get hget, rfl, rfl⟩

theorem mem_of_ttlGet {table : LruTable Key α} {now : ℕ} {key : Key} {pair : Key × Entry α}
    (h : pair ∈ (table.ttlGet now key).table) : pair ∈ table := by
  unfold ttlGet at h
  split at h
  · exact h
  · split at h
    · exact List.mem_of_mem_filter h
    · exact mem_moveToEnd.mp h

theorem mem_of_ttlSet {table : LruTable Key α} {maxEntries : ℕ} {key : Key} {entry : Entry α}
    {pair : Key × Entry α} (h : pair ∈ (table.ttlSet maxEntries key entry).table) :
    pair ∈ table ∨ pair = (key, entry) :=
  (mem_store.mp (mem_of_keepLast h)).imp_left And.left

end LruTable

end Tables

end Caches

import Mathlib.Data.List.Basic
import Mathlib.Data.Nat.Notation
import Mathlib.Logic.Function.Basic
import Mathlib.Tactic.Common

/-!
# In-flight markers and invalidations

Loads are registered under their key while they run, and an invalidation takes the markers of a group
of keys away. A load whose marker is gone is detached; its generation is over.
-/

namespace Caches

/-- An invalidation of the groups it covers, and its time. -/
structure Invalidation (Group : Type) where
  time : ℕ
  covers : Group → Bool

section Times

variable {Group : Type} {invs : List (Invalidation Group)} {g : Group} {a b c : ℕ}

/-- `b` is later than every invalidation of the group before `a`. -/
def Since (invs : List (Invalidation Group)) (g : Group) (a b : ℕ) : Prop :=
  ∀ i ∈ invs, i.covers g = true → i.time < a → i.time < b

/-- `b` is later than every invalidation of the group. -/
def Fresh (invs : List (Invalidation Group)) (g : Group) (b : ℕ) : Prop :=
  ∀ i ∈ invs, i.covers g = true → i.time < b

/-- No invalidation of the group lies between the two times. -/
def SameGeneration (invs : List (Invalidation Group)) (g : Group) (a b : ℕ) : Prop :=
  ∀ i ∈ invs, i.covers g = true → (i.time < a ↔ i.time < b)

theorem Since.of_le (h : a ≤ b) : Since invs g a b := fun _ _ _ hlt => by omega

theorem Since.trans (h : Since invs g a b) (h' : Since invs g b c) : Since invs g a c :=
  fun i hi hcovers hlt => h' i hi hcovers (h i hi hcovers hlt)

theorem Since.min (h : Since invs g a b) (h' : Since invs g a c) : Since invs g a (min b c) :=
  fun i hi hcovers hlt => Nat.lt_min.mpr ⟨h i hi hcovers hlt, h' i hi hcovers hlt⟩

theorem Fresh.since (h : Fresh invs g b) : Since invs g a b := fun i hi hcovers _ => h i hi hcovers

theorem Fresh.trans (h : Fresh invs g a) (h' : Since invs g a b) : Fresh invs g b :=
  fun i hi hcovers => h' i hi hcovers (h i hi hcovers)

theorem fresh_of_lt (h : ∀ i ∈ invs, i.time < b) : Fresh invs g b := fun i hi _ => h i hi

theorem Since.add {i : Invalidation Group} (h : Since invs g a b) (ha : a ≤ i.time) :
    Since (invs ++ [i]) g a b := by
  intro j hj hcovers hlt
  rcases List.mem_append.mp hj with hj | hj
  · exact h j hj hcovers hlt
  · rw [List.mem_singleton.mp hj] at hlt
    omega

theorem Fresh.add {i : Invalidation Group} (h : Fresh invs g b) (hcovers : i.covers g = false) :
    Fresh (invs ++ [i]) g b := by
  intro j hj hj'
  rcases List.mem_append.mp hj with hj | hj
  · exact h j hj hj'
  · rw [List.mem_singleton.mp hj, hcovers] at hj'
    cases hj'

theorem SameGeneration.of_add {i : Invalidation Group} (h : SameGeneration (invs ++ [i]) g a b) :
    SameGeneration invs g a b := fun j hj => h j (List.mem_append_left _ hj)

end Times

section Markers

variable {Id K Group : Type} [DecidableEq Id] [DecidableEq K]

/-- The markers of the loads that are running: `active` gives the key and the time under which a load
is registered. -/
structure Markers (invs : List (Invalidation Group)) (group : K → Group) (inflight : K → Option Id)
    (active : Id → Option (K × ℕ)) : Prop where
  /-- A marker is of a running load of the current generation. -/
  marked : ∀ k i, inflight k = some i →
    ∃ t, active i = some (k, t) ∧ Fresh invs (group k) t
  /-- A running load has its marker, or its generation is over. -/
  detached : ∀ i k t, active i = some (k, t) →
    inflight k = some i ∨ ∃ inv ∈ invs, inv.covers (group k) = true ∧ t ≤ inv.time
  /-- At most one load runs for a key and a generation. -/
  single : ∀ i j k t t', active i = some (k, t) → active j = some (k, t') →
    SameGeneration invs (group k) t t' → i = j

variable {invs : List (Invalidation Group)} {group : K → Group} {inflight : K → Option Id}
  {active : Id → Option (K × ℕ)}

theorem Markers.register (h : Markers invs group inflight active) {k : K} {i : Id} {now : ℕ}
    (hfree : inflight k = none) (hnew : active i = none) (hnow : ∀ inv ∈ invs, inv.time < now) :
    Markers invs group (Function.update inflight k (some i))
      (Function.update active i (some (k, now))) := by
  -- another load of the key is of an earlier generation
  have hearlier : ∀ j t, active j = some (k, t) → ¬ SameGeneration invs (group k) t now := by
    intro j t hj hsame
    rcases h.detached j k t hj with hmark | ⟨inv, hinv, hcovers, hle⟩
    · rw [hfree] at hmark
      cases hmark
    · have := (hsame inv hinv hcovers).mpr (hnow inv hinv)
      omega
  refine ⟨?_, ?_, ?_⟩
  · intro k' j hj
    by_cases hk : k' = k
    · subst hk
      rw [Function.update_self] at hj
      cases hj
      exact ⟨now, Function.update_self .., fresh_of_lt hnow⟩
    · rw [Function.update_of_ne hk] at hj
      obtain ⟨t, ht, hfresh⟩ := h.marked k' j hj
      refine ⟨t, ?_, hfresh⟩
      rw [Function.update_of_ne]
      · exact ht
      · rintro rfl
        rw [hnew] at ht
        cases ht
  · intro j k' t hj
    by_cases hji : j = i
    · subst hji
      rw [Function.update_self] at hj
      cases hj
      exact .inl (Function.update_self ..)
    · rw [Function.update_of_ne hji] at hj
      refine (h.detached j k' t hj).imp_left ?_
      intro hmark
      rw [Function.update_of_ne]
      · exact hmark
      · rintro rfl
        rw [hfree] at hmark
        cases hmark
  · intro j j' k' t t' hj hj' hsame
    by_cases hji : j = i <;> by_cases hji' : j' = i
    · rw [hji, hji']
    · subst hji
      rw [Function.update_self] at hj
      cases hj
      rw [Function.update_of_ne hji'] at hj'
      exact absurd (fun inv hinv hcovers => (hsame inv hinv hcovers).symm) (hearlier j' t' hj')
    · subst hji'
      rw [Function.update_self] at hj'
      cases hj'
      rw [Function.update_of_ne hji] at hj
      exact absurd hsame (hearlier j t hj)
    · rw [Function.update_of_ne hji] at hj
      rw [Function.update_of_ne hji'] at hj'
      exact h.single j j' k' t t' hj hj' hsame

theorem Markers.finish (h : Markers invs group inflight active) {k : K} {i : Id} {t : ℕ}
    (hactive : active i = some (k, t)) :
    Markers invs group (if inflight k = some i then Function.update inflight k none else inflight)
      (Function.update active i none) := by
  have hkept : ∀ k' j, (if inflight k = some i then Function.update inflight k none else inflight) k'
      = some j → inflight k' = some j ∧ j ≠ i := by
    intro k' j hj
    split at hj
    · rename_i hmark
      by_cases hk : k' = k
      · rw [hk, Function.update_self] at hj
        cases hj
      · rw [Function.update_of_ne hk] at hj
        refine ⟨hj, ?_⟩
        rintro rfl
        obtain ⟨t', ht', _⟩ := h.marked k' j hj
        rw [hactive] at ht'
        cases ht'
        exact hk rfl
    · rename_i hmark
      refine ⟨hj, ?_⟩
      rintro rfl
      obtain ⟨t', ht', _⟩ := h.marked k' j hj
      rw [hactive] at ht'
      cases ht'
      exact hmark hj
  refine ⟨?_, ?_, ?_⟩
  · intro k' j hj
    obtain ⟨hmark, hne⟩ := hkept k' j hj
    rw [Function.update_of_ne hne]
    exact h.marked k' j hmark
  · intro j k' t' hj
    by_cases hji : j = i
    · rw [hji, Function.update_self] at hj
      cases hj
    · rw [Function.update_of_ne hji] at hj
      refine (h.detached j k' t' hj).imp_left ?_
      intro hmark
      split
      · rename_i hmine
        rw [Function.update_of_ne]
        · exact hmark
        · rintro rfl
          rw [hmine] at hmark
          cases hmark
          exact hji rfl
      · exact hmark
  · intro j j' k' t' t'' hj hj' hsame
    by_cases hji : j = i
    · rw [hji, Function.update_self] at hj
      cases hj
    · by_cases hji' : j' = i
      · rw [hji', Function.update_self] at hj'
        cases hj'
      · rw [Function.update_of_ne hji] at hj
        rw [Function.update_of_ne hji'] at hj'
        exact h.single j j' k' t' t'' hj hj' hsame

omit [DecidableEq Id] [DecidableEq K] in
theorem Markers.invalidate (h : Markers invs group inflight active) (inv : Invalidation Group)
    (hpast : ∀ i k t, active i = some (k, t) → t ≤ inv.time) :
    Markers (invs ++ [inv]) group
      (fun k => if inv.covers (group k) then none else inflight k) active := by
  refine ⟨?_, ?_, ?_⟩
  · intro k i hi
    split at hi
    · cases hi
    · rename_i hcovers
      obtain ⟨t, ht, hfresh⟩ := h.marked k i hi
      exact ⟨t, ht, hfresh.add (by simpa using hcovers)⟩
  · intro i k t hi
    by_cases hcovers : inv.covers (group k) = true
    · exact .inr ⟨inv, by simp, hcovers, hpast i k t hi⟩
    · rw [if_neg hcovers]
      refine (h.detached i k t hi).imp_right ?_
      rintro ⟨inv', hinv', hrest⟩
      exact ⟨inv', List.mem_append_left _ hinv', hrest⟩
  · intro i j k t t' hi hj hsame
    exact h.single i j k t t' hi hj hsame.of_add

end Markers

end Caches

import BucketReef.Lists.Sorted
import Mathlib.Data.Finset.Max
import Mathlib.Data.Finset.Card

/-!
# Batches from the front of an ordered set

Each run treats the first `n` elements of what is left, and may keep them for the next run. Elements
that are kept hold their place at the front, so the runs have treated everything exactly when the last
of them finds at most `n` elements.
-/

namespace Lists

variable {κ : Type*} [LinearOrder κ]

/-- The elements with fewer than `n` smaller ones. -/
def frontOf (n : ℕ) (s : Finset κ) : Finset κ :=
  s.filter fun a => (s.filter fun b => b < a).card < n

theorem mem_frontOf {n : ℕ} {s : Finset κ} {a : κ} :
    a ∈ frontOf n s ↔ a ∈ s ∧ (s.filter fun b => b < a).card < n :=
  Finset.mem_filter

/-- An element of the front stays there when others leave. -/
theorem mem_frontOf_of_subset {n : ℕ} {s t : Finset κ} (hsub : t ⊆ s) {a : κ} (ha : a ∈ t)
    (h : a ∈ frontOf n s) : a ∈ frontOf n t :=
  mem_frontOf.mpr ⟨ha,
    (Finset.card_le_card (Finset.filter_subset_filter _ hsub)).trans_lt (mem_frontOf.mp h).2⟩

theorem subset_frontOf {n : ℕ} {s : Finset κ} (h : s.card ≤ n) : s ⊆ frontOf n s := by
  intro a ha
  refine mem_frontOf.mpr ⟨ha, lt_of_lt_of_le (Finset.card_lt_card ?_) h⟩
  exact Finset.filter_ssubset.mpr ⟨a, ha, lt_irrefl a⟩

/-- In a larger set the last element is not in the front. -/
theorem exists_notMem_frontOf {n : ℕ} {s : Finset κ} (h : n < s.card) :
    ∃ a ∈ s, a ∉ frontOf n s := by
  have hne : s.Nonempty := Finset.card_pos.mp (Nat.zero_lt_of_lt h)
  refine ⟨s.max' hne, s.max'_mem hne, fun hfront => ?_⟩
  have hsmaller : (s.filter fun b => b < s.max' hne) = s.erase (s.max' hne) := by
    ext b
    rw [Finset.mem_filter, Finset.mem_erase]
    constructor
    · rintro ⟨hb, hlt⟩
      exact ⟨hlt.ne, hb⟩
    · rintro ⟨hb, hmem⟩
      exact ⟨hmem, lt_of_le_of_ne (s.le_max' b hmem) hb⟩
  have hcard := (mem_frontOf.mp hfront).2
  rw [hsmaller, Finset.card_erase_of_mem (s.max'_mem hne)] at hcard
  omega

/-- What is left before each run: nothing joins, and what is not treated stays. -/
structure Treats (n : ℕ) (left : ℕ → Finset κ) : Prop where
  shrinks : ∀ i, left (i + 1) ⊆ left i
  keeps : ∀ i, left i \ frontOf n (left i) ⊆ left (i + 1)

namespace Treats

variable {n : ℕ} {left : ℕ → Finset κ}

theorem subset (h : Treats n left) {i j : ℕ} (hij : i ≤ j) : left j ⊆ left i := by
  induction hij with
  | refl => exact Finset.Subset.refl _
  | step _ ih => exact (h.shrinks _).trans ih

/-- What has not been treated before a run is left at its start. -/
theorem mem_of_untreated (h : Treats n left) {a : κ} (ha : a ∈ left 0) :
    ∀ k, (∀ i < k, a ∉ frontOf n (left i)) → a ∈ left k := by
  intro k
  induction k with
  | zero => exact fun _ => ha
  | succ k ih =>
    intro huntreated
    have hmem := ih fun i hi => huntreated i (Nat.lt_succ_of_lt hi)
    exact h.keeps k (Finset.mem_sdiff.mpr ⟨hmem, huntreated k (Nat.lt_succ_self k)⟩)

/-- The first `k + 1` runs treat everything exactly when the last of them finds at most `n`. -/
theorem all_treated_iff (h : Treats n left) (k : ℕ) :
    (∀ a ∈ left 0, ∃ i ≤ k, a ∈ frontOf n (left i)) ↔ (left k).card ≤ n := by
  constructor
  · intro hall
    by_contra hcard
    obtain ⟨a, ha, hnot⟩ := exists_notMem_frontOf (Nat.lt_of_not_le hcard)
    obtain ⟨i, hi, hfront⟩ := hall a (h.subset (Nat.zero_le k) ha)
    exact hnot (mem_frontOf_of_subset (h.subset hi) ha hfront)
  · intro hcard a ha
    by_contra huntreated
    have hnone : ∀ i ≤ k, a ∉ frontOf n (left i) := fun i hi hfront => huntreated ⟨i, hi, hfront⟩
    have hmem := h.mem_of_untreated ha k fun i hi => hnone i (Nat.le_of_lt hi)
    exact hnone k (Nat.le_refl k) (subset_frontOf hcard hmem)

end Treats

/-! ## The first elements of a sorted list -/

theorem mem_take_iff_countP {α : Type*} {key : α → κ} {l : List α} {a : α}
    (hsorted : l.Pairwise fun a b => key a < key b) {n : ℕ} :
    a ∈ l.take n ↔ a ∈ l ∧ l.countP (fun b => key b < key a) < n := by
  induction l generalizing n with
  | nil => simp
  | cons b l ih =>
    obtain ⟨hb, hsorted⟩ := List.pairwise_cons.mp hsorted
    rcases n with - | n
    · simp
    · rw [List.take_succ_cons, List.mem_cons, List.mem_cons, ih hsorted, List.countP_cons]
      constructor
      · rintro (rfl | ⟨hin, hcount⟩)
        · have hnone : l.countP (fun c => key c < key a) = 0 := by
            rw [List.countP_eq_zero]
            intro c hc
            simpa using (hb c hc).le
          simp [hnone]
        · refine ⟨.inr hin, ?_⟩
          split_ifs <;> omega
      · rintro ⟨rfl | hin, hcount⟩
        · exact .inl rfl
        · have hlt := hb a hin
          rw [if_pos (by simpa using hlt)] at hcount
          exact .inr ⟨hin, by omega⟩

/-- The first `n` elements of a list sorted by different keys are those in the front of the keys. -/
theorem mem_take_sortedBy {α : Type*} {key : α → κ} {l : List α} (hkeys : (l.map key).Nodup)
    {n : ℕ} {a : α} :
    a ∈ (sortedBy key l).take n ↔ a ∈ l ∧ key a ∈ frontOf n (l.map key).toFinset := by
  have hperm := sortedBy_perm key l
  have hnodup : ((sortedBy key l).map key).Nodup := (hperm.map key).nodup_iff.mpr hkeys
  have hsorted : (sortedBy key l).Pairwise fun a b => key a < key b :=
    (sortedBy_pairwise key l).imp₂ (fun _ _ hle hne => lt_of_le_of_ne hle hne)
      (List.pairwise_map.mp hnodup)
  rw [mem_take_iff_countP hsorted, mem_sortedBy, mem_frontOf, hperm.countP_eq]
  refine and_congr_right fun ha => ?_
  have hcard : ((l.map key).toFinset.filter fun b => b < key a).card =
      l.countP fun b => key b < key a := by
    have hfilter : ((l.map key).toFinset.filter fun b => b < key a) =
        ((l.map key).filter fun b => b < key a).toFinset := by
      ext b
      simp
    rw [hfilter, List.toFinset_card_of_nodup (hkeys.filter _), ← List.countP_eq_length_filter,
      List.countP_map]
    rfl
  rw [hcard]
  refine ⟨fun hlt => ⟨?_, hlt⟩, fun h => h.2⟩
  rw [List.mem_toFinset]
  exact List.mem_map_of_mem ha

end Lists

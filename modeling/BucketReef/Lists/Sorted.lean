import Mathlib.Data.List.Sort
import Mathlib.Data.Prod.Lex

/-!
# Stable sorting by a key

A stable sort by a key of any linear order, and the facts every user of the sorted list needs: its
last element carries the largest key, a strict maximum is that last element, and the index of an
element is at least the number of the smaller ones.
-/

namespace Lists

variable {α κ : Type*} [LinearOrder κ]

/-- The stable sort by `key`, smallest key first. -/
def sortedBy (key : α → κ) (l : List α) : List α :=
  l.insertionSort fun a b => key a ≤ key b

@[simp] theorem mem_sortedBy {key : α → κ} {l : List α} {a : α} : a ∈ sortedBy key l ↔ a ∈ l :=
  List.mem_insertionSort _

theorem sortedBy_perm (key : α → κ) (l : List α) : (sortedBy key l).Perm l :=
  List.perm_insertionSort _ l

@[simp] theorem length_sortedBy (key : α → κ) (l : List α) : (sortedBy key l).length = l.length :=
  List.length_insertionSort _ l

@[simp] theorem sortedBy_nil (key : α → κ) : sortedBy key ([] : List α) = [] := rfl

theorem sortedBy_pairwise (key : α → κ) (l : List α) :
    (sortedBy key l).Pairwise fun a b => key a ≤ key b :=
  haveI : Std.Total fun a b : α => key a ≤ key b := ⟨fun a b => le_total (key a) (key b)⟩
  haveI : IsTrans α fun a b : α => key a ≤ key b := ⟨fun _ _ _ => le_trans⟩
  List.pairwise_insertionSort _ l

/-- No element sorts after the last one. -/
theorem le_of_getLast?_sortedBy {key : α → κ} {l : List α} {a b : α}
    (ha : (sortedBy key l).getLast? = some a) (hb : b ∈ l) : key b ≤ key a := by
  obtain ⟨front, hfront⟩ := List.getLast?_eq_some_iff.mp ha
  have hsorted := sortedBy_pairwise key l
  have hmem : b ∈ sortedBy key l := mem_sortedBy.mpr hb
  rw [hfront] at hsorted hmem
  rcases List.mem_append.mp hmem with hin | hin
  · exact (List.pairwise_append.mp hsorted).2.2 b hin a (by simp)
  · rw [List.mem_singleton.mp hin]

/-- An element that sorts at or after every other one, and shares its key with none, is last. -/
theorem getLast?_sortedBy_eq {key : α → κ} {l : List α} {a : α} (ha : a ∈ l)
    (hmax : ∀ b ∈ l, key b ≤ key a) (hinj : ∀ b ∈ l, key b = key a → b = a) :
    (sortedBy key l).getLast? = some a := by
  cases hlast : (sortedBy key l).getLast? with
  | none =>
    rw [List.getLast?_eq_none_iff] at hlast
    have hmem : a ∈ sortedBy key l := mem_sortedBy.mpr ha
    simp [hlast] at hmem
  | some b =>
    have hb : b ∈ l := mem_sortedBy.mp (List.mem_of_getLast? hlast)
    have hle : key a ≤ key b := le_of_getLast?_sortedBy hlast ha
    rw [hinj b hb (le_antisymm (hmax b hb) hle)]

/-- A sorted list is determined by its elements of each key, in their order. -/
theorem eq_of_pairwise_of_filter_eq {key : α → κ} {l l' : List α}
    (h : l.Pairwise fun a b => key a ≤ key b) (h' : l'.Pairwise fun a b => key a ≤ key b)
    (hfilter : ∀ k, (l.filter fun a => key a = k) = l'.filter fun a => key a = k) : l = l' := by
  induction l generalizing l' with
  | nil =>
    cases l' with
    | nil => rfl
    | cons b l' => simpa using hfilter (key b)
  | cons a l ih =>
    have hmem : a ∈ l'.filter fun b => key b = key a := by
      rw [← hfilter]
      simp
    cases l' with
    | nil => simp at hmem
    | cons b l' =>
      obtain ⟨hle, hsorted⟩ := List.pairwise_cons.mp h
      obtain ⟨hle', hsorted'⟩ := List.pairwise_cons.mp h'
      have hmem' : b ∈ (a :: l).filter fun c => key c = key b := by
        rw [hfilter]
        simp
      have hba : key b ≤ key a := by
        rcases List.mem_cons.mp (List.mem_of_mem_filter hmem) with rfl | hin
        · exact le_rfl
        · exact hle' a hin
      have hab : key a ≤ key b := by
        rcases List.mem_cons.mp (List.mem_of_mem_filter hmem') with rfl | hin
        · exact le_rfl
        · exact hle b hin
      have hkey : key a = key b := le_antisymm hab hba
      have hhead := hfilter (key a)
      rw [List.filter_cons_of_pos (by simp), List.filter_cons_of_pos (by simp [hkey])] at hhead
      obtain ⟨rfl, -⟩ := List.cons.inj hhead
      refine congrArg (a :: ·) (ih hsorted hsorted' ?_)
      intro k
      have htail := hfilter k
      by_cases hk : key a = k
      · rw [List.filter_cons_of_pos (by simp [hk]), List.filter_cons_of_pos (by simp [hk])] at htail
        exact (List.cons.inj htail).2
      · rw [List.filter_cons_of_neg (by simp [hk]), List.filter_cons_of_neg (by simp [hk])] at htail
        exact htail

/-- In a sorted list every smaller element stands before the first one with the tag of `a`. -/
theorem countP_lt_le_idxOf {β : Type*} [BEq β] [LawfulBEq β] {key : α → κ} {tag : α → β} {a : α}
    {l : List α} (hsorted : l.Pairwise fun a b => key a ≤ key b)
    (htag : ∀ b ∈ l, tag b = tag a → key a ≤ key b) :
    l.countP (fun b => key b < key a) ≤ (l.map tag).idxOf (tag a) := by
  induction l with
  | nil => simp
  | cons b l ih =>
    obtain ⟨hle, hsorted⟩ := List.pairwise_cons.mp hsorted
    rw [List.map_cons, List.idxOf_cons]
    by_cases hb : tag b = tag a
    · -- nothing after `b` is smaller than `a`
      have hkey : key a ≤ key b := htag b (by simp) hb
      have hnone : (b :: l).countP (fun c => key c < key a) = 0 := by
        rw [List.countP_eq_zero]
        intro c hc
        rcases List.mem_cons.mp hc with rfl | hc
        · simpa using hkey
        · simpa using hkey.trans (hle c hc)
      omega
    · have htail := ih hsorted fun c hc => htag c (List.mem_cons_of_mem _ hc)
      have hbeq : (tag b == tag a) = false := by simpa using hb
      rw [hbeq, cond_false]
      have := List.countP_cons (p := fun c => decide (key c < key a)) (a := b) (l := l)
      split at this <;> omega

end Lists

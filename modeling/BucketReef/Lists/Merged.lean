import BucketReef.Lists.Sorted
import Mathlib.Data.List.Perm.Basic

/-!
# Parts merged by a stable sort

Lists that arrive in any order are put one behind the other and sorted by a key. The result depends on
the order of arrival exactly when two parts share a key. Pages taken from several such results fit
together exactly when the results are one and the same.
-/

namespace Lists

variable {α κ : Type*} [LinearOrder κ]

theorem filter_sortedBy (key : α → κ) (l : List α) (k : κ) :
    ((sortedBy key l).filter fun a => key a = k) = l.filter fun a => key a = k := by
  have htied : (l.filter fun a => key a = k).Pairwise fun a b => key a ≤ key b := by
    refine List.pairwise_of_forall_mem_list fun a ha b hb => ?_
    have hka : key a = k := by simpa using (List.mem_filter.mp ha).2
    have hkb : key b = k := by simpa using (List.mem_filter.mp hb).2
    rw [hka, hkb]
  have hsub : (l.filter fun a => key a = k).Sublist (sortedBy key l) :=
    List.sublist_insertionSort htied List.filter_sublist
  have hfilter := hsub.filter fun a => key a = k
  rw [List.filter_filter] at hfilter
  simp only [Bool.and_self] at hfilter
  refine (hfilter.eq_of_length ?_).symm
  exact (((sortedBy_perm key l).filter _).length_eq).symm

theorem pair_sublist_sortedBy {key : α → κ} {l : List α} {a b : α} (hab : key a = key b)
    (h : [a, b].Sublist l) : [a, b].Sublist (sortedBy key l) :=
  List.pair_sublist_insertionSort hab.le h

theorem not_sublist_swap {l : List α} (hnodup : l.Nodup) {a b : α} (h : [a, b].Sublist l) :
    ¬[b, a].Sublist l := by
  induction l with
  | nil => exact absurd h.length_le (by simp)
  | cons c l ih =>
    obtain ⟨hc, hnodup⟩ := List.nodup_cons.mp hnodup
    intro h'
    rcases List.sublist_cons_iff.mp h with hin | ⟨r, hr, hin⟩
    · rcases List.sublist_cons_iff.mp h' with hin' | ⟨r', hr', -⟩
      · exact ih hnodup hin hin'
      · obtain ⟨rfl, -⟩ := List.cons.inj hr'
        exact hc (hin.subset (by simp))
    · obtain ⟨rfl, rfl⟩ := List.cons.inj hr
      rcases List.sublist_cons_iff.mp h' with hin' | ⟨r', hr', hin'⟩
      · exact hc (hin'.subset (by simp))
      · obtain ⟨rfl, rfl⟩ := List.cons.inj hr'
        exact hc (hin.subset (by simp))

/-! ## Merging -/

variable (key : α → κ)

/-- The parts in the order of their arrival, sorted. -/
def mergedBy (parts : List (List α)) : List α := sortedBy key parts.flatten

/-- No key occurs in two parts. -/
def KeysApart (parts : List (List α)) : Prop :=
  parts.Pairwise fun p q => ∀ a ∈ p, ∀ b ∈ q, key a ≠ key b

omit [LinearOrder κ] in
theorem KeysApart.perm {parts parts' : List (List α)} (h : KeysApart key parts)
    (hperm : parts.Perm parts') : KeysApart key parts' :=
  List.Pairwise.perm h hperm fun hpq b hb a ha heq => hpq a ha b hb heq.symm

variable {key}

theorem filter_flatten_perm {parts parts' : List (List α)} (hperm : parts.Perm parts')
    (h : KeysApart key parts) (k : κ) :
    (parts.flatten.filter fun a => key a = k) = parts'.flatten.filter fun a => key a = k := by
  induction hperm with
  | nil => rfl
  | cons p hperm ih =>
    rw [List.flatten_cons, List.flatten_cons, List.filter_append, List.filter_append,
      ih (List.pairwise_cons.mp h).2]
  | swap p q parts =>
    -- one of the two parts has no element with this key
    have hpq := (List.pairwise_cons.mp h).1 p List.mem_cons_self
    simp only [List.flatten_cons, List.filter_append]
    by_cases hq : (q.filter fun a => key a = k) = []
    · simp [hq]
    · obtain ⟨a, ha⟩ := List.exists_mem_of_ne_nil _ hq
      have hka : key a = k := by simpa using (List.mem_filter.mp ha).2
      have hp : (p.filter fun b => key b = k) = [] := by
        rw [List.filter_eq_nil_iff]
        intro b hb hkb
        have hkb' : key b = k := by simpa using hkb
        exact hpq a (List.mem_of_mem_filter ha) b hb (hka.trans hkb'.symm)
      simp [hp]
  | trans hperm _ ih ih' => exact (ih h).trans (ih' (h.perm key hperm))

/-- With the keys apart the order of arrival does not matter. -/
theorem KeysApart.mergedBy_eq {parts parts' : List (List α)} (h : KeysApart key parts)
    (hperm : parts.Perm parts') : mergedBy key parts = mergedBy key parts' := by
  refine eq_of_pairwise_of_filter_eq (sortedBy_pairwise key _) (sortedBy_pairwise key _) fun k => ?_
  unfold mergedBy
  rw [filter_sortedBy, filter_sortedBy]
  exact filter_flatten_perm hperm h k

theorem mergedBy_perm (key : α → κ) (parts : List (List α)) :
    (mergedBy key parts).Perm parts.flatten :=
  sortedBy_perm key _

/-- When the order of arrival never matters, the keys are apart. -/
theorem keysApart_of_mergedBy_eq {parts : List (List α)} (hnodup : parts.flatten.Nodup)
    (h : ∀ parts', parts'.Perm parts → mergedBy key parts' = mergedBy key parts) :
    KeysApart key parts := by
  unfold KeysApart
  rw [List.pairwise_iff_forall_sublist]
  intro p q hsub a ha b hb hkey
  obtain ⟨rest, hrest⟩ := hsub.exists_perm_append
  have hboth : mergedBy key (p :: q :: rest) = mergedBy key (q :: p :: rest) :=
    (h _ hrest.symm).trans (h _ ((List.Perm.swap p q rest).trans hrest.symm)).symm
  have hpair : ∀ {p q : List α} {a b : α}, a ∈ p → b ∈ q →
      [a, b].Sublist (p :: q :: rest).flatten := by
    intro p q a b ha hb
    rw [List.flatten_cons, List.flatten_cons]
    exact (List.singleton_sublist.mpr ha).append
      ((List.singleton_sublist.mpr hb).trans (List.sublist_append_left q _))
  have hab := pair_sublist_sortedBy hkey (hpair ha hb)
  have hba := pair_sublist_sortedBy hkey.symm (hpair hb ha)
  have hmerged : (mergedBy key (p :: q :: rest)).Nodup :=
    (mergedBy_perm key _).nodup_iff.mpr ((hrest.flatten).nodup_iff.mp hnodup)
  exact not_sublist_swap hmerged hab (hboth ▸ hba)

/-! ## Pages -/

/-- The page `n` of a list, counted from zero. -/
def page (size : ℕ) (l : List α) (n : ℕ) : List α := (l.drop (n * size)).take size

/-- The pages of `count` runs, the `n`-th page taken from the `n`-th run. -/
def pages (size count : ℕ) (runs : ℕ → List α) : List α :=
  (List.range count).flatMap fun n => page size (runs n) n

theorem pages_take (size count : ℕ) (l : List α) :
    pages size count (fun _ => l) = l.take (count * size) := by
  induction count with
  | zero => simp [pages]
  | succ count ih =>
    unfold pages at ih ⊢
    rw [List.range_succ, List.flatMap_append, ih, List.flatMap_singleton, page, Nat.succ_mul,
      List.take_add]

/-- The number of pages of a listing of `total` rows. -/
def pageCount (total size : ℕ) : ℕ := (total + size - 1) / size

theorem le_pageCount_mul {total size : ℕ} (h : 0 < size) : total ≤ pageCount total size * size := by
  have hdiv := Nat.div_add_mod (total + size - 1) size
  have hmod := Nat.mod_lt (total + size - 1) h
  unfold pageCount
  rw [Nat.mul_comm] at hdiv
  omega

theorem pageCount_one (total : ℕ) : pageCount total 1 = total := by
  unfold pageCount
  omega

theorem pages_const {size : ℕ} (h : 0 < size) (l : List α) :
    pages size (pageCount l.length size) (fun _ => l) = l := by
  rw [pages_take, List.take_of_length_le (le_pageCount_mul h)]

theorem mem_page_one {l : List α} {n : ℕ} {a : α} : a ∈ page 1 l n ↔ l[n]? = some a := by
  unfold page
  rw [Nat.mul_one, List.take_one, List.head?_drop]
  simp

/-- When pages of one row never repeat a row, whichever of two runs each is taken from, the two runs
are the same. -/
theorem eq_of_pages_nodup {l l' : List α} (hperm : l'.Perm l)
    (h : ∀ runs : ℕ → List α, (∀ n, runs n = l ∨ runs n = l') →
      (pages 1 (pageCount l.length 1) runs).Nodup) : l' = l := by
  rw [pageCount_one] at h
  refine List.ext_getElem? fun p => ?_
  by_cases hp : p < l.length
  · have hmem : l[p] ∈ l' := hperm.mem_iff.mpr (List.getElem_mem hp)
    obtain ⟨q, hq⟩ := List.getElem?_of_mem hmem
    have hqlength : q < l.length := by
      rw [← hperm.length_eq]
      exact (List.getElem?_eq_some_iff.mp hq).1
    by_cases hpq : q = p
    · rw [hpq] at hq
      rw [hq, List.getElem?_eq_getElem hp]
    · -- the row at `p` is shown on page `p` and again on page `q`
      have hnodup := h (fun n => if n = p then l else l') fun n => by
        by_cases hn : n = p
        · exact .inl (if_pos hn)
        · exact .inr (if_neg hn)
      have hshown : l[p] ∈ page 1 (if p = p then l else l') p := by
        rw [if_pos rfl, mem_page_one, List.getElem?_eq_getElem hp]
      have hagain : l[p] ∈ page 1 (if q = p then l else l') q := by
        rw [if_neg hpq, mem_page_one, hq]
      have hapart := List.pairwise_iff_getElem.mp (List.nodup_flatMap.mp hnodup).2
      simp only [List.length_range, List.getElem_range, Function.onFun] at hapart
      rcases Nat.lt_or_gt_of_ne hpq with hlt | hlt
      · exact (hapart q p hqlength hp hlt hagain hshown).elim
      · exact (hapart p q hp hqlength hlt hshown hagain).elim
  · rw [List.getElem?_eq_none (Nat.le_of_not_lt hp),
      List.getElem?_eq_none (by rw [hperm.length_eq]; exact Nat.le_of_not_lt hp)]

/-! ## Pages of merged runs -/

theorem exists_perm_map {ι β : Type*} {f : ι → β} {l : List ι} {l' : List β}
    (h : l'.Perm (l.map f)) : ∃ r : List ι, r.Perm l ∧ r.map f = l' := by
  have hmap : List.Forall₂ (fun b i => b = f i) (l.map f) l :=
    List.forall₂_map_left_iff.mpr (List.forall₂_same.mpr fun _ _ => rfl)
  obtain ⟨r, hr, hperm⟩ := List.perm_comp_forall₂ h hmap
  refine ⟨r, hperm, ?_⟩
  clear h hmap hperm
  induction hr with
  | nil => rfl
  | cons hhead _ ih => rw [List.map_cons, ← hhead, ih]

/-- With the keys apart, pages of different runs are the pages of one list. -/
theorem KeysApart.pages_mergedBy {parts : List (List α)} (h : KeysApart key parts) {size : ℕ}
    (hsize : 0 < size) {runs : ℕ → List (List α)} (hruns : ∀ n, (runs n).Perm parts) :
    (pages size (pageCount parts.flatten.length size) fun n => mergedBy key (runs n)) =
      mergedBy key parts := by
  have hsame : (fun n => mergedBy key (runs n)) = fun _ => mergedBy key parts := by
    funext n
    exact (h.mergedBy_eq (hruns n).symm).symm
  rw [hsame, ← (mergedBy_perm key parts).length_eq]
  exact pages_const hsize _

/-- Pages of different runs always fit together exactly when the keys are apart. -/
theorem pages_perm_iff_keysApart {ι : Type*} {f : ι → List α} {l : List ι}
    (hnodup : (l.map f).flatten.Nodup) :
    (∀ size, 0 < size → ∀ runs : ℕ → List ι, (∀ n, (runs n).Perm l) →
      (pages size (pageCount (l.map f).flatten.length size) fun n =>
        mergedBy key ((runs n).map f)).Perm (l.map f).flatten) ↔
    KeysApart key (l.map f) := by
  classical
  constructor
  · intro h
    refine keysApart_of_mergedBy_eq hnodup fun parts' hperm => ?_
    obtain ⟨r, hr, rfl⟩ := exists_perm_map hperm
    have hmerged : (mergedBy key (r.map f)).Perm (mergedBy key (l.map f)) :=
      (mergedBy_perm key _).trans (hperm.flatten.trans (mergedBy_perm key _).symm)
    refine eq_of_pages_nodup hmerged fun runs hruns => ?_
    have hpages := h 1 Nat.one_pos (fun n => if runs n = mergedBy key (l.map f) then l else r) ?_
    · have hsame : runs = fun n =>
          mergedBy key ((if runs n = mergedBy key (l.map f) then l else r).map f) := by
        funext n
        by_cases hn : runs n = mergedBy key (l.map f)
        · rw [if_pos hn, hn]
        · rw [if_neg hn]
          exact (hruns n).resolve_left hn
      rw [(mergedBy_perm key (l.map f)).length_eq]
      rw [← hsame] at hpages
      exact hpages.nodup_iff.mpr hnodup
    · intro n
      show (if runs n = mergedBy key (l.map f) then l else r).Perm l
      split_ifs
      · exact List.Perm.refl l
      · exact hr
  · intro h size hsize runs hruns
    rw [h.pages_mergedBy hsize fun n => (hruns n).map f]
    exact mergedBy_perm key _

end Lists

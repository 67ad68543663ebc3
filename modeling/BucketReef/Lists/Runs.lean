import Mathlib.Data.List.SplitBy

/-!
# Runs of a list that grows at its end

The maximal runs of neighbours with one key. At an element put at the end the last run grows or a new
one starts, and a run of a prefix is a prefix of a run.
-/

namespace Lists

variable {α κ : Type*} [DecidableEq κ]

/-- The maximal runs of elements with one key. -/
def runsBy (key : α → κ) (l : List α) : List (List α) :=
  l.splitBy fun a b => decide (key a = key b)

variable {key : α → κ}

omit [DecidableEq κ] in
theorem isChain_eq_iff {run : List α} :
    (run.IsChain fun a b => key a = key b) ↔ ∀ a ∈ run, ∀ b ∈ run, key a = key b := by
  constructor
  · intro h
    induction run with
    | nil => simp
    | cons c run ih =>
      obtain ⟨hc, hrun⟩ := List.isChain_cons.mp h
      have hhead : ∀ a ∈ run, key c = key a := by
        intro a ha
        have hne := List.ne_nil_of_mem ha
        exact (hc _ (List.head_mem_head? hne)).trans (ih hrun _ (List.head_mem hne) a ha)
      intro a ha b hb
      rcases List.mem_cons.mp ha with hac | hin
      · rcases List.mem_cons.mp hb with hbc | hin'
        · rw [hac, hbc]
        · rw [hac]
          exact hhead b hin'
      · rcases List.mem_cons.mp hb with hbc | hin'
        · rw [hbc]
          exact (hhead a hin).symm
        · exact ih hrun a hin b hin'
  · intro h
    exact (List.pairwise_of_forall_mem_list fun a ha b hb => h a ha b hb).isChain

/-- The runs are the one way to cut the list into parts of one key whose neighbours differ. -/
theorem runsBy_eq_iff {l : List α} {runs : List (List α)} :
    runsBy key l = runs ↔ l = runs.flatten ∧ [] ∉ runs ∧
      (∀ run ∈ runs, ∀ a ∈ run, ∀ b ∈ run, key a = key b) ∧
      runs.IsChain fun p q => ∀ a ∈ p, ∀ b ∈ q, key a ≠ key b := by
  unfold runsBy
  rw [List.splitBy_eq_iff]
  simp only [decide_eq_true_eq, decide_eq_false_iff_not, isChain_eq_iff]
  refine and_congr_right fun _ => and_congr_right fun hne => and_congr_right fun hkey => ?_
  refine List.IsChain.iff_of_mem_imp fun p q hp hq => ?_
  have hpne : p ≠ [] := fun hnil => hne (hnil ▸ hp)
  have hqne : q ≠ [] := fun hnil => hne (hnil ▸ hq)
  constructor
  · rintro ⟨_, _, h⟩ a ha b hb hab
    refine h ?_
    rw [hkey p hp _ (List.getLast_mem hpne) a ha, hab]
    exact hkey q hq b hb _ (List.head_mem hqne)
  · intro h
    exact ⟨hpne, hqne, h _ (List.getLast_mem hpne) _ (List.head_mem hqne)⟩

@[simp] theorem runsBy_nil : runsBy key [] = [] := rfl

theorem flatten_runsBy (key : α → κ) (l : List α) : (runsBy key l).flatten = l :=
  List.flatten_splitBy _ l

theorem runsBy_ne_nil {l : List α} (h : l ≠ []) : runsBy key l ≠ [] :=
  List.splitBy_ne_nil.mpr h

theorem ne_nil_of_mem_runsBy {l run : List α} (h : run ∈ runsBy key l) : run ≠ [] :=
  List.ne_nil_of_mem_splitBy h

theorem key_eq_of_mem_runsBy {l run : List α} (h : run ∈ runsBy key l) {a b : α} (ha : a ∈ run)
    (hb : b ∈ run) : key a = key b :=
  (runsBy_eq_iff.mp rfl).2.2.1 run h a ha b hb

/-- An element with the key of the last run joins it. -/
theorem runsBy_concat_same {l run : List α} {front : List (List α)} {a : α}
    (h : runsBy key l = front ++ [run]) (hsame : ∀ b ∈ run, key b = key a) :
    runsBy key (l ++ [a]) = front ++ [run ++ [a]] := by
  obtain ⟨hl, hne, hkey, hadjacent⟩ := runsBy_eq_iff.mp h
  refine runsBy_eq_iff.mpr ⟨?_, ?_, ?_, ?_⟩
  · rw [hl]
    simp
  · intro hin
    exact hne (List.mem_append_left _ (by simpa using hin))
  · intro m hm
    rcases List.mem_append.mp hm with hin | hin
    · exact hkey m (List.mem_append_left _ hin)
    · rw [List.mem_singleton.mp hin]
      have hrun : ∀ b ∈ run ++ [a], key b = key a := by
        intro b hb
        rcases List.mem_append.mp hb with hb | hb
        · exact hsame b hb
        · rw [List.mem_singleton.mp hb]
      intro b hb c hc
      rw [hrun b hb, hrun c hc]
  · obtain ⟨hfront, -, hlast⟩ := List.isChain_append.mp hadjacent
    refine List.isChain_append.mpr ⟨hfront, List.isChain_singleton _, ?_⟩
    intro p hp q hq b hb c hc
    have hq : q = run ++ [a] := by simpa [eq_comm] using hq
    have hapart := hlast p hp run (by simp)
    have hrun : run ≠ [] := fun hnil => hne (by simp [hnil])
    have hc : key c = key (run.head hrun) := by
      rw [hq] at hc
      rcases List.mem_append.mp hc with hc | hc
      · exact hkey run (by simp) c hc _ (List.head_mem hrun)
      · rw [List.mem_singleton.mp hc, hsame _ (List.head_mem hrun)]
    rw [hc]
    exact hapart b hb _ (List.head_mem hrun)

/-- An element with another key starts a run. -/
theorem runsBy_concat_other {l run : List α} {front : List (List α)} {a : α}
    (h : runsBy key l = front ++ [run]) (hother : ∀ b ∈ run, key b ≠ key a) :
    runsBy key (l ++ [a]) = front ++ [run] ++ [[a]] := by
  obtain ⟨hl, hne, hkey, hadjacent⟩ := runsBy_eq_iff.mp h
  refine runsBy_eq_iff.mpr ⟨?_, ?_, ?_, ?_⟩
  · rw [hl]
    simp
  · intro hin
    exact hne (by simpa using hin)
  · intro m hm
    rcases List.mem_append.mp hm with hin | hin
    · exact hkey m hin
    · rw [List.mem_singleton.mp hin]
      simp
  · refine List.isChain_append.mpr ⟨hadjacent, List.isChain_singleton _, ?_⟩
    intro p hp q hq b hb c hc
    have hp : run = p := by simpa using hp
    have hq : [a] = q := by simpa using hq
    rw [← hq] at hc
    rw [List.mem_singleton.mp hc]
    exact hother b (hp ▸ hb)

theorem runsBy_concat (key : α → κ) (l : List α) (a : α) :
    (l = [] ∧ runsBy key (l ++ [a]) = [[a]]) ∨
      ∃ front run, runsBy key l = front ++ [run] ∧
        (((∀ b ∈ run, key b = key a) ∧ runsBy key (l ++ [a]) = front ++ [run ++ [a]]) ∨
          ((∀ b ∈ run, key b ≠ key a) ∧ runsBy key (l ++ [a]) = front ++ [run] ++ [[a]])) := by
  by_cases hl : l = []
  · left
    rw [hl]
    exact ⟨rfl, rfl⟩
  · right
    have hne : runsBy key l ≠ [] := runsBy_ne_nil hl
    have hruns := (List.dropLast_append_getLast hne).symm
    have hlast : (runsBy key l).getLast hne ∈ runsBy key l := List.getLast_mem hne
    refine ⟨_, _, hruns, ?_⟩
    have hhead := List.head_mem (ne_nil_of_mem_runsBy hlast)
    by_cases hkey : key (((runsBy key l).getLast hne).head (ne_nil_of_mem_runsBy hlast)) = key a
    · have hsame : ∀ b ∈ (runsBy key l).getLast hne, key b = key a := fun b hb =>
        (key_eq_of_mem_runsBy hlast hb hhead).trans hkey
      exact .inl ⟨hsame, runsBy_concat_same hruns hsame⟩
    · have hother : ∀ b ∈ (runsBy key l).getLast hne, key b ≠ key a := fun b hb heq =>
        hkey ((key_eq_of_mem_runsBy hlast hhead hb).trans heq)
      exact .inr ⟨hother, runsBy_concat_other hruns hother⟩

/-- A run of a prefix is a prefix of a run. -/
theorem exists_prefix_of_mem_runsBy {l run : List α} (h : run ∈ runsBy key l) (l' : List α) :
    ∃ run' ∈ runsBy key (l ++ l'), run <+: run' := by
  induction l' using List.reverseRecOn with
  | nil => exact ⟨run, by simpa using h, List.prefix_refl run⟩
  | append_singleton l' a ih =>
    obtain ⟨run', hrun', hpre⟩ := ih
    rw [← List.append_assoc]
    rcases runsBy_concat key (l ++ l') a with ⟨hnil, -⟩ | ⟨front, last, hruns, hcases⟩
    · rw [hnil] at hrun'
      simp at hrun'
    · rw [hruns] at hrun'
      rcases hcases with ⟨-, hruns'⟩ | ⟨-, hruns'⟩
      · rw [hruns']
        rcases List.mem_append.mp hrun' with hin | hin
        · exact ⟨run', List.mem_append_left _ hin, hpre⟩
        · rw [List.mem_singleton.mp hin] at hpre
          exact ⟨last ++ [a], by simp, hpre.trans (List.prefix_append last [a])⟩
      · rw [hruns']
        exact ⟨run', List.mem_append_left _ hrun', hpre⟩

/-- The beginning of a run is the last run of the list up to it. -/
theorem exists_runsBy_eq_concat {l run part : List α} (h : run ∈ runsBy key l) (hpart : part ≠ [])
    (hpre : part <+: run) :
    ∃ l₁ l₂ front, l = l₁ ++ l₂ ∧ runsBy key l₁ = front ++ [part] := by
  obtain ⟨front, back, hruns⟩ := List.append_of_mem h
  obtain ⟨rest, rfl⟩ := hpre
  obtain ⟨hl, hne, hkey, hadjacent⟩ := runsBy_eq_iff.mp hruns
  refine ⟨(front ++ [part]).flatten, rest ++ back.flatten, front, ?_, runsBy_eq_iff.mpr
    ⟨rfl, ?_, ?_, ?_⟩⟩
  · rw [hl]
    simp
  · intro hin
    rcases List.mem_append.mp hin with hin | hin
    · exact hne (List.mem_append_left _ hin)
    · exact hpart (List.mem_singleton.mp hin).symm
  · intro m hm
    rcases List.mem_append.mp hm with hin | hin
    · exact hkey m (List.mem_append_left _ hin)
    · rw [List.mem_singleton.mp hin]
      intro a ha b hb
      exact hkey (part ++ rest) (by simp) a (List.mem_append_left _ ha) b
        (List.mem_append_left _ hb)
  · obtain ⟨hfront, -, hlast⟩ := List.isChain_append.mp hadjacent
    refine List.isChain_append.mpr ⟨hfront, List.isChain_singleton _, ?_⟩
    intro p hp q hq a ha b hb
    have hq : part = q := by simpa using hq
    exact hlast p hp (part ++ rest) (by simp) a ha b (List.mem_append_left _ (hq ▸ hb))

end Lists

import Mathlib.Data.List.Basic
import Mathlib.Logic.Function.Basic

/-!
# Values derived from a table

Transactions change the rows of a table, and write values that are derived from the rows to a place
outside of the database. A transaction sees the committed rows with its own changes over them. When no
other transaction has an open change a value depends on while it is written, and every transaction
writes what depends on its changes before it commits them, the values are those of the committed rows
whenever no transaction is open.
-/

namespace Derived

/-- The rows after some changes. -/
def applyChanges {Key : Type} [DecidableEq Key] {Row : Key → Type} (rows : (k : Key) → Row k)
    (changes : List (Sigma Row)) : (k : Key) → Row k :=
  changes.foldl (fun rows change => Function.update rows change.1 change.2) rows

structure Store (Id Key : Type) (Row : Key → Type) (Item : Type) (Value : Item → Type) where
  rows : (k : Key) → Row k
  /-- Every committed change, the oldest first. -/
  history : List (Sigma Row) := []
  /-- The changes of the open transactions. -/
  flushed : Id → List (Sigma Row)
  values : (x : Item) → Value x
  /-- The transaction has written the value since its last change. -/
  written : Id → Item → Bool

/-- How values depend on rows. -/
structure Derivation (Key : Type) (Row : Key → Type) (Item : Type) (Value : Item → Type) where
  relevant : Key → Item → Bool
  Fits : ((k : Key) → Row k) → (x : Item) → Value x → Prop
  congr : ∀ {rows rows' x v}, (∀ k, relevant k x = true → rows k = rows' k) → Fits rows x v →
    Fits rows' x v

section Stores

variable {Id Key Item : Type} {Row : Key → Type} {Value : Item → Type}
variable [DecidableEq Id] [DecidableEq Key] [DecidableEq Item]

namespace Store

/-- What the transaction sees. -/
def view (st : Store Id Key Row Item Value) (i : Id) : (k : Key) → Row k :=
  applyChanges st.rows (st.flushed i)

def flush (st : Store Id Key Row Item Value) (i : Id) (change : Sigma Row) :
    Store Id Key Row Item Value :=
  { st with
    flushed := Function.update st.flushed i (st.flushed i ++ [change])
    written := Function.update st.written i fun _ => false }

def write (st : Store Id Key Row Item Value) (i : Id) (x : Item) (v : Value x) :
    Store Id Key Row Item Value :=
  { st with
    values := Function.update st.values x v
    written := Function.update st.written i (Function.update (st.written i) x true) }

def commit (st : Store Id Key Row Item Value) (i : Id) : Store Id Key Row Item Value :=
  { st with
    rows := st.view i
    history := st.history ++ st.flushed i
    flushed := Function.update st.flushed i [] }

def rollback (st : Store Id Key Row Item Value) (i : Id) : Store Id Key Row Item Value :=
  { st with flushed := Function.update st.flushed i [] }

end Store

/-- The transaction has an open change the value depends on. -/
def Derivation.touches (D : Derivation Key Row Item Value) (st : Store Id Key Row Item Value) (i : Id)
    (x : Item) : Bool :=
  (st.flushed i).any fun change => D.relevant change.1 x

/-- The transaction has written the value after changing what it depends on. -/
def Derivation.Holds (D : Derivation Key Row Item Value) (st : Store Id Key Row Item Value) (i : Id)
    (x : Item) : Prop :=
  st.written i x = true ∧ D.touches st i x = true

/-- Every value fits the committed rows, or the rows of the one transaction that wrote it. -/
structure Coherent (D : Derivation Key Row Item Value) (st : Store Id Key Row Item Value) : Prop where
  written : ∀ i x, D.Holds st i x → D.Fits (st.view i) x (st.values x)
  alone : ∀ i j x, D.Holds st i x → D.Holds st j x → i = j
  settled : ∀ x, (∀ i, ¬ D.Holds st i x) → D.Fits st.rows x (st.values x)

/-! ## Rows and changes -/

theorem applyChanges_of_untouched {rows : (k : Key) → Row k} {changes : List (Sigma Row)} {k : Key}
    (h : ∀ change ∈ changes, change.1 ≠ k) : applyChanges rows changes k = rows k := by
  unfold applyChanges
  induction changes generalizing rows with
  | nil => rfl
  | cons change changes ih =>
    rw [List.foldl_cons, ih fun c hc => h c (List.mem_cons_of_mem _ hc),
      Function.update_of_ne (h change List.mem_cons_self).symm]

theorem applyChanges_congr {rows rows' : (k : Key) → Row k} {changes : List (Sigma Row)} {k : Key}
    (h : rows k = rows' k) : applyChanges rows changes k = applyChanges rows' changes k := by
  unfold applyChanges
  induction changes generalizing rows rows' with
  | nil => exact h
  | cons change changes ih =>
    refine ih ?_
    show Function.update rows change.1 change.2 k = Function.update rows' change.1 change.2 k
    by_cases hk : k = change.1
    · subst hk
      rw [Function.update_self, Function.update_self]
    · rw [Function.update_of_ne hk, Function.update_of_ne hk, h]

variable {D : Derivation Key Row Item Value} {st : Store Id Key Row Item Value}

/-- Irrelevant changes leave the relevant rows alone. -/
theorem applyChanges_of_irrelevant {rows : (k : Key) → Row k} {changes : List (Sigma Row)} {x : Item}
    (h : (changes.any fun change => D.relevant change.1 x) = false) {k : Key}
    (hk : D.relevant k x = true) : applyChanges rows changes k = rows k := by
  refine applyChanges_of_untouched fun change hchange heq => ?_
  have hnot := List.any_eq_false.mp h change hchange
  exact hnot (heq ▸ hk)

theorem fits_view_iff {i : Id} {x : Item} {v : Value x} (h : D.touches st i x = false) :
    D.Fits (st.view i) x v ↔ D.Fits st.rows x v :=
  ⟨D.congr fun _ hk => applyChanges_of_irrelevant h hk,
    D.congr fun _ hk => (applyChanges_of_irrelevant h hk).symm⟩

theorem not_holds_of_untouched {i : Id} {x : Item} (h : D.touches st i x = false) : ¬ D.Holds st i x := by
  intro hholds
  rw [hholds.2] at h
  cases h

/-! ## What the steps keep -/

theorem Coherent.flush (h : Coherent D st) {i : Id} (hnone : ∀ x, ¬ D.Holds st i x) (change : Sigma Row) :
    Coherent D (st.flush i change) := by
  have hother {j : Id} {x : Item} (hj : D.Holds (st.flush i change) j x) : j ≠ i ∧ D.Holds st j x := by
    obtain ⟨hwritten, htouches⟩ := hj
    have hne : j ≠ i := by
      rintro rfl
      simp [Store.flush] at hwritten
    simp only [Store.flush, Function.update_of_ne hne] at hwritten
    simp only [Derivation.touches, Store.flush, Function.update_of_ne hne] at htouches
    exact ⟨hne, hwritten, htouches⟩
  refine ⟨fun j x hj => ?_, fun j k x hj hk => h.alone j k x (hother hj).2 (hother hk).2, fun x hx => ?_⟩
  · obtain ⟨hne, hholds⟩ := hother hj
    have hview : (st.flush i change).view j = st.view j := by
      simp only [Store.view, Store.flush, Function.update_of_ne hne]
    rw [hview]
    exact h.written j x hholds
  · refine h.settled x fun j hj => ?_
    by_cases hne : j = i
    · exact hnone x (hne ▸ hj)
    · refine hx j ⟨?_, ?_⟩
      · simp only [Store.flush, Function.update_of_ne hne]
        exact hj.1
      · simp only [Derivation.touches, Store.flush, Function.update_of_ne hne]
        exact hj.2

theorem Coherent.write (h : Coherent D st) {i : Id} {x : Item} {v : Value x} (hfits : D.Fits (st.view i) x v)
    (halone : ∀ j, j ≠ i → D.touches st j x = false) : Coherent D (st.write i x v) := by
  have hother {j : Id} {y : Item} (hne : y ≠ x) :
      D.Holds (st.write i x v) j y ↔ D.Holds st j y := by
    have hwritten : (st.write i x v).written j y = st.written j y := by
      by_cases hj : j = i
      · simp only [Store.write, hj, Function.update_self, Function.update_of_ne hne]
      · simp only [Store.write, Function.update_of_ne hj]
    unfold Derivation.Holds
    rw [hwritten]
    rfl
  have honly {j : Id} (hj : D.Holds (st.write i x v) j x) : j = i := by
    by_contra hne
    have htouches : D.touches st j x = true := hj.2
    rw [halone j hne] at htouches
    cases htouches
  have hview (j : Id) : (st.write i x v).view j = st.view j := rfl
  refine ⟨fun j y hj => ?_, fun j k y hj hk => ?_, fun y hy => ?_⟩
  · by_cases hyx : y = x
    · subst hyx
      rw [honly hj, hview]
      simp only [Store.write, Function.update_self]
      exact hfits
    · rw [hview]
      simp only [Store.write, Function.update_of_ne hyx]
      exact h.written j y ((hother hyx).mp hj)
  · by_cases hyx : y = x
    · subst hyx
      rw [honly hj, honly hk]
    · exact h.alone j k y ((hother hyx).mp hj) ((hother hyx).mp hk)
  · by_cases hyx : y = x
    · subst hyx
      simp only [Store.write, Function.update_self]
      refine (fits_view_iff (i := i) ?_).mp hfits
      cases htouches : D.touches st i y with
      | false => rfl
      | true =>
        refine absurd ⟨?_, htouches⟩ (hy i)
        simp only [Store.write, Function.update_self]
    · simp only [Store.write, Function.update_of_ne hyx]
      exact h.settled y fun j hj => hy j ((hother hyx).mpr hj)

/-- A transaction that gives up its changes before it has written a value that depends on them. -/
theorem Coherent.rollback (h : Coherent D st) {i : Id} (hnone : ∀ x, ¬ D.Holds st i x) :
    Coherent D (st.rollback i) := by
  have hiff (j : Id) (x : Item) : D.Holds (st.rollback i) j x ↔ D.Holds st j x := by
    by_cases hne : j = i
    · subst hne
      refine ⟨fun hj => ?_, fun hj => absurd hj (hnone x)⟩
      have htouches := hj.2
      simp [Derivation.touches, Store.rollback] at htouches
    · unfold Derivation.Holds Derivation.touches
      simp only [Store.rollback, Function.update_of_ne hne]
  refine ⟨fun j x hj => ?_, fun j k x hj hk => ?_, fun x hx => ?_⟩
  · have hne : j ≠ i := by
      rintro rfl
      exact hnone x ((hiff j x).mp hj)
    have hview : (st.rollback i).view j = st.view j := by
      simp only [Store.view, Store.rollback, Function.update_of_ne hne]
    rw [hview]
    exact h.written j x ((hiff j x).mp hj)
  · exact h.alone j k x ((hiff j x).mp hj) ((hiff k x).mp hk)
  · exact h.settled x fun j hj => hx j ((hiff j x).mpr hj)

/-- A transaction that has written everything its changes are relevant to. -/
theorem Coherent.commit (h : Coherent D st) {i : Id}
    (hwritten : ∀ x, D.touches st i x = true → st.written i x = true) : Coherent D (st.commit i) := by
  have hnot (x : Item) : ¬ D.Holds (st.commit i) i x := by
    intro hi
    have htouches := hi.2
    simp [Derivation.touches, Store.commit] at htouches
  have hother {j : Id} (hne : j ≠ i) (x : Item) : D.Holds (st.commit i) j x ↔ D.Holds st j x := by
    unfold Derivation.Holds Derivation.touches
    simp only [Store.commit, Function.update_of_ne hne]
  refine ⟨fun j x hj => ?_, fun j k x hj hk => ?_, fun x hx => ?_⟩
  · have hne : j ≠ i := by
      rintro rfl
      exact hnot x hj
    have hholds := (hother hne x).mp hj
    have huntouched : D.touches st i x = false := by
      cases htouches : D.touches st i x with
      | false => rfl
      | true => exact absurd (h.alone j i x hholds ⟨hwritten x htouches, htouches⟩) hne
    refine D.congr (fun k hk => ?_) (h.written j x hholds)
    have hflushed : (st.commit i).flushed j = st.flushed j := by
      simp only [Store.commit, Function.update_of_ne hne]
    show applyChanges st.rows (st.flushed j) k = applyChanges (st.view i) ((st.commit i).flushed j) k
    rw [hflushed]
    exact applyChanges_congr (applyChanges_of_irrelevant huntouched hk).symm
  · by_cases hne : j = i
    · exact absurd (hne ▸ hj) (hnot x)
    · by_cases hne' : k = i
      · exact absurd (hne' ▸ hk) (hnot x)
      · exact h.alone j k x ((hother hne x).mp hj) ((hother hne' x).mp hk)
  · cases htouches : D.touches st i x with
    | true => exact h.written i x ⟨hwritten x htouches, htouches⟩
    | false =>
      refine (fits_view_iff htouches).mpr (h.settled x fun j hj => ?_)
      by_cases hne : j = i
      · exact not_holds_of_untouched htouches (hne ▸ hj)
      · exact hx j ((hother hne x).mpr hj)

/-- Without open changes, every value fits the rows. -/
theorem Coherent.fits (h : Coherent D st) (hclosed : ∀ i, st.flushed i = []) (x : Item) :
    D.Fits st.rows x (st.values x) := by
  refine h.settled x fun i hi => ?_
  have htouches := hi.2
  simp [Derivation.touches, hclosed i] at htouches

end Stores

end Derived

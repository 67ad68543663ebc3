import BucketReef.Effects.System
import Mathlib.Data.List.Nodup

/-!
# Threads that rely on different things

Several threads share the world, and each has an identity that was never given out before. The rules
of a thread depend on its identity: it may rely on what the others do not do to it, and every
operation of it has to respect what each other one relies on.
-/

namespace Effects

section Identities

variable {Op : Type} {Reply : Op → Type} {ε World Session Choice Event Job Id : Type}
variable (S : System Op Reply ε World Session Choice Event Job) (ident : Session → Id)
variable (R : Id → Rules Op World Session) (known : World → Id → Prop)

/-- The operation a label executes is allowed where it executes. -/
def permitted (allowed : Op → World → Session → Bool) (st : State Op Reply ε World Session) :
    Label Choice Event Job → Bool
  | .advance i _ =>
    st.threads[i]?.all fun t => t.pending.all fun op => allowed op st.world t.session
  | _ => true

theorem allowed_of_permitted {allowed : Op → World → Session → Bool}
    {st : State Op Reply ε World Session} {i : ℕ} {choice : Choice}
    {t : Thread Op Reply ε Session} {op : Op} {next : Except ε (Reply op) → Prog Op Reply ε Unit}
    (h : permitted allowed st (.advance i choice : Label Choice Event Job) = true)
    (hthread : st.threads[i]? = some t) (hprog : t.prog = .call op next) :
    allowed op st.world t.session = true := by
  have hpending : t.pending = some op := by
    rw [Thread.pending, hprog]
  simpa [permitted, hthread, hpending] using h

/-- What makes the runs of a system safe when its threads have rules of their own. -/
structure SoundFor (inv : World → Prop)
    (ok : State Op Reply ε World Session → Label Choice Event Job → Prop) : Prop where
  inv_iff : ∀ i w, (R i).inv w ↔ inv w
  known_mono : ∀ {i w w'}, (R i).rely w w' → known w i → known w' i
  known_exec : ∀ op choice w s, known w (ident s) → known (S.exec op choice w s).1 (ident s)
  ident_exec : ∀ op choice w s, ident (S.exec op choice w s).2.1 = ident s
  event : ∀ {st e world'}, inv st.world → ok st (.event e) → S.apply e st.world = some world' →
    (∀ i, (R i).rely st.world world') ∧ inv world'
  start : ∀ {st job world' session prog}, inv st.world → ok st (.start job) →
    S.start job st.world = some (world', session, prog) →
      (¬ known st.world (ident session) ∧ known world' (ident session)) ∧
        (∀ i, i ≠ ident session → (R i).rely st.world world') ∧
          inv world' ∧ Safe S (R (ident session)) ⟨session, prog⟩ world'
  advance : ∀ {st i choice t op next}, ok st (.advance i choice) → st.threads[i]? = some t →
    t.prog = .call op next → (R (ident t.session)).allowed op st.world t.session
  guarantee : ∀ {op choice w s}, inv w → (R (ident s)).require op w s →
    (R (ident s)).allowed op w s → ∀ i, i ≠ ident s → (R i).rely w (S.exec op choice w s).1

/-- The invariant, with every thread safe under its own rules and no identity used twice. -/
structure SafeStateFor (inv : World → Prop) (st : State Op Reply ε World Session) : Prop where
  inv : inv st.world
  distinct : (st.threads.map fun t => ident t.session).Nodup
  known : ∀ t ∈ st.threads, known st.world (ident t.session)
  safe : ∀ t ∈ st.threads, Safe S (R (ident t.session)) t st.world

variable {S ident R known}

theorem SafeStateFor.step {inv : World → Prop}
    {ok : State Op Reply ε World Session → Label Choice Event Job → Prop}
    (hsound : SoundFor S ident R known inv ok) {st st' : State Op Reply ε World Session}
    {label : Label Choice Event Job} (h : SafeStateFor S ident R known inv st) (hok : ok st label)
    (hnext : S.next st label = some st') : SafeStateFor S ident R known inv st' := by
  have hmoves {world' : World} {t : Thread Op Reply ε Session} (ht : t ∈ st.threads)
      (hrely : (R (ident t.session)).rely st.world world') (hinv : inv world') :
      known world' (ident t.session) ∧ Safe S (R (ident t.session)) t world' :=
    ⟨hsound.known_mono hrely (h.known t ht),
      (h.safe t ht).rely hrely ((hsound.inv_iff _ _).mpr hinv)⟩
  cases label with
  | event e =>
    simp only [System.next, Option.map_eq_some_iff] at hnext
    obtain ⟨world, hworld, rfl⟩ := hnext
    obtain ⟨hrely, hinv⟩ := hsound.event h.inv hok hworld
    exact ⟨hinv, h.distinct, fun t ht => (hmoves ht (hrely _) hinv).1,
      fun t ht => (hmoves ht (hrely _) hinv).2⟩
  | start job =>
    simp only [System.next, Option.map_eq_some_iff] at hnext
    obtain ⟨⟨world, session, prog⟩, hstart, rfl⟩ := hnext
    obtain ⟨⟨hfresh, hknown⟩, hrely, hinv, hsafe⟩ := hsound.start h.inv hok hstart
    have hother : ∀ t ∈ st.threads, ident t.session ≠ ident session := by
      intro t ht heq
      exact hfresh (heq ▸ h.known t ht)
    refine ⟨hinv, ?_, ?_, ?_⟩
    · rw [List.map_append, List.nodup_append]
      refine ⟨h.distinct, by simp, ?_⟩
      intro i hi j hj
      obtain ⟨t, ht, rfl⟩ := List.mem_map.mp hi
      rw [List.map_singleton, List.mem_singleton] at hj
      rw [hj]
      exact hother t ht
    · intro t ht
      rcases List.mem_append.mp ht with ht | ht
      · exact (hmoves ht (hrely _ (hother t ht)) hinv).1
      · rw [List.mem_singleton.mp ht]
        exact hknown
    · intro t ht
      rcases List.mem_append.mp ht with ht | ht
      · exact (hmoves ht (hrely _ (hother t ht)) hinv).2
      · rw [List.mem_singleton.mp ht]
        exact hsafe
  | advance i choice =>
    simp only [System.next] at hnext
    split at hnext
    · rename_i session op next hthread
      cases hnext
      obtain ⟨hi, hget⟩ := List.getElem?_eq_some_iff.mp hthread
      have hmem := List.mem_of_getElem? hthread
      obtain ⟨hrequire, hstep⟩ :=
        h.safe _ hmem st.world ((R _).rely_refl _) ((hsound.inv_iff _ _).mpr h.inv)
      have hallowed := hsound.advance hok hthread rfl
      obtain ⟨hinv, hwp⟩ := hstep hallowed choice
      have hident := hsound.ident_exec op choice st.world session
      -- the moved thread keeps its identity
      have hmap : (st.threads.set i ⟨(S.exec op choice st.world session).2.1,
          next (S.exec op choice st.world session).2.2⟩).map (fun t => ident t.session) =
            st.threads.map fun t => ident t.session := by
        have hbound : i < (st.threads.map fun t => ident t.session).length := by simpa
        have hsame : ident session = (st.threads.map fun t => ident t.session)[i] := by
          rw [List.getElem_map, hget]
        rw [List.map_set, hident]
        simp only [hsame, List.set_getElem_self]
      have hinv' := (hsound.inv_iff _ _).mp hinv
      have hothers : ∀ j (hj : j < st.threads.length), i ≠ j →
          (R (ident (st.threads[j]).session)).rely st.world
            (S.exec op choice st.world session).1 := by
        intro j hj hij
        refine hsound.guarantee h.inv hrequire hallowed _ ?_
        intro heq
        have hinj := List.nodup_iff_injective_getElem.mp h.distinct
        have hfin := @hinj ⟨i, by simpa⟩ ⟨j, by simpa⟩ (by simpa [hget] using heq.symm)
        exact hij (Fin.val_eq_of_eq hfin)
      refine ⟨hinv', hmap ▸ h.distinct, ?_, ?_⟩
      · intro t ht
        obtain ⟨j, hj, rfl⟩ := List.mem_iff_getElem.mp ht
        by_cases hij : i = j
        · subst hij
          simp only [List.getElem_set_self, hident]
          exact hsound.known_exec op choice st.world session (h.known _ hmem)
        · have hj' : j < st.threads.length := by simpa using hj
          rw [List.getElem_set_ne hij]
          exact (hmoves (List.getElem_mem hj') (hothers j hj' hij) hinv').1
      · intro t ht
        obtain ⟨j, hj, rfl⟩ := List.mem_iff_getElem.mp ht
        by_cases hij : i = j
        · subst hij
          simp only [List.getElem_set_self, hident]
          exact hwp
        · have hj' : j < st.threads.length := by simpa using hj
          rw [List.getElem_set_ne hij]
          exact (hmoves (List.getElem_mem hj') (hothers j hj' hij) hinv').2
    · cases hnext
  | stop i =>
    simp only [System.next, Option.ite_none_right_eq_some, Option.some.injEq] at hnext
    obtain ⟨-, rfl⟩ := hnext
    refine ⟨h.inv, h.distinct.sublist ((List.eraseIdx_sublist ..).map _), ?_, ?_⟩
    · exact fun t ht => h.known t (List.mem_of_mem_eraseIdx ht)
    · exact fun t ht => h.safe t (List.mem_of_mem_eraseIdx ht)

/-- A step respects what every thread but the one that moves relies on. -/
theorem SafeStateFor.rely_of_step [Nonempty Id] {inv : World → Prop}
    {ok : State Op Reply ε World Session → Label Choice Event Job → Prop}
    (hsound : SoundFor S ident R known inv ok) {st st' : State Op Reply ε World Session}
    {label : Label Choice Event Job} (h : SafeStateFor S ident R known inv st) (hok : ok st label)
    (hnext : S.next st label = some st') : ∃ me, ∀ i, i ≠ me → (R i).rely st.world st'.world := by
  obtain ⟨someone⟩ := ‹Nonempty Id›
  cases label with
  | event e =>
    simp only [System.next, Option.map_eq_some_iff] at hnext
    obtain ⟨world, hworld, rfl⟩ := hnext
    exact ⟨someone, fun i _ => (hsound.event h.inv hok hworld).1 i⟩
  | start job =>
    simp only [System.next, Option.map_eq_some_iff] at hnext
    obtain ⟨⟨world, session, prog⟩, hstart, rfl⟩ := hnext
    exact ⟨ident session, (hsound.start h.inv hok hstart).2.1⟩
  | advance i choice =>
    simp only [System.next] at hnext
    split at hnext
    · rename_i session op next hthread
      cases hnext
      obtain ⟨hrequire, -⟩ := h.safe _ (List.mem_of_getElem? hthread) st.world ((R _).rely_refl _)
        ((hsound.inv_iff _ _).mpr h.inv)
      exact ⟨ident session, hsound.guarantee h.inv hrequire (hsound.advance hok hthread rfl)⟩
    · cases hnext
  | stop i =>
    simp only [System.next, Option.ite_none_right_eq_some, Option.some.injEq] at hnext
    obtain ⟨-, rfl⟩ := hnext
    exact ⟨someone, fun i _ => (R i).rely_refl _⟩

/-- Every reachable state satisfies the invariant, and every thread in it is safe. -/
theorem SafeStateFor.of_reachable {inv : World → Prop}
    {ok : State Op Reply ε World Session → Label Choice Event Job → Prop}
    (hsound : SoundFor S ident R known inv ok) {world : World} (hinv : inv world)
    {st : State Op Reply ε World Session} (h : Reachable S ok world st) :
    SafeStateFor S ident R known inv st := by
  induction h with
  | init =>
    exact ⟨hinv, List.nodup_nil, fun t ht => absurd ht List.not_mem_nil,
      fun t ht => absurd ht List.not_mem_nil⟩
  | step _ hok hnext ih => exact ih.step hsound hok hnext

end Identities

end Effects

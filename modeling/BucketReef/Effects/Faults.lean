import BucketReef.Effects.Outcome

/-!
# Programs whose calls may fail

A call of a remote service takes effect and answers, or it raises without an effect, or it takes effect
and raises all the same. `Survives` is what holds of a program that runs alone, whatever happens to its
calls.
-/

namespace Effects

/-- What happens to a call. -/
inductive Fate (ε : Type)
  | done
  | refused (e : ε)
  | lost (e : ε)

section Faults

variable {Op : Type} {Reply : Op → Type} {ε World α β : Type}

/-- A service that does `apply`, and whose calls meet a fate. -/
def Machine.faulty (apply : (op : Op) → World → World × Except ε (Reply op)) :
    Machine Op Reply ε World Unit (Fate ε) where
  exec op fate w s :=
    match fate with
    | .done => ((apply op w).1, s, (apply op w).2)
    | .refused e => (w, s, .error e)
    | .lost e => ((apply op w).1, s, .error e)

/-- The world and the result of a program whose call number `n` meets fate number `n`. -/
def Prog.run (apply : (op : Op) → World → World × Except ε (Reply op)) (fates : ℕ → Fate ε)
    (p : Prog Op Reply ε α) (w : World) : World × Except ε α :=
  let outcome := p.outcome ((Machine.faulty apply).scheduled fates) w ((), 0)
  (outcome.world, outcome.result)

/-- What holds of a program's results and errors, whatever happens to its calls. -/
def Survives (apply : (op : Op) → World → World × Except ε (Reply op)) (p : Prog Op Reply ε α)
    (onRet : α → World → Prop) (onFail : ε → World → Prop) (w : World) : Prop :=
  ∀ fates s, wp ((Machine.faulty apply).scheduled fates) (alone Op World (Unit × ℕ)) p
    (fun a w _ => onRet a w) (fun e w _ => onFail e w) w s

variable {apply : (op : Op) → World → World × Except ε (Reply op)}

/-- What a program survives holds of every run of it. -/
theorem Survives.run {p : Prog Op Reply ε α} {onRet : α → World → Prop} {onFail : ε → World → Prop}
    {w : World} (h : Survives apply p onRet onFail w) (fates : ℕ → Fate ε) :
    match (p.run apply fates w).2 with
    | .ok a => onRet a (p.run apply fates w).1
    | .error e => onFail e (p.run apply fates w).1 :=
  outcome_of_wp (h fates ((), 0))

theorem Survives.run_ok {p : Prog Op Reply ε α} {onRet : α → World → Prop} {onFail : ε → World → Prop}
    {w w' : World} {a : α} {fates : ℕ → Fate ε} (h : Survives apply p onRet onFail w)
    (hrun : p.run apply fates w = (w', .ok a)) : onRet a w' := by
  have hresult := h.run fates
  rw [hrun] at hresult
  exact hresult

theorem Survives.run_error {p : Prog Op Reply ε α} {onRet : α → World → Prop}
    {onFail : ε → World → Prop} {w w' : World} {e : ε} {fates : ℕ → Fate ε}
    (h : Survives apply p onRet onFail w) (hrun : p.run apply fates w = (w', .error e)) :
    onFail e w' := by
  have hresult := h.run fates
  rw [hrun] at hresult
  exact hresult

theorem Survives.ret {a : α} {onRet : α → World → Prop} {onFail : ε → World → Prop} {w : World}
    (h : onRet a w) : Survives apply (.ret a : Prog Op Reply ε α) onRet onFail w :=
  fun _ _ => h

theorem Survives.fail {e : ε} {onRet : α → World → Prop} {onFail : ε → World → Prop} {w : World}
    (h : onFail e w) : Survives apply (.fail e : Prog Op Reply ε α) onRet onFail w :=
  fun _ _ => h

theorem Survives.mono {p : Prog Op Reply ε α} {onRet onRet' : α → World → Prop}
    {onFail onFail' : ε → World → Prop} {w : World} (h : Survives apply p onRet onFail w)
    (hret : ∀ a w, onRet a w → onRet' a w) (hfail : ∀ e w, onFail e w → onFail' e w) :
    Survives apply p onRet' onFail' w :=
  fun fates s => wp_mono (h fates s) (fun a w _ => hret a w) fun e w _ => hfail e w

theorem Survives.bind {p : Prog Op Reply ε α} {f : α → Prog Op Reply ε β} {onRet : β → World → Prop}
    {onFail : ε → World → Prop} {w : World}
    (h : Survives apply p (fun a => Survives apply (f a) onRet onFail) onFail w) :
    Survives apply (p.bind f) onRet onFail w :=
  fun fates s => wp_bind (wp_mono (h fates s) (fun _ _ s hf => hf fates s) fun _ _ _ he => he)

theorem Survives.tryCatch {p : Prog Op Reply ε α} {handler : ε → Prog Op Reply ε α}
    {onRet : α → World → Prop} {onFail : ε → World → Prop} {w : World}
    (h : Survives apply p onRet (fun e => Survives apply (handler e) onRet onFail) w) :
    Survives apply (p.tryCatch handler) onRet onFail w :=
  fun fates s => wp_tryCatch (wp_mono (h fates s) (fun _ _ _ ha => ha) fun _ _ s he => he fates s)

theorem Survives.fails {p : Prog Op Reply ε Unit} {onRet : Bool → World → Prop}
    {onFail : ε → World → Prop} {w : World}
    (h : Survives apply p (fun _ => onRet false) (fun _ => onRet true) w) :
    Survives apply p.fails onRet onFail w :=
  fun fates s => wp_fails (h fates s)

theorem Survives.when {condition : Bool} {p : Prog Op Reply ε Unit} {onRet : Unit → World → Prop}
    {onFail : ε → World → Prop} {w : World}
    (hrun : condition = true → Survives apply p onRet onFail w)
    (hskip : condition = false → onRet () w) :
    Survives apply (Prog.when condition p) onRet onFail w := by
  cases condition with
  | false => exact .ret (hskip rfl)
  | true => exact hrun rfl

/-- One call, by its three fates. -/
theorem Survives.perform {op : Op} {onRet : Reply op → World → Prop} {onFail : ε → World → Prop}
    {w : World} (hdone : ∀ a, (apply op w).2 = .ok a → onRet a (apply op w).1)
    (herror : ∀ e, (apply op w).2 = .error e → onFail e (apply op w).1)
    (hrefused : ∀ e, onFail e w) (hlost : ∀ e, onFail e (apply op w).1) :
    Survives apply (Prog.perform op) onRet onFail w := by
  intro fates s
  refine wp_alone ?_ ?_
  · intro a
    simp only [Machine.scheduled, Machine.faulty]
    cases fates s.2 with
    | done => exact hdone a
    | refused e => rintro ⟨⟩
    | lost e => rintro ⟨⟩
  · intro e
    simp only [Machine.scheduled, Machine.faulty]
    cases fates s.2 with
    | done => exact herror e
    | refused e' => exact fun _ => hrefused e
    | lost e' => exact fun _ => hlost e

/-- A call that only reads. -/
theorem Survives.read {op : Op} {onRet : Reply op → World → Prop} {onFail : ε → World → Prop}
    {w : World} (hread : (apply op w).1 = w) (hdone : ∀ a, (apply op w).2 = .ok a → onRet a w)
    (hfail : ∀ e, onFail e w) : Survives apply (Prog.perform op) onRet onFail w :=
  .perform (by rw [hread]; exact hdone) (fun e _ => by rw [hread]; exact hfail e) hfail
    fun e => by rw [hread]; exact hfail e

/-- Nothing is asked of the outcome. -/
theorem Survives.trivial (p : Prog Op Reply ε α) (w : World) :
    Survives apply p (fun _ _ => True) (fun _ _ => True) w := by
  intro fates s
  induction p generalizing w s with
  | ret a => exact True.intro
  | fail e => exact True.intro
  | call op next ih =>
    rintro w' - -
    exact ⟨True.intro, fun _ _ => ⟨True.intro, ih _ _ _⟩⟩

/-- A loop that carries a value, with an invariant over the part of the list that is done. -/
theorem Survives.foldM {body : α → β → Prog Op Reply ε α} {onFail : ε → World → Prop}
    (inv : List β → α → World → Prop) : ∀ (before rest : List β) {a : α} {w : World}, inv before a w →
      (∀ before a b w, inv before a w → b ∈ rest →
        Survives apply (body a b) (fun a => inv (before ++ [b]) a) onFail w) →
      Survives apply (Prog.foldM rest body a) (fun a => inv (before ++ rest) a) onFail w
  | before, [], a, w, hinv, _ => .ret (by simpa using hinv)
  | before, b :: rest, a, w, hinv, hbody => by
    refine .bind ((hbody before a b w hinv (by simp)).mono ?_ fun _ _ he => he)
    intro a w hinv
    have hrest := Survives.foldM inv (before ++ [b]) rest hinv
      fun before a c w hinv hc => hbody before a c w hinv (by simp [hc])
    rw [List.append_assoc] at hrest
    exact hrest

/-- An assertion that every operation a program may call keeps is kept by the program. -/
theorem Survives.of_uses {P : Op → Prop} {A : World → Prop}
    (hexec : ∀ op, P op → ∀ w, A w → A (apply op w).1) {p : Prog Op Reply ε α} (h : p.Uses P) {w : World}
    (hA : A w) : Survives apply p (fun _ => A) (fun _ => A) w := by
  intro fates s
  refine keeps_of_uses (P := P) (stable_alone fun w _ => A w) ?_ h w s hA
  intro op hop w s hw _
  refine ⟨True.intro, fun _ choice => ⟨True.intro, ?_⟩⟩
  simp only [Machine.scheduled, Machine.faulty]
  cases fates s.2 with
  | done => exact hexec op hop w hw
  | refused e => exact hw
  | lost e => exact hexec op hop w hw

end Faults

end Effects

import BucketReef.Effects.Logic
import Mathlib.Data.Nat.Notation

/-!
# A program that runs alone

Nobody else moves, and what the environment chooses at each call is fixed in advance, by the number of
the call. Such a program has one outcome, and its weakest precondition is what holds of that outcome.
-/

namespace Effects

section Outcome

variable {Op : Type} {Reply : Op → Type} {ε World Session Choice α : Type}

/-- Call number `n` meets choice number `n`; the session counts the calls. -/
def Machine.scheduled (M : Machine Op Reply ε World Session Choice) (choices : ℕ → Choice) :
    Machine Op Reply ε World (Session × ℕ) Unit where
  exec op _ w s :=
    let step := M.exec op (choices s.2) w s.1
    (step.1, (step.2.1, s.2 + 1), step.2.2)

/-- Nobody else moves. -/
def alone (Op World Session : Type) : Rules Op World Session where
  rely := Eq
  inv _ := True
  allowed _ _ _ := True
  require _ _ _ := True
  rely_refl _ := rfl
  rely_trans := Eq.trans

structure Outcome (ε World Session α : Type) where
  world : World
  session : Session
  result : Except ε α

def Prog.outcome (M : Machine Op Reply ε World Session Unit) :
    Prog Op Reply ε α → World → Session → Outcome ε World Session α
  | .ret a, w, s => ⟨w, s, .ok a⟩
  | .fail e, w, s => ⟨w, s, .error e⟩
  | .call op next, w, s =>
    let (w, s, reply) := M.exec op () w s
    (next reply).outcome M w s

variable {M : Machine Op Reply ε World Session Unit}

theorem stable_alone (A : World → Session → Prop) : Stable (alone Op World Session) A := by
  rintro w w' s hA rfl -
  exact hA

/-- What the weakest precondition of a program says about its outcome. -/
theorem outcome_of_wp {p : Prog Op Reply ε α} {onRet : α → World → Session → Prop}
    {onFail : ε → World → Session → Prop} {w : World} {s : Session}
    (h : wp M (alone Op World Session) p onRet onFail w s) :
    match (p.outcome M w s).result with
    | .ok a => onRet a (p.outcome M w s).world (p.outcome M w s).session
    | .error e => onFail e (p.outcome M w s).world (p.outcome M w s).session := by
  induction p generalizing w s with
  | ret a => exact h
  | fail e => exact h
  | call op next ih =>
    obtain ⟨-, hstep⟩ := h w rfl trivial
    exact ih _ (hstep trivial ()).2

/-- One operation of a program that runs alone. -/
theorem wp_alone {op : Op} {onRet : Reply op → World → Session → Prop}
    {onFail : ε → World → Session → Prop} {w : World} {s : Session}
    (hret : ∀ a, (M.exec op () w s).2.2 = .ok a → onRet a (M.exec op () w s).1 (M.exec op () w s).2.1)
    (hfail : ∀ e, (M.exec op () w s).2.2 = .error e →
      onFail e (M.exec op () w s).1 (M.exec op () w s).2.1) :
    wp M (alone Op World Session) (Prog.perform op) onRet onFail w s := by
  rintro w' rfl -
  refine ⟨trivial, fun _ choice => ⟨trivial, ?_⟩⟩
  cases choice
  rcases hexec : M.exec op () w s with ⟨w', s', reply⟩
  rw [hexec] at hret hfail
  cases reply with
  | ok a => exact hret a rfl
  | error e => exact hfail e rfl

end Outcome

/-! ## The operations a program uses -/

section Uses

variable {Op : Type} {Reply : Op → Type} {ε World Session Choice α : Type}

/-- Every operation the program may call is one of these. -/
def Prog.Uses (P : Op → Prop) (α : Type) : Prog Op Reply ε α → Prop
  | .ret _ => True
  | .fail _ => True
  | .call op next => P op ∧ ∀ reply, Prog.Uses P α (next reply)

variable {P : Op → Prop}

theorem uses_perform {op : Op} (h : P op) : (Prog.perform op : Prog Op Reply ε (Reply op)).Uses P := by
  refine ⟨h, fun reply => ?_⟩
  cases reply with
  | ok a => trivial
  | error e => trivial

theorem uses_composes : Prog.Composes fun α (p : Prog Op Reply ε α) => p.Uses P where
  pure _ := trivial
  raise _ := trivial
  bind := by
    intro α β p f hp hf
    induction p with
    | ret a => exact hf a
    | fail e => trivial
    | call op next ih => exact ⟨hp.1, fun reply => ih reply (hp.2 reply)⟩
  tryCatch := by
    intro α p handler hp hhandler
    induction p with
    | ret a => trivial
    | fail e => exact hhandler e
    | call op next ih => exact ⟨hp.1, fun reply => ih reply (hp.2 reply)⟩

/-- An assertion every one of these operations keeps is kept by the program. -/
theorem keeps_of_uses {M : Machine Op Reply ε World Session Choice} {R : Rules Op World Session}
    {A : World → Session → Prop} (hstable : Stable R A)
    (hexec : ∀ op, P op → ∀ w s, A w s → R.inv w → Step M R op (fun _ => A) w s)
    {p : Prog Op Reply ε α} (h : p.Uses P) : Keeps M R A α p := by
  induction p with
  | ret a => exact fun _ _ hA => hA
  | fail e => exact fun _ _ hA => hA
  | call op next ih =>
    intro w s hA w' hrely hinv
    refine (hexec op h.1 w' s (hstable w w' s hA hrely hinv) hinv).mono fun reply w s hA => ?_
    exact ih reply (h.2 reply) w s hA

end Uses

end Effects

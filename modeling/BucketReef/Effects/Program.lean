import Mathlib.Logic.Basic
import Mathlib.Tactic.TypeStar

/-!
# Programs with operations that may fail

A program is a tree of operations: it calls an operation and continues with its reply or with the
error it raised. Errors propagate through `bind` and are caught by `tryCatch`. Nothing here knows
which operations there are.
-/

namespace Effects

/-- A program that returns an `α`, or stops with an error. -/
inductive Prog (Op : Type) (Reply : Op → Type) (ε : Type) (α : Type) : Type
  | ret (a : α)
  | fail (e : ε)
  | call (op : Op) (next : Except ε (Reply op) → Prog Op Reply ε α)

namespace Prog

variable {Op : Type} {Reply : Op → Type} {ε α β : Type}

protected def bind : Prog Op Reply ε α → (α → Prog Op Reply ε β) → Prog Op Reply ε β
  | .ret a, f => f a
  | .fail e, _ => .fail e
  | .call op next, f => .call op fun reply => (next reply).bind f

instance : Monad (Prog Op Reply ε) where
  pure := .ret
  bind := .bind

/-- Call one operation and raise its error. -/
def perform (op : Op) : Prog Op Reply ε (Reply op) :=
  .call op fun
    | .ok a => .ret a
    | .error e => .fail e

def raise (e : ε) : Prog Op Reply ε α := .fail e

def tryCatch : Prog Op Reply ε α → (ε → Prog Op Reply ε α) → Prog Op Reply ε α
  | .ret a, _ => .ret a
  | .fail e, handler => handler e
  | .call op next, handler => .call op fun reply => (next reply).tryCatch handler

/-- The program's result or its error, as a value. -/
def attempt (p : Prog Op Reply ε α) : Prog Op Reply ε (Except ε α) :=
  (p.bind fun a => .ret (.ok a)).tryCatch fun e => .ret (.error e)

/-- `finalizer` runs after `p` in any case; its own error replaces the one of `p`. -/
def tryFinally (p : Prog Op Reply ε α) (finalizer : Prog Op Reply ε Unit) : Prog Op Reply ε α :=
  p.attempt.bind fun result => finalizer.bind fun _ =>
    match result with
    | .ok a => .ret a
    | .error e => .fail e

/-- Whether the program failed. -/
def fails (p : Prog Op Reply ε Unit) : Prog Op Reply ε Bool :=
  (p.bind fun _ => .ret false).tryCatch fun _ => .ret true

/-- Whether a program that only runs under a condition failed. -/
def failsWhen (condition : Bool) (p : Prog Op Reply ε Unit) : Prog Op Reply ε Bool :=
  if condition then p.fails else .ret false

/-- An `if` without `else`. -/
def when (condition : Bool) (p : Prog Op Reply ε Unit) : Prog Op Reply ε Unit :=
  if condition then p else .ret ()

def forEach (l : List β) (body : β → Prog Op Reply ε Unit) : Prog Op Reply ε Unit :=
  match l with
  | [] => .ret ()
  | b :: l => (body b).bind fun _ => forEach l body

/-- A loop over a list that carries a value. -/
def foldM (l : List β) (body : α → β → Prog Op Reply ε α) (a : α) : Prog Op Reply ε α :=
  match l with
  | [] => .ret a
  | b :: l => (body a b).bind fun a => foldM l body a

/-- A loop over a list that `body` leaves early by returning a value. -/
def findM (l : List β) (body : β → Prog Op Reply ε (Option α)) : Prog Op Reply ε (Option α) :=
  match l with
  | [] => .ret none
  | b :: l => (body b).bind fun
    | some a => .ret (some a)
    | none => findM l body

@[simp] theorem pure_eq (a : α) : (pure a : Prog Op Reply ε α) = .ret a := rfl

@[simp] theorem bind_eq (p : Prog Op Reply ε α) (f : α → Prog Op Reply ε β) :
    (p >>= f) = p.bind f := rfl

@[simp] theorem ret_bind (a : α) (f : α → Prog Op Reply ε β) :
    (Prog.ret a : Prog Op Reply ε α).bind f = f a := rfl

@[simp] theorem fail_bind (e : ε) (f : α → Prog Op Reply ε β) :
    (Prog.fail e : Prog Op Reply ε α).bind f = .fail e := rfl

/-! ## Properties a program inherits from its parts -/

/-- A property of programs that holds of a composed program when it holds of its parts. -/
structure Composes (J : (α : Type) → Prog Op Reply ε α → Prop) : Prop where
  pure : ∀ {α : Type} (a : α), J α (.ret a)
  raise : ∀ {α : Type} (e : ε), J α (.fail e)
  bind : ∀ {α β : Type} {p : Prog Op Reply ε α} {f : α → Prog Op Reply ε β},
    J α p → (∀ a, J β (f a)) → J β (p >>= f)
  tryCatch : ∀ {α : Type} {p : Prog Op Reply ε α} {handler : ε → Prog Op Reply ε α},
    J α p → (∀ e, J α (handler e)) → J α (p.tryCatch handler)

namespace Composes

variable {J : (α : Type) → Prog Op Reply ε α → Prop}

theorem attempt (hJ : Composes J) {p : Prog Op Reply ε α} (hp : J α p) : J _ p.attempt :=
  hJ.tryCatch (hJ.bind hp fun a => hJ.pure (Except.ok a)) fun e => hJ.pure (Except.error e)

theorem tryFinally (hJ : Composes J) {p : Prog Op Reply ε α} {finalizer : Prog Op Reply ε Unit}
    (hp : J α p) (hfinalizer : J Unit finalizer) : J α (p.tryFinally finalizer) := by
  refine hJ.bind (hJ.attempt hp) fun result => hJ.bind hfinalizer fun _ => ?_
  cases result with
  | ok a => exact hJ.pure a
  | error e => exact hJ.raise e

theorem when (hJ : Composes J) {condition : Bool} {p : Prog Op Reply ε Unit}
    (hp : condition = true → J Unit p) : J Unit (Prog.when condition p) := by
  cases condition with
  | false => exact hJ.pure ()
  | true => exact hp rfl

theorem ite {condition : Prop} [Decidable condition] {p q : Prog Op Reply ε α} (hp : J α p)
    (hq : J α q) : J α (if condition then p else q) := by
  split
  · exact hp
  · exact hq

theorem fails (hJ : Composes J) {p : Prog Op Reply ε Unit} (hp : J Unit p) : J Bool p.fails :=
  hJ.tryCatch (hJ.bind hp fun _ => hJ.pure false) fun _ => hJ.pure true

theorem failsWhen (hJ : Composes J) {condition : Bool} {p : Prog Op Reply ε Unit}
    (hp : condition = true → J Unit p) : J Bool (Prog.failsWhen condition p) := by
  cases condition with
  | false => exact hJ.pure false
  | true => exact hJ.fails (hp rfl)

theorem forEach (hJ : Composes J) {l : List β} {body : β → Prog Op Reply ε Unit}
    (hbody : ∀ b ∈ l, J Unit (body b)) : J Unit (Prog.forEach l body) := by
  induction l with
  | nil => exact hJ.pure ()
  | cons b l ih =>
    exact hJ.bind (hbody b (by simp)) fun _ => ih fun c hc => hbody c (List.mem_cons_of_mem _ hc)

theorem foldM (hJ : Composes J) {l : List β} {body : α → β → Prog Op Reply ε α} {a : α}
    (hbody : ∀ a, ∀ b ∈ l, J α (body a b)) : J α (Prog.foldM l body a) := by
  induction l generalizing a with
  | nil => exact hJ.pure a
  | cons b l ih =>
    exact hJ.bind (hbody a b (by simp)) fun _ =>
      ih fun a c hc => hbody a c (List.mem_cons_of_mem _ hc)

theorem findM (hJ : Composes J) {l : List β} {body : β → Prog Op Reply ε (Option α)}
    (hbody : ∀ b ∈ l, J _ (body b)) : J _ (Prog.findM l body) := by
  induction l with
  | nil => exact hJ.pure none
  | cons b l ih =>
    refine hJ.bind (hbody b (by simp)) fun result => ?_
    cases result with
    | some a => exact hJ.pure (some a)
    | none => exact ih fun c hc => hbody c (List.mem_cons_of_mem _ hc)

end Composes

end Prog

end Effects

import BucketReef.Effects.Program

/-!
# Rely and guarantee for programs with operations

A machine says what each operation does to a world the threads share and to the session of the
thread that calls it, for every choice of the environment. `wp` is the weakest precondition of a
program whose operations interleave with steps of the environment: before each operation the world
moves along `rely`; the operation must meet its requirement there and keep the invariant.
-/

namespace Effects

/-- What an operation does, given the environment's choice. -/
structure Machine (Op : Type) (Reply : Op → Type) (ε World Session Choice : Type) where
  exec : (op : Op) → Choice → World → Session → World × Session × Except ε (Reply op)

/-- What a program may rely on and has to guarantee. An operation at which `allowed` fails is not
considered: it restricts the runs a result is about. -/
structure Rules (Op World Session : Type) where
  rely : World → World → Prop
  inv : World → Prop
  allowed : Op → World → Session → Prop
  require : Op → World → Session → Prop
  rely_refl : ∀ w, rely w w
  rely_trans : ∀ {w₁ w₂ w₃}, rely w₁ w₂ → rely w₂ w₃ → rely w₁ w₃

section Wp

variable {Op : Type} {Reply : Op → Type} {ε World Session Choice α β : Type}
variable (M : Machine Op Reply ε World Session Choice) (R : Rules Op World Session)

/-- The operation is safe here, and every outcome of it continues as `next` says. -/
def Step (op : Op) (next : Except ε (Reply op) → World → Session → Prop) (w : World) (s : Session) :
    Prop :=
  R.require op w s ∧ (R.allowed op w s → ∀ choice,
    R.inv (M.exec op choice w s).1 ∧
      next (M.exec op choice w s).2.2 (M.exec op choice w s).1 (M.exec op choice w s).2.1)

/-- The weakest precondition of a program for its results and its errors. -/
def wp : Prog Op Reply ε α → (α → World → Session → Prop) → (ε → World → Session → Prop) →
    World → Session → Prop
  | .ret a, onRet, _ => onRet a
  | .fail e, _, onFail => onFail e
  | .call op next, onRet, onFail => fun w s =>
    ∀ w', R.rely w w' → R.inv w' →
      Step M R op (fun reply => wp (next reply) onRet onFail) w' s

/-- An assertion no step of the environment breaks. -/
def Stable (A : World → Session → Prop) : Prop :=
  ∀ w w' s, A w s → R.rely w w' → R.inv w' → A w' s

variable {M R}

@[simp] theorem wp_ret (a : α) (onRet : α → World → Session → Prop)
    (onFail : ε → World → Session → Prop) (w : World) (s : Session) :
    wp M R (.ret a : Prog Op Reply ε α) onRet onFail w s ↔ onRet a w s := Iff.rfl

@[simp] theorem wp_fail (e : ε) (onRet : α → World → Session → Prop)
    (onFail : ε → World → Session → Prop) (w : World) (s : Session) :
    wp M R (.fail e : Prog Op Reply ε α) onRet onFail w s ↔ onFail e w s := Iff.rfl

theorem Step.mono {op : Op} {next next' : Except ε (Reply op) → World → Session → Prop} {w : World}
    {s : Session} (h : Step M R op next w s)
    (hnext : ∀ reply w s, next reply w s → next' reply w s) : Step M R op next' w s :=
  ⟨h.1, fun hallowed choice => ⟨(h.2 hallowed choice).1, hnext _ _ _ (h.2 hallowed choice).2⟩⟩

theorem wp_mono {p : Prog Op Reply ε α} {onRet onRet' : α → World → Session → Prop}
    {onFail onFail' : ε → World → Session → Prop} {w : World} {s : Session}
    (h : wp M R p onRet onFail w s) (hret : ∀ a w s, onRet a w s → onRet' a w s)
    (hfail : ∀ e w s, onFail e w s → onFail' e w s) : wp M R p onRet' onFail' w s := by
  induction p generalizing w s with
  | ret a => exact hret a w s h
  | fail e => exact hfail e w s h
  | call op next ih =>
    intro w' hrely hinv
    exact (h w' hrely hinv).mono fun reply w s => ih reply

/-- What two proofs show about one program holds together. -/
theorem wp_and {p : Prog Op Reply ε α} {onRet onRet' : α → World → Session → Prop}
    {onFail onFail' : ε → World → Session → Prop} {w : World} {s : Session}
    (h : wp M R p onRet onFail w s) (h' : wp M R p onRet' onFail' w s) :
    wp M R p (fun a w s => onRet a w s ∧ onRet' a w s) (fun e w s => onFail e w s ∧ onFail' e w s)
      w s := by
  induction p generalizing w s with
  | ret a => exact ⟨h, h'⟩
  | fail e => exact ⟨h, h'⟩
  | call op next ih =>
    intro w' hrely hinv
    obtain ⟨hrequire, hstep⟩ := h w' hrely hinv
    obtain ⟨-, hstep'⟩ := h' w' hrely hinv
    refine ⟨hrequire, fun hallowed choice => ⟨(hstep hallowed choice).1, ?_⟩⟩
    exact ih _ (hstep hallowed choice).2 (hstep' hallowed choice).2

theorem wp_bind {p : Prog Op Reply ε α} {f : α → Prog Op Reply ε β}
    {onRet : β → World → Session → Prop} {onFail : ε → World → Session → Prop} {w : World}
    {s : Session} (h : wp M R p (fun a => wp M R (f a) onRet onFail) onFail w s) :
    wp M R (p.bind f) onRet onFail w s := by
  induction p generalizing w s with
  | ret a => exact h
  | fail e => exact h
  | call op next ih =>
    intro w' hrely hinv
    exact (h w' hrely hinv).mono fun reply w s => ih reply

theorem wp_tryCatch {p : Prog Op Reply ε α} {handler : ε → Prog Op Reply ε α}
    {onRet : α → World → Session → Prop} {onFail : ε → World → Session → Prop} {w : World}
    {s : Session} (h : wp M R p onRet (fun e => wp M R (handler e) onRet onFail) w s) :
    wp M R (p.tryCatch handler) onRet onFail w s := by
  induction p generalizing w s with
  | ret a => exact h
  | fail e => exact h
  | call op next ih =>
    intro w' hrely hinv
    exact (h w' hrely hinv).mono fun reply w s => ih reply

theorem wp_fails {p : Prog Op Reply ε Unit} {onRet : Bool → World → Session → Prop}
    {onFail : ε → World → Session → Prop} {w : World} {s : Session}
    (h : wp M R p (fun _ => onRet false) (fun _ => onRet true) w s) : wp M R p.fails onRet onFail w s :=
  wp_tryCatch (wp_bind h)

theorem wp_attempt {p : Prog Op Reply ε α} {onRet : Except ε α → World → Session → Prop}
    {onFail : ε → World → Session → Prop} {w : World} {s : Session}
    (h : wp M R p (fun a => onRet (.ok a)) (fun e => onRet (.error e)) w s) :
    wp M R p.attempt onRet onFail w s :=
  wp_tryCatch (wp_bind h)

theorem wp_tryFinally {p : Prog Op Reply ε α} {finalizer : Prog Op Reply ε Unit}
    {onRet : α → World → Session → Prop} {onFail : ε → World → Session → Prop} {w : World}
    {s : Session}
    (h : wp M R p (fun a => wp M R finalizer (fun _ => onRet a) onFail)
      (fun e => wp M R finalizer (fun _ => onFail e) onFail) w s) :
    wp M R (p.tryFinally finalizer) onRet onFail w s := by
  refine wp_bind (wp_attempt ?_)
  refine wp_mono h ?_ ?_
  · intro a w s hfinalizer
    exact wp_bind hfinalizer
  · intro e w s hfinalizer
    exact wp_bind hfinalizer

/-- The environment may move first. -/
theorem wp_rely {p : Prog Op Reply ε α} {onRet : α → World → Session → Prop}
    {onFail : ε → World → Session → Prop} {w w' : World} {s : Session}
    (hret : ∀ a, Stable R (onRet a)) (hfail : ∀ e, Stable R (onFail e))
    (h : wp M R p onRet onFail w s) (hrely : R.rely w w') (hinv : R.inv w') :
    wp M R p onRet onFail w' s := by
  cases p with
  | ret a => exact hret a w w' s h hrely hinv
  | fail e => exact hfail e w w' s h hrely hinv
  | call op next => exact fun w'' hrely' hinv' => h w'' (R.rely_trans hrely hrely') hinv'

/-- One operation, called where a stable assertion holds. -/
theorem wp_perform {op : Op} {A : World → Session → Prop}
    {onRet : Reply op → World → Session → Prop} {onFail : ε → World → Session → Prop} {w : World}
    {s : Session} (hA : A w s) (hstable : Stable R A)
    (h : ∀ w s, A w s → R.inv w → Step M R op (fun
      | .ok a => onRet a
      | .error e => onFail e) w s) :
    wp M R (Prog.perform op) onRet onFail w s := by
  intro w' hrely hinv
  refine (h w' s (hstable w w' s hA hrely hinv) hinv).mono ?_
  rintro (e | a) w s hnext
  · exact hnext
  · exact hnext

/-- The step of an operation, by its replies and its errors. -/
theorem step_of_exec {op : Op} {onRet : Reply op → World → Session → Prop}
    {onFail : ε → World → Session → Prop} {w : World} {s : Session} (hrequire : R.require op w s)
    (hinv : R.allowed op w s → ∀ choice, R.inv (M.exec op choice w s).1)
    (hret : R.allowed op w s → ∀ choice a, (M.exec op choice w s).2.2 = .ok a →
      onRet a (M.exec op choice w s).1 (M.exec op choice w s).2.1)
    (hfail : R.allowed op w s → ∀ choice e, (M.exec op choice w s).2.2 = .error e →
      onFail e (M.exec op choice w s).1 (M.exec op choice w s).2.1) :
    Step M R op (fun
      | .ok a => onRet a
      | .error e => onFail e) w s := by
  refine ⟨hrequire, fun hallowed choice => ⟨hinv hallowed choice, ?_⟩⟩
  have hok := hret hallowed choice
  have herror := hfail hallowed choice
  rcases hexec : M.exec op choice w s with ⟨w', s', reply⟩
  rw [hexec] at hok herror
  cases reply with
  | error e => exact herror e rfl
  | ok a => exact hok a rfl

/-- A guard: the program goes on only where the condition fails. -/
theorem wp_guard {condition : Bool} {e : ε} {onRet : Unit → World → Session → Prop}
    {onFail : ε → World → Session → Prop} {w : World} {s : Session}
    (hret : condition = false → onRet () w s) (hfail : condition = true → onFail e w s) :
    wp M R (Prog.when condition (Prog.raise e)) onRet onFail w s := by
  cases condition with
  | false => exact hret rfl
  | true => exact hfail rfl

/-! ## Assertions a program keeps -/

variable (M R) in
/-- The program keeps the assertion, whether it returns or fails. -/
def Keeps (A : World → Session → Prop) (α : Type) (p : Prog Op Reply ε α) : Prop :=
  ∀ w s, A w s → wp M R p (fun _ => A) (fun _ => A) w s

theorem keeps_composes (A : World → Session → Prop) : Prog.Composes (Keeps M R A) where
  pure _ _ _ hA := hA
  raise _ _ _ hA := hA
  bind hp hf w s hA := wp_bind (wp_mono (hp w s hA) (fun a w s => hf a w s) fun _ _ _ h => h)
  tryCatch hp hhandler w s hA :=
    wp_tryCatch (wp_mono (hp w s hA) (fun _ _ _ h => h) fun e w s => hhandler e w s)

/-- An operation keeps a stable assertion if every outcome of it does. -/
theorem keeps_perform {op : Op} {A : World → Session → Prop} (hstable : Stable R A)
    (h : ∀ w s, A w s → R.inv w → Step M R op (fun _ => A) w s) :
    Keeps M R A _ (Prog.perform op : Prog Op Reply ε _) := by
  intro w s hA
  refine wp_perform hA hstable fun w s hA hinv => (h w s hA hinv).mono ?_
  rintro (e | a) w s hA
  · exact hA
  · exact hA

end Wp

end Effects

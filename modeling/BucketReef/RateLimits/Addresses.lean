import BucketReef.RateLimits.Bound

/-!
# The rows of an address

A successful login clears the rows of its account and address, never those of the address alone. So the
rows of an address count every failure recorded from it, in every run.
-/

namespace BucketReef
namespace RateLimit

open Transitions

variable {ι : Type} {service : AuthRateLimitService} {s s' : State ι} {p : ι}
  {ipAddress : String}

/-- A failed login from the address, recorded in the window. -/
def isFailure (ipAddress : String) (window : ℕ) : Event → Bool
  | .failed attempt window' => attempt.ipAddress = ipAddress && window' = window
  | _ => false

/-- No row of the address is deleted. -/
def Uncleared (ipAddress : String) (history : List Event) : Prop :=
  ∀ windows, Event.cleared (.ip ipAddress) windows ∉ history

theorem ip_mem_keys {attempt : AuthAttemptContext} :
    Key.ip ipAddress ∈ service.keys attempt ↔ attempt.ipAddress = ipAddress := by
  simp [AuthRateLimitService.keys, AuthRateLimitService.accountKey, eq_comm]

/-- A history that clears no row of the address counts all its failures. -/
theorem failures_ip {history : List Event} (huncleared : Uncleared ipAddress history) (window : ℕ) :
    failures service (.ip ipAddress) window history = history.countP (isFailure ipAddress window) := by
  induction history with
  | nil => rfl
  | cons event history ih =>
    have hrest := ih fun windows hmem => huncleared windows (List.mem_cons_of_mem _ hmem)
    cases event with
    | refused attempt retryAfter =>
      rw [List.countP_cons_of_neg (by simp [isFailure])]
      exact hrest
    | failed attempt window' =>
      simp only [failures, ip_mem_keys, hrest, List.countP_cons, isFailure, Bool.and_eq_true,
        decide_eq_true_eq]
      split <;> rfl
    | cleared key windows =>
      rw [List.countP_cons_of_neg (by simp [isFailure]), ← hrest]
      refine if_neg fun hrow => huncleared windows ?_
      rw [hrow.1]
      exact List.mem_cons_self

theorem failures_le_cons {event : Event} {history : List Event}
    (hevent : ∀ windows, event ≠ .cleared (.ip ipAddress) windows) (window : ℕ) :
    failures service (.ip ipAddress) window history ≤
      failures service (.ip ipAddress) window (event :: history) := by
  cases event with
  | refused attempt retryAfter => exact le_rfl
  | failed attempt window' =>
    simp only [failures]
    split <;> omega
  | cleared key windows =>
    refine le_of_eq (if_neg fun hrow => hevent windows ?_).symm
    rw [hrow.1]

/-! ## What a step leaves of an address -/

/-- No deletion of its rows is committed, and a handler updates again only what it has found. -/
structure Keeps (ipAddress : String) (s s' : State ι) : Prop where
  history : s'.history = s.history ∨ ∃ event, s'.history = event :: s.history ∧
    ∀ windows, event ≠ .cleared (.ip ipAddress) windows
  found : ∀ q attempt window todo,
    s'.phase q = .updatingAgain attempt window (.ip ipAddress) todo →
    s.phase q = .updatingAgain attempt window (.ip ipAddress) todo ∨
      s.attempts (.ip ipAddress) window ≠ none

theorem Keeps.uncleared (h : Keeps ipAddress s s') (huncleared : Uncleared ipAddress s.history) :
    Uncleared ipAddress s'.history := by
  intro windows hmem
  obtain heq | ⟨event, heq, hevent⟩ := h.history
  · rw [heq] at hmem
    exact huncleared windows hmem
  · rw [heq, List.mem_cons] at hmem
    obtain hhead | htail := hmem
    · exact hevent windows hhead.symm
    · exact huncleared windows htail

theorem Keeps.mono (h : Keeps ipAddress s s') (window : ℕ) :
    failures service (.ip ipAddress) window s.history ≤
      failures service (.ip ipAddress) window s'.history := by
  obtain heq | ⟨event, heq, hevent⟩ := h.history
  · rw [heq]
  · rw [heq]
    exact failures_le_cons hevent window

variable [DecidableEq ι]

theorem found_update {next : Phase}
    (hnext : ∀ attempt window todo, next = .updatingAgain attempt window (.ip ipAddress) todo →
      s.attempts (.ip ipAddress) window ≠ none) (q : ι) (attempt : AuthAttemptContext) (window : ℕ)
    (todo : List Key)
    (h : Function.update s.phase p next q = .updatingAgain attempt window (.ip ipAddress) todo) :
    s.phase q = .updatingAgain attempt window (.ip ipAddress) todo ∨
      s.attempts (.ip ipAddress) window ≠ none := by
  by_cases hq : q = p
  · subst hq
    rw [Function.update_self] at h
    exact .inr (hnext _ _ _ h)
  · rw [Function.update_of_ne hq] at h
    exact .inl h

theorem keeps_goto {next : Phase}
    (hnext : ∀ attempt window todo, next = .updatingAgain attempt window (.ip ipAddress) todo →
      s.attempts (.ip ipAddress) window ≠ none) : Keeps ipAddress s (s.goto p next) where
  history := .inl rfl
  found := found_update hnext

theorem keeps_write {key : Key} {window : ℕ} {value : Option ℕ} {next : Phase}
    (hnext : ∀ attempt window key todo, next ≠ .updatingAgain attempt window key todo)
    (hwrite : s.write p key window value next = some s') : Keeps ipAddress s s' := by
  unfold State.write at hwrite
  split at hwrite
  · cases hwrite
  · cases hwrite
    exact ⟨.inl rfl, found_update fun _ _ _ h => absurd h (hnext _ _ _ _)⟩

theorem keeps_commit {event : Event} (hevent : ∀ windows, event ≠ .cleared (.ip ipAddress) windows) :
    Keeps ipAddress s (s.commit p event) where
  history := .inr ⟨event, rfl, hevent⟩
  found := found_update fun _ _ _ h => by cases h

theorem advance_keeps {authenticated : Bool} {phase : Phase}
    (hstep : service.advance s p authenticated phase = some s') : Keeps ipAddress s s' := by
  cases phase with
  | idle => simp [AuthRateLimitService.advance] at hstep
  | checking attempt now todo =>
    cases todo with
    | nil =>
      cases hstep
      exact keeps_goto fun _ _ _ h => by cases h
    | cons key todo =>
      simp only [AuthRateLimitService.advance, Option.some.injEq] at hstep
      split at hstep
      · subst hstep
        exact keeps_commit fun _ h => by cases h
      · subst hstep
        exact keeps_goto fun _ _ _ h => by cases h
  | authenticating attempt now =>
    simp only [AuthRateLimitService.advance, Option.some.injEq] at hstep
    split at hstep
    · subst hstep
      exact keeps_goto fun _ _ _ h => by cases h
    · subst hstep
      exact keeps_goto fun _ _ _ h => by cases h
  | recording attempt window todo =>
    cases todo with
    | nil =>
      cases hstep
      exact keeps_commit fun _ h => by cases h
    | cons key todo =>
      simp only [AuthRateLimitService.advance] at hstep
      split at hstep
      · cases hstep
        exact keeps_goto fun _ _ _ h => by cases h
      · exact keeps_write (fun _ _ _ _ h => by cases h) hstep
  | inserting attempt window key todo =>
    simp only [AuthRateLimitService.advance] at hstep
    split at hstep
    · rename_i n hdraft hrow
      cases hstep
      refine keeps_goto fun attempt' window' todo' h => ?_
      -- the row that made the insertion fail is the one to update
      cases h
      rw [hrow]
      exact Option.some_ne_none n
    · exact keeps_write (fun _ _ _ _ h => by cases h) hstep
  | updatingAgain attempt window key todo =>
    simp only [AuthRateLimitService.advance] at hstep
    split at hstep
    · cases hstep
      exact keeps_goto fun _ _ _ h => by cases h
    · exact keeps_write (fun _ _ _ _ h => by cases h) hstep
  | clearing attempt todo cleared =>
    cases todo with
    | nil =>
      cases hstep
      exact keeps_commit fun _ h => by cases h
    | cons window todo =>
      simp only [AuthRateLimitService.advance] at hstep
      split at hstep
      · cases hstep
        exact keeps_goto fun _ _ _ h => by cases h
      · exact keeps_write (fun _ _ _ _ h => by cases h) hstep

theorem step_keeps {label : Label ι} (hstep : step service s label = some s') :
    Keeps ipAddress s s' := by
  cases label with
  | tick elapsed =>
    cases hstep
    exact ⟨.inl rfl, fun _ _ _ _ h => .inl h⟩
  | login p attempt =>
    simp only [step, Option.ite_none_right_eq_some, Option.some.injEq] at hstep
    obtain ⟨-, rfl⟩ := hstep
    exact keeps_goto fun _ _ _ h => by cases h
  | advance p authenticated => exact advance_keeps hstep
  | fail p =>
    cases hstep
    exact ⟨.inl rfl, found_update fun _ _ _ h => by cases h⟩

/-! ## Whole runs -/

/-- The invariant of the rows of an address, in every run. -/
structure AddressInv [Fintype ι] (service : AuthRateLimitService) (ipAddress : String)
    (s : State ι) : Prop where
  inv : Inv service (.ip ipAddress) s
  uncleared : Uncleared ipAddress s.history
  present : ∀ q attempt window todo,
    s.phase q = .updatingAgain attempt window (.ip ipAddress) todo →
    s.attempts (.ip ipAddress) window ≠ none

variable [Fintype ι]

omit [DecidableEq ι] in
theorem AddressInv.findsRow (h : AddressInv service ipAddress s) (label : Label ι) :
    findsRow (.ip ipAddress) s label = true := by
  cases label with
  | advance p authenticated => exact findsRow_advance.mpr (h.present p)
  | tick elapsed => rfl
  | login p attempt => rfl
  | fail p => rfl

theorem step_addressInv {label : Label ι} (h : AddressInv service ipAddress s)
    (hstep : step service s label = some s') : AddressInv service ipAddress s' := by
  have hkeeps : Keeps ipAddress s s' := step_keeps hstep
  have hinv : Inv service (.ip ipAddress) s' := step_inv h.inv (h.findsRow label) hstep
  refine ⟨hinv, hkeeps.uncleared h.uncleared, fun q attempt window todo hphase hnone => ?_⟩
  have hpresent : s.attempts (.ip ipAddress) window ≠ none :=
    (hkeeps.found q attempt window todo hphase).elim (h.present q attempt window todo) id
  rw [hinv.counted, stored_eq_none] at hnone
  rw [h.inv.counted, Ne, stored_eq_none] at hpresent
  have hmono : failures service (.ip ipAddress) window s.history ≤
      failures service (.ip ipAddress) window s'.history := hkeeps.mono window
  omega

theorem addressInv_of_reached {clock : ℕ}
    (h : Reached (step service) anyStep (State.init clock) s) : AddressInv service ipAddress s := by
  refine h.invariant ⟨inv_init clock, fun _ hmem => ?_, fun _ _ _ _ hphase => ?_⟩
    fun _ _ _ hinv _ hstep => step_addressInv hinv hstep
  · cases hmem
  · cases hphase

/-- In every run, the row of an address counts every failure recorded from it in the window, and at most
one failure for each handler exceeds the last allowed one. -/
theorem address_failures_bounded {clock : ℕ}
    (h : Reached (step service) anyStep (State.init clock) s) (ipAddress : String) (window : ℕ) :
    s.attempts (.ip ipAddress) window = stored (s.history.countP (isFailure ipAddress window)) ∧
      s.history.countP (isFailure ipAddress window) ≤
        service.loginRateLimitMaxAttempts * 5 - 1 + Fintype.card ι := by
  have haddress : AddressInv service ipAddress s := addressInv_of_reached h
  have hcounted := haddress.inv.counted window
  have hbounded := haddress.inv.bounded window
  rw [failures_ip haddress.uncleared] at hcounted hbounded
  exact ⟨hcounted, (Nat.le_add_right _ _).trans hbounded⟩

/-- The two guesses are of one address. -/
theorem address_failures_bounded_twoGuesses :
    ∃ s, after (step strict) (State.init 0) twoGuesses = some s ∧
      s.attempts (.ip "b") 0 = some 2 ∧ s.history.countP (isFailure "b" 0) ≤ 1 * 5 - 1 + 2 :=
  ⟨_, rfl, rfl, (address_failures_bounded (Reached.after .init (show after (step strict)
    (State.init 0) twoGuesses = some _ from rfl)) "b" 0).2⟩

end RateLimit
end BucketReef

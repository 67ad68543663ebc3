import BucketReef.Effects.Transitions
import Mathlib.Logic.Function.Basic

/-!
# Counting failed logins

`AuthRateLimitService` between the check and the answer of a login, one SQL statement at a time, as
any number of handlers run it on one table. A statement reads what is committed; one that writes a row
waits for the handler that has an uncommitted write of it. The clock counts seconds.
-/

namespace BucketReef
namespace RateLimit

open Transitions

/-- `bucket_key`. The digest of its parts is taken to differ where the parts do. -/
inductive Key
  | accountIp (account ipAddress : String)
  | ip (ipAddress : String)
  deriving DecidableEq, Repr

structure AuthAttemptContext where
  accountKey : String
  ipAddress : String
  deriving DecidableEq, Repr

/-- The settings the service reads, with their bounds, and `str.lower`. -/
structure AuthRateLimitService where
  loginRateLimitWindowSeconds : ℕ
  loginRateLimitMaxAttempts : ℕ
  lower : String → String
  windowSeconds_pos : 1 ≤ loginRateLimitWindowSeconds
  maxAttempts_pos : 1 ≤ loginRateLimitMaxAttempts

namespace AuthRateLimitService

variable (service : AuthRateLimitService)

def windowStart (now : ℕ) : ℕ := now - now % service.loginRateLimitWindowSeconds

/-- The key that `clear_account` deletes. -/
def accountKey (attempt : AuthAttemptContext) : Key :=
  .accountIp (service.lower attempt.accountKey) attempt.ipAddress

/-- The keys that `check` and `record_failure` go through. -/
def keys (attempt : AuthAttemptContext) : List Key :=
  [service.accountKey attempt, .ip attempt.ipAddress]

def maximum : Key → ℕ
  | .accountIp _ _ => service.loginRateLimitMaxAttempts
  | .ip _ => service.loginRateLimitMaxAttempts * 5

/-- `LoginRateLimitedError.retry_after`. -/
def retryAfter (now : ℕ) : ℕ :=
  max 1 (service.loginRateLimitWindowSeconds - (now - service.windowStart now))

theorem windowStart_eq (now : ℕ) :
    service.windowStart now =
      service.loginRateLimitWindowSeconds * (now / service.loginRateLimitWindowSeconds) := by
  have h := Nat.div_add_mod now service.loginRateLimitWindowSeconds
  unfold windowStart
  omega

theorem windowStart_mono {now later : ℕ} (h : now ≤ later) :
    service.windowStart now ≤ service.windowStart later := by
  rw [windowStart_eq, windowStart_eq]
  exact Nat.mul_le_mul_left _ (Nat.div_le_div_right h)

end AuthRateLimitService

/-- What a handler has committed or answered. -/
inductive Event
  | refused (attempt : AuthAttemptContext) (retryAfter : ℕ)
  | failed (attempt : AuthAttemptContext) (window : ℕ)
  /-- The windows whose rows of the key were deleted. -/
  | cleared (key : Key) (windows : List ℕ)
  deriving DecidableEq, Repr

/-- The next statement of a handler. -/
inductive Phase
  | idle
  /-- `check`, which read the clock at `now`. -/
  | checking (attempt : AuthAttemptContext) (now : ℕ) (todo : List Key)
  /-- The proof of identity, after the check of `now`. -/
  | authenticating (attempt : AuthAttemptContext) (now : ℕ)
  /-- The first update of each key of `record_failure`, then its commit. -/
  | recording (attempt : AuthAttemptContext) (window : ℕ) (todo : List Key)
  /-- The insertion under a savepoint, where the update matched no row. -/
  | inserting (attempt : AuthAttemptContext) (window : ℕ) (key : Key) (todo : List Key)
  /-- The update after an `IntegrityError`. -/
  | updatingAgain (attempt : AuthAttemptContext) (window : ℕ) (key : Key) (todo : List Key)
  /-- The deletion of `clear_account`, row by row, then its commit. -/
  | clearing (attempt : AuthAttemptContext) (todo cleared : List ℕ)
  deriving DecidableEq, Repr

structure State (ι : Type) where
  clock : ℕ
  /-- The committed `attempts`, by `bucket_key` and `window_started_at`. -/
  attempts : Key → ℕ → Option ℕ
  /-- The handler with an uncommitted write of the row, and the row it wrote. -/
  draft : Key → ℕ → Option (ι × Option ℕ)
  phase : ι → Phase
  /-- The last event first. -/
  history : List Event

variable {ι : Type} [DecidableEq ι]

namespace State

variable (s : State ι) (p : ι)

def init (clock : ℕ) : State ι where
  clock := clock
  attempts := fun _ _ => none
  draft := fun _ _ => none
  phase := fun _ => .idle
  history := []

def goto (next : Phase) : State ι := { s with phase := Function.update s.phase p next }

/-- The handler writes a row, unless it has to wait for another. -/
def write (key : Key) (window : ℕ) (value : Option ℕ) (next : Phase) : Option (State ι) :=
  match s.draft key window with
  | some _ => none
  | none => some { s.goto p next with
      draft := Function.update s.draft key (Function.update (s.draft key) window (some (p, value))) }

def rollback : State ι :=
  { s.goto p .idle with
    draft := fun key window => (s.draft key window).filter fun held => held.1 ≠ p }

/-- What the handler wrote becomes visible. -/
def commit (event : Event) : State ι :=
  { s.rollback p with
    attempts := fun key window =>
      match s.draft key window with
      | some (q, value) => if q = p then value else s.attempts key window
      | none => s.attempts key window
    history := event :: s.history }

end State

namespace AuthRateLimitService

variable (service : AuthRateLimitService) (s : State ι)

/-- The next statement of a handler; `authenticated` is what the proof of identity says. -/
def advance (p : ι) (authenticated : Bool) : Phase → Option (State ι)
  | .idle => none
  | .checking attempt now [] => some (s.goto p (.authenticating attempt now))
  | .checking attempt now (key :: todo) =>
    some (if (s.attempts key (service.windowStart now)).any fun n => service.maximum key ≤ n then
        s.commit p (.refused attempt (service.retryAfter now))
      else s.goto p (.checking attempt now todo))
  | .authenticating attempt _ =>
    -- no row is of a window that has not started
    some (if authenticated then
        s.goto p (.clearing attempt ((List.range (s.clock + 1)).filter fun window =>
          (s.attempts (service.accountKey attempt) window).isSome) [])
      else s.goto p (.recording attempt (service.windowStart s.clock) (service.keys attempt)))
  | .recording attempt window [] => some (s.commit p (.failed attempt window))
  | .recording attempt window (key :: todo) =>
    match s.attempts key window with
    | none => some (s.goto p (.inserting attempt window key todo))
    | some n => s.write p key window (some (n + 1)) (.recording attempt window todo)
  | .inserting attempt window key todo =>
    match s.draft key window, s.attempts key window with
    | none, some _ => some (s.goto p (.updatingAgain attempt window key todo))
    | _, _ => s.write p key window (some 1) (.recording attempt window todo)
  | .updatingAgain attempt window key todo =>
    match s.attempts key window with
    | none => some (s.goto p (.recording attempt window todo))
    | some n => s.write p key window (some (n + 1)) (.recording attempt window todo)
  | .clearing attempt [] cleared =>
    some (s.commit p (.cleared (service.accountKey attempt) cleared))
  | .clearing attempt (window :: todo) cleared =>
    match s.attempts (service.accountKey attempt) window with
    | none => some (s.goto p (.clearing attempt todo cleared))
    | some _ => s.write p (service.accountKey attempt) window none
        (.clearing attempt todo (window :: cleared))

end AuthRateLimitService

inductive Label (ι : Type)
  | tick (elapsed : ℕ)
  | login (p : ι) (attempt : AuthAttemptContext)
  | advance (p : ι) (authenticated : Bool)
  /-- The handler raises, or answers without counting or clearing. -/
  | fail (p : ι)

/-- One step of the clock or of one handler. -/
def step (service : AuthRateLimitService) (s : State ι) : Label ι → Option (State ι)
  | .tick elapsed => some { s with clock := s.clock + elapsed }
  | .login p attempt =>
    if s.phase p = .idle then some (s.goto p (.checking attempt s.clock (service.keys attempt)))
    else none
  | .advance p authenticated => service.advance s p authenticated (s.phase p)
  | .fail p => some (s.rollback p)

/-- The failures of a key and a window that are recorded and not cleared since. -/
def failures (service : AuthRateLimitService) (key : Key) (window : ℕ) : List Event → ℕ
  | [] => 0
  | .refused _ _ :: history => failures service key window history
  | .failed attempt window' :: history =>
    if key ∈ service.keys attempt ∧ window' = window then failures service key window history + 1
    else failures service key window history
  | .cleared key' windows :: history =>
    if key = key' ∧ window ∈ windows then 0 else failures service key window history

end RateLimit
end BucketReef

import BucketReef.Effects.Transitions
import Mathlib.Logic.Function.Basic

/-!
# The first administrator

`FirstAdminBootstrapService`, one SQL statement at a time, as any number of processes run it on an
empty or used database. What a statement writes stays invisible until its commit; another process that
would write the same row waits for it. A token stands for its digest, and the clock counts seconds.
-/

namespace BucketReef
namespace Bootstrap

open Transitions

/-- The singleton row of `first_admin_bootstrap`. -/
structure FirstAdminBootstrap where
  tokenDigest : Option ℕ := none
  expiresAt : Option ℕ := none
  consumedAt : Option ℕ := none
  deriving DecidableEq, Repr

structure Db where
  row : Option FirstAdminBootstrap
  /-- The users, by e-mail. -/
  users : List String
  deriving DecidableEq, Repr

/-- What a call has committed. -/
inductive Event
  | issued (token expiresAt : ℕ)
  /-- By `create_with_token` or `create_from_cli`, which read the clock at `now`. -/
  | created (token : Option ℕ) (email : String) (now : ℕ)
  deriving DecidableEq, Repr

/-- How a call ended: it returned what it has committed, or it raised, before its commit or after it. -/
inductive Outcome
  | returned (event : Event)
  | raised (committed : Option Event)
  deriving DecidableEq, Repr

def Event.apply (db : Db) : Event → Db
  | issued token expiresAt =>
    { db with row := some { db.row.getD {} with
      tokenDigest := some token, expiresAt := some expiresAt } }
  | created _ email now =>
    { row := some { db.row.getD {} with tokenDigest := none, consumedAt := some now }
      users := db.users ++ [email] }

/-- The next statement of a call. -/
inductive Phase
  | idle
  | issueUsers (ttlMinutes : ℕ)
  | issueRead (token expiresAt : ℕ)
  | issueWrite (rowFound : Bool) (token expiresAt : ℕ)
  | createUsers (email : String)
  | createRead (token : Option ℕ) (email : String) (now : ℕ)
  | createWrite (rowFound : Bool) (token : Option ℕ) (email : String) (now : ℕ)
  | insertUser (token : Option ℕ) (email : String) (now : ℕ)
  /-- The commit of what the call has written. -/
  | commit (event : Event)
  /-- The new user is read again, which may raise, and the audit entry is written, which may not. -/
  | audit (event : Event)
  deriving DecidableEq, Repr

structure State where
  clock : ℕ
  db : Db
  /-- The process with an uncommitted write of the row. -/
  lock : Option ℕ := none
  phase : ℕ → Phase := fun _ => .idle
  history : List Event := []
  /-- The ends of the calls, with their processes. -/
  outcomes : List (ℕ × Outcome) := []

namespace State

def goto (s : State) (p : ℕ) (phase : Phase) : State :=
  { s with phase := Function.update s.phase p phase }

/-- The process leaves its call; what it has written and not committed is rolled back. -/
def leave (s : State) (p : ℕ) : State :=
  { s.goto p .idle with lock := if s.lock = some p then none else s.lock }

def finish (s : State) (p : ℕ) (outcome : Outcome) : State :=
  { s.leave p with outcomes := s.outcomes ++ [(p, outcome)] }

/-- The call raises, and its transaction is rolled back. -/
def rollback (s : State) (p : ℕ) : State := s.finish p (.raised none)

/-- A statement that writes the row: it waits for another writer, and raises where it has no row to
write. -/
def write (s : State) (p : ℕ) (allowed : Bool) (next : Phase) : Option State :=
  if allowed = false then some (s.rollback p)
  else if s.lock = none then some { s.goto p next with lock := some p }
  else none

def commit (s : State) (p : ℕ) (event : Event) : State :=
  { s.goto p (.audit event) with
    lock := if s.lock = some p then none else s.lock
    db := event.apply s.db
    history := s.history ++ [event] }

end State

/-- The condition of the guarded updates, but for the token. -/
def Db.open (db : Db) : Bool :=
  (db.row.any fun row => row.consumedAt = none) && db.users.isEmpty

/-- `create_with_token` accepts the row. -/
def FirstAdminBootstrap.accepts (row : FirstAdminBootstrap) (token now : ℕ) : Bool :=
  row.tokenDigest = some token && row.consumedAt = none && row.expiresAt.any fun expiresAt => now < expiresAt

/-- The next statement of the call of `p`. -/
def advance (s : State) (p newToken : ℕ) : Phase → Option State
  | .idle => none
  | .issueUsers ttlMinutes =>
    some (if s.db.users.isEmpty then s.goto p (.issueRead newToken (s.clock + 60 * ttlMinutes))
      else s.rollback p)
  | .issueRead token expiresAt => some (s.goto p (.issueWrite s.db.row.isSome token expiresAt))
  | .issueWrite rowFound token expiresAt =>
    s.write p (if rowFound then s.db.open else s.db.row.isNone) (.commit (.issued token expiresAt))
  | .createUsers email =>
    some (if s.db.users.isEmpty then s.goto p (.createRead none email s.clock) else s.rollback p)
  | .createRead none email now => some (s.goto p (.createWrite s.db.row.isSome none email now))
  | .createRead (some token) email now =>
    some (if s.db.row.any fun row => row.accepts token now then
        s.goto p (.createWrite true (some token) email now)
      else s.rollback p)
  | .createWrite rowFound none email now =>
    s.write p (if rowFound then s.db.open else s.db.row.isNone) (.insertUser none email now)
  | .createWrite _ (some token) email now =>
    s.write p (s.db.open && s.db.row.any fun row => row.accepts token now)
      (.insertUser (some token) email now)
  | .insertUser token email now =>
    some (if email ∈ s.db.users then s.rollback p
      else s.goto p (.commit (.created token email now)))
  | .commit event => some (s.commit p event)
  | .audit event => some (s.finish p (.returned event))

inductive Label
  | tick (elapsed : ℕ)
  | issueToken (p ttlMinutes : ℕ)
  | createWithToken (p token : ℕ) (email : String)
  | createFromCli (p : ℕ) (email : String)
  /-- The next statement of `p`, with the token it draws. -/
  | advance (p newToken : ℕ)
  /-- The next statement of `p` fails. -/
  | fail (p : ℕ)
  | crash (p : ℕ)
  deriving DecidableEq, Repr

def start (s : State) (p : ℕ) (phase : Phase) : Option State :=
  if s.phase p = .idle then some (s.goto p phase) else none

def step (s : State) : Label → Option State
  | .tick elapsed => some { s with clock := s.clock + elapsed }
  | .issueToken p ttlMinutes =>
    if 1 ≤ ttlMinutes ∧ ttlMinutes ≤ 60 then start s p (.issueUsers ttlMinutes) else none
  | .createWithToken p token email => start s p (.createRead (some token) email s.clock)
  | .createFromCli p email => start s p (.createUsers email)
  | .advance p newToken => advance s p newToken (s.phase p)
  | .fail p =>
    match s.phase p with
    | .idle => none
    | .audit event => some (s.finish p (.raised (some event)))
    | _ => some (s.rollback p)
  | .crash p => some (s.leave p)

def State.init (clock : ℕ) (db : Db) : State := { clock := clock, db := db }

end Bootstrap
end BucketReef

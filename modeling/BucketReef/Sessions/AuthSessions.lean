import BucketReef.Effects.Transitions
import Mathlib.Logic.Function.Basic

/-!
# Refresh tokens and session revocation

`AuthSessionService`, one SQL statement at a time, as any number of transactions run it. A statement
reads committed rows; a row it writes stays locked until the transaction ends, and becomes visible with
the commit. A raw refresh token stands for its row. The S3 principal of a session is active or not as
its table says, which only this service's S3 part writes.
-/

namespace BucketReef
namespace Sessions

open Transitions

/-! ## Rows -/

structure User where
  isActive : Bool
  authVersion : ℕ
  deriving DecidableEq, Repr

structure AuthSession where
  /-- `none` for the session of an S3 principal. -/
  userId : Option ℕ
  authVersion : ℕ
  idleExpiresAt : ℕ
  absoluteExpiresAt : ℕ
  revokedAt : Option ℕ := none
  /-- The time of the commit that made the row visible; not a column. -/
  committedAt : ℕ := 0
  deriving DecidableEq, Repr

structure RefreshToken where
  familyId : ℕ
  authSessionId : ℕ
  expiresAt : ℕ
  usedAt : Option ℕ := none
  revokedAt : Option ℕ := none
  deriving DecidableEq, Repr

structure Db where
  users : ℕ → Option User
  sessions : ℕ → Option AuthSession
  tokens : ℕ → Option RefreshToken
  /-- The ids given out so far. -/
  tokenIds : List ℕ

inductive Row
  | user (id : ℕ)
  | session (id : ℕ)
  | token (id : ℕ)
  deriving DecidableEq, Repr

/-- What a statement writes to one row. -/
inductive Write
  | addSession (id : ℕ) (row : AuthSession)
  | addToken (id : ℕ) (row : RefreshToken)
  | useToken (id now : ℕ)
  | revokeToken (id now : ℕ)
  | revokeSession (id now : ℕ)
  | touchSession (id idleExpiresAt : ℕ)
  | setVersion (id version : ℕ)
  deriving DecidableEq, Repr

namespace Write

def row : Write → Row
  | addSession id _ | revokeSession id _ | touchSession id _ => .session id
  | addToken id _ | useToken id _ | revokeToken id _ => .token id
  | setVersion id _ => .user id

def setSession (db : Db) (id : ℕ) (f : AuthSession → AuthSession) : Db :=
  { db with sessions := Function.update db.sessions id ((db.sessions id).map f) }

def setToken (db : Db) (id : ℕ) (f : RefreshToken → RefreshToken) : Db :=
  { db with tokens := Function.update db.tokens id ((db.tokens id).map f) }

def setUser (db : Db) (id : ℕ) (f : User → User) : Db :=
  { db with users := Function.update db.users id ((db.users id).map f) }

/-- The write becomes visible. -/
def apply (time : ℕ) (db : Db) : Write → Db
  | addSession id row =>
    { db with sessions := Function.update db.sessions id (some { row with committedAt := time }) }
  | addToken id row =>
    { db with tokens := Function.update db.tokens id (some row), tokenIds := db.tokenIds ++ [id] }
  | useToken id now => setToken db id fun row => { row with usedAt := some now }
  | revokeToken id now => setToken db id fun row => { row with revokedAt := some now }
  | revokeSession id now =>
    setSession db id fun row => { row with revokedAt := some (row.revokedAt.getD now) }
  | touchSession id idleExpiresAt =>
    setSession db id fun row => { row with idleExpiresAt := idleExpiresAt }
  | setVersion id version => setUser db id fun row => { row with authVersion := version }

end Write

/-! ## Calls -/

structure Settings where
  idle : Option ℕ → ℕ
  absolute : ℕ

/-- A `rotate` that has read its token and session. -/
structure Rotation where
  startedAt : ℕ
  now : ℕ
  token : ℕ
  row : RefreshToken
  session : AuthSession
  deriving DecidableEq, Repr

/-- The next statement of a call. -/
inductive Phase
  | idle
  | createLoad (userId : ℕ)
  | createInsert (userId : Option ℕ) (authVersion now absolute : ℕ)
  | createCommit
  | rotateToken (startedAt now token : ℕ)
  | rotateSession (startedAt now token : ℕ) (row : RefreshToken)
  | rotatePrincipal (rotation : Rotation)
  | rotateClaim (rotation : Rotation)
  | rotateInsert (rotation : Rotation)
  | rotateTouch (rotation : Rotation)
  | rotateCommit (rotation : Rotation)
  | validateSession (startedAt now session : ℕ) (expectsUser : Bool)
  | validatePrincipal (startedAt now id : ℕ) (session : AuthSession)
  | validateTouch (startedAt now id : ℕ) (session : AuthSession)
  | validateCommit (startedAt id : ℕ) (session : AuthSession)
  | familySelect (family now : ℕ)
  | familyTokens (family now : ℕ) (sessions : List ℕ)
  | familySessions (now : ℕ) (sessions : List ℕ)
  | familyCommit (sessions : List ℕ)
  | revokeSession (session now : ℕ)
  | revokeSessionTokens (session now : ℕ)
  | revokeSessionCommit
  | allLoad (userId : ℕ) (incrementVersion : Bool)
  | allSelect (userId : ℕ) (version : Option ℕ) (now : ℕ)
  | allVersion (userId version now : ℕ) (sessions : List ℕ)
  | allSessions (userId : ℕ) (version : Option ℕ) (now : ℕ) (sessions : List ℕ)
  | allTokens (userId : ℕ) (version : Option ℕ) (now : ℕ) (sessions : List ℕ)
  | allCommit (userId : ℕ) (version : Option ℕ)
  deriving DecidableEq, Repr

/-- A rotate or a validate_access that succeeded. -/
structure Accepted where
  session : ℕ
  row : AuthSession
  startedAt : ℕ
  deriving DecidableEq, Repr

/-- A committed `revoke_all_for_user` with a new version. -/
structure RevokedAll where
  userId : ℕ
  time : ℕ
  version : ℕ
  deriving DecidableEq, Repr

structure State where
  /-- The number of steps so far, which orders all events. -/
  time : ℕ
  clock : ℕ
  db : Db
  nextId : ℕ
  /-- The transaction that wrote a row and has not ended. -/
  locks : Row → Option ℕ
  writes : ℕ → List Write
  phase : ℕ → Phase
  /-- What happened so far. -/
  rotated : List ℕ
  accepted : List Accepted
  familyRevoked : List (ℕ × ℕ)
  allRevoked : List RevokedAll

def State.init (users : ℕ → Option User) (clock : ℕ) : State where
  time := 0
  clock := clock
  db := ⟨users, fun _ => none, fun _ => none, []⟩
  nextId := 0
  locks := fun _ => none
  writes := fun _ => []
  phase := fun _ => .idle
  rotated := []
  accepted := []
  familyRevoked := []
  allRevoked := []

namespace State

def goto (s : State) (p : ℕ) (phase : Phase) : State :=
  { s with phase := Function.update s.phase p phase }

/-- A statement that writes rows waits while another transaction has written one of them. -/
def write (s : State) (p : ℕ) (ws : List Write) (phase : Phase) : Option State :=
  if ws.all fun w => s.locks w.row = none || s.locks w.row = some p then
    some { s with
      locks := fun row => if ws.any fun w => w.row = row then some p else s.locks row
      writes := Function.update s.writes p (s.writes p ++ ws)
      phase := Function.update s.phase p phase }
  else none

/-- The transaction of `p` ends without an effect. -/
def rollback (s : State) (p : ℕ) (phase : Phase) : State :=
  { s with
    locks := fun row => if s.locks row = some p then none else s.locks row
    writes := Function.update s.writes p []
    phase := Function.update s.phase p phase }

def commit (s : State) (p : ℕ) : State :=
  { s with
    db := (s.writes p).foldl (Write.apply s.time) s.db
    locks := fun row => if s.locks row = some p then none else s.locks row
    writes := Function.update s.writes p []
    phase := Function.update s.phase p .idle }

end State

/-- `_is_session_active`. -/
def AuthSession.active (session : AuthSession) (now : ℕ) : Bool :=
  session.revokedAt = none && now < session.idleExpiresAt && now < session.absoluteExpiresAt

/-- The principal of a session may use it: an active user of the same version, or an active S3
session. -/
def principalActive (db : Db) (s3Active : Bool) (session : AuthSession) : Bool :=
  match session.userId with
  | some userId => (db.users userId).any fun user =>
      user.isActive && user.authVersion = session.authVersion
  | none => s3Active

def familyTokenIds (db : Db) (family : ℕ) : List ℕ :=
  db.tokenIds.filter fun id => (db.tokens id).any fun row => row.familyId = family

/-- The tokens of the sessions that are not revoked yet. -/
def liveTokenIds (db : Db) (sessions : List ℕ) : List ℕ :=
  db.tokenIds.filter fun id => (db.tokens id).any fun row =>
    row.authSessionId ∈ sessions && row.revokedAt = none

def familySessionIds (db : Db) (family : ℕ) : List ℕ :=
  ((familyTokenIds db family).filterMap fun id =>
    (db.tokens id).map RefreshToken.authSessionId).eraseDups

/-- The sessions of a user that are not revoked yet. -/
def liveSessionIds (s : State) (userId : ℕ) : List ℕ :=
  (List.range s.nextId).filter fun id => (s.db.sessions id).any fun row =>
    row.userId = some userId && row.revokedAt = none

section Steps

variable (settings : Settings)

/-- Inserts a session and its first token; nobody sees the rows before the commit. -/
def insertSession (s : State) (p : ℕ) (userId : Option ℕ)
    (authVersion now absolute : ℕ) : Option State :=
  let id := s.nextId
  let session : AuthSession := {
    userId := userId
    authVersion := authVersion
    idleExpiresAt := min (now + settings.idle userId) absolute
    absoluteExpiresAt := absolute }
  let token : RefreshToken := { familyId := id, authSessionId := id, expiresAt := absolute }
  ({ s with nextId := id + 1 } : State).write p [.addSession id session, .addToken id token]
    .createCommit

/-- The next statement of the call of `p`. -/
def advance (s : State) (p : ℕ) (s3Active : Bool) : Phase → Option State
  | .idle => none
  | .createLoad userId =>
    some (s.goto p (match s.db.users userId with
      | some user =>
        .createInsert (some userId) user.authVersion s.clock (s.clock + settings.absolute)
      | none => .idle))
  | .createInsert userId authVersion now absolute =>
    insertSession settings s p userId authVersion now absolute
  | .createCommit => some (s.commit p)
  | .rotateToken startedAt now token =>
    some (s.goto p (match s.db.tokens token with
      | none => .idle
      | some row =>
        if row.usedAt = none ∧ row.revokedAt = none then .rotateSession startedAt now token row
        else .familySelect row.familyId s.clock))
  | .rotateSession startedAt now token row =>
    some (s.goto p (match s.db.sessions row.authSessionId with
      | none => .idle
      | some session =>
        if session.active now && now < row.expiresAt then
          .rotatePrincipal ⟨startedAt, now, token, row, session⟩
        else .revokeSession row.authSessionId s.clock))
  | .rotatePrincipal rotation =>
    some (s.goto p (if principalActive s.db s3Active rotation.session then .rotateClaim rotation
      else .revokeSession rotation.row.authSessionId s.clock))
  | .rotateClaim rotation =>
    if (s.db.tokens rotation.token).any fun row => row.usedAt = none && row.revokedAt = none then
      s.write p [.useToken rotation.token rotation.now] (.rotateInsert rotation)
    else some (s.rollback p (.familySelect rotation.row.familyId s.clock))
  | .rotateInsert rotation =>
    let token : RefreshToken := {
      familyId := rotation.row.familyId
      authSessionId := rotation.row.authSessionId
      expiresAt := rotation.session.absoluteExpiresAt }
    ({ s with nextId := s.nextId + 1 } : State).write p [.addToken s.nextId token]
      (.rotateTouch rotation)
  | .rotateTouch rotation =>
    s.write p [.touchSession rotation.row.authSessionId
      (min (rotation.now + settings.idle rotation.session.userId)
        rotation.session.absoluteExpiresAt)] (.rotateCommit rotation)
  | .rotateCommit rotation =>
    some { s.commit p with
      rotated := s.rotated ++ [rotation.token]
      accepted := s.accepted ++
        [⟨rotation.row.authSessionId, rotation.session, rotation.startedAt⟩] }
  | .validateSession startedAt now id expectsUser =>
    some (s.goto p (match s.db.sessions id with
      | none => .idle
      | some session =>
        if session.active now ∧ session.userId.isSome = expectsUser then
          .validatePrincipal startedAt now id session
        else .revokeSession id s.clock))
  | .validatePrincipal startedAt now id session =>
    some (s.goto p (if principalActive s.db s3Active session then
        .validateTouch startedAt now id session
      else .revokeSession id s.clock))
  | .validateTouch startedAt now id session =>
    s.write p [.touchSession id (min (now + settings.idle session.userId)
      session.absoluteExpiresAt)] (.validateCommit startedAt id session)
  | .validateCommit startedAt id session =>
    some { s.commit p with accepted := s.accepted ++ [⟨id, session, startedAt⟩] }
  | .familySelect family now =>
    some (s.goto p (.familyTokens family now (familySessionIds s.db family)))
  | .familyTokens family now sessions =>
    s.write p ((familyTokenIds s.db family).map fun id => .revokeToken id now)
      (.familySessions now sessions)
  | .familySessions now sessions =>
    let sessions := sessions.filter fun id => (s.db.sessions id).isSome
    s.write p (sessions.map fun id => .revokeSession id now) (.familyCommit sessions)
  | .familyCommit sessions =>
    some { s.commit p with
      familyRevoked := s.familyRevoked ++ sessions.map fun id => (id, s.time) }
  | .revokeSession session now =>
    s.write p [.revokeSession session now] (.revokeSessionTokens session now)
  | .revokeSessionTokens session now =>
    s.write p ((liveTokenIds s.db [session]).map fun id => .revokeToken id now) .revokeSessionCommit
  | .revokeSessionCommit => some (s.commit p)
  | .allLoad userId incrementVersion =>
    some (s.goto p (match s.db.users userId with
      | none => .idle
      | some user => .allSelect userId
          (if incrementVersion then some user.authVersion else none) s.clock))
  | .allSelect userId version now =>
    let sessions := liveSessionIds s userId
    some (s.goto p (match version with
      | some version => .allVersion userId version now sessions
      | none => .allSessions userId none now sessions))
  | .allVersion userId version now sessions =>
    -- `user.auth_version += 1`: the value that was loaded, plus one
    s.write p [.setVersion userId (version + 1)]
      (.allSessions userId (some (version + 1)) now sessions)
  | .allSessions userId version now sessions =>
    s.write p (sessions.map fun id => .revokeSession id now) (.allTokens userId version now sessions)
  | .allTokens userId version now sessions =>
    s.write p ((liveTokenIds s.db sessions).map fun id => .revokeToken id now)
      (.allCommit userId version)
  | .allCommit userId version =>
    some { s.commit p with
      allRevoked := s.allRevoked ++ match version with
        | some version => [⟨userId, s.time, version⟩]
        | none => [] }

inductive Label
  | tick (elapsed : ℕ)
  | createForUser (p userId : ℕ)
  /-- A session of an S3 principal, with the expiry of that principal. -/
  | createForS3 (p absolute : ℕ)
  | rotate (p token : ℕ)
  | validateAccess (p session : ℕ) (expectsUser : Bool)
  | revokeFamily (p family : ℕ)
  | revokeAllForUser (p userId : ℕ) (incrementVersion : Bool)
  /-- The next statement of a call; the flag is the state of an S3 principal it reads. -/
  | advance (p : ℕ) (s3Active : Bool)
  /-- The call fails, and its transaction is rolled back. -/
  | abort (p : ℕ)
  | setActive (userId : ℕ) (isActive : Bool)
  deriving DecidableEq, Repr

/-- A new call of an idle process. -/
def start (s : State) (p : ℕ) (phase : Phase) : Option State :=
  if s.phase p = .idle then some (s.goto p phase) else none

def act (s : State) : Label → Option State
  | .tick elapsed => some { s with clock := s.clock + elapsed }
  | .createForUser p userId => start s p (.createLoad userId)
  | .createForS3 p absolute => start s p (.createInsert none 1 s.clock absolute)
  | .rotate p token => start s p (.rotateToken s.time s.clock token)
  | .validateAccess p session expectsUser =>
    start s p (.validateSession s.time s.clock session expectsUser)
  | .revokeFamily p family => start s p (.familySelect family s.clock)
  | .revokeAllForUser p userId incrementVersion => start s p (.allLoad userId incrementVersion)
  | .advance p s3Active => advance settings s p s3Active (s.phase p)
  | .abort p => some (s.rollback p .idle)
  | .setActive userId isActive =>
    some { s with db := Write.setUser s.db userId fun row => { row with isActive := isActive } }

def step (s : State) (label : Label) : Option State :=
  (act settings s label).map fun s' => { s' with time := s'.time + 1 }

/-- A revocation writes a version one above the committed one: the version has not moved since the
user was loaded. -/
def versionUnmoved (s : State) : Label → Bool
  | .advance p _ =>
    match s.phase p with
    | .allVersion userId version _ _ =>
      (s.db.users userId).all fun user => user.authVersion = version
    | _ => true
  | _ => true

end Steps

end Sessions
end BucketReef

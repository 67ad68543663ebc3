import BucketReef.Effects.Transitions
import Mathlib

/-!
# External identities and their links

External logins, link attempts, approval requests and the administration of mappings, one call at a
time. A call that raises is rolled back and changes nothing. Provider ids, issuers, subjects and emails
are the normalized ones; a password check or an LDAP or OIDC authentication is an input with its
outcome. Users are rows that other code may change.
-/

namespace BucketReef
namespace ExternalLinks

open Transitions

/-! ## Rows -/

/-- The columns that name an external subject. A row has an issuer exactly when its provider type is
`oidc`. -/
structure ExternalSubject where
  providerId : String
  issuer : Option String
  subject : String
  deriving DecidableEq, Repr

/-- What the unique indexes are on. -/
inductive SubjectKey
  | oidc (issuer subject : String)
  | ldap (providerId subject : String)
  deriving DecidableEq, Repr

def ExternalSubject.key (external : ExternalSubject) : SubjectKey :=
  match external.issuer with
  | some issuer => .oidc issuer external.subject
  | none => .ldap external.providerId external.subject

structure User where
  email : String
  isActive : Bool := true
  /-- Its role is a standard one. -/
  isStandard : Bool := true
  hasPassword : Bool := false
  hasPasskey : Bool := false
  passkeyRequired : Bool := false
  deriving DecidableEq, Repr

inductive LinkSource
  | jit | administrator | trustedEmail | reauthenticated | manualApproval
  deriving DecidableEq, Repr

structure ExternalIdentity where
  userId : ℕ
  external : ExternalSubject
  linkSource : LinkSource
  revoked : Bool := false
  deriving DecidableEq, Repr

inductive RequestStatus
  | pending | approved | rejected
  deriving DecidableEq, Repr

structure LinkRequest where
  userId : ℕ
  external : ExternalSubject
  status : RequestStatus := .pending
  expiresAt : ℕ
  deriving DecidableEq, Repr

inductive AttemptSource
  | loginCollision | profile
  deriving DecidableEq, Repr

inductive ProofMethod
  | sessionStepUp | password | ldap (providerId : String) | oidc (providerId : String)
  deriving DecidableEq, Repr

inductive AttemptStatus
  | pending | adminRequested | adminApproved | adminRejected | completed
  deriving DecidableEq, Repr

structure LinkAttempt where
  userId : ℕ
  providerId : String
  issuer : Option String
  subject : Option String
  source : AttemptSource
  browserSecretHash : String
  proofMethod : Option ProofMethod := none
  proofVerifiedAt : Option ℕ := none
  mfaVerifiedAt : Option ℕ := none
  status : AttemptStatus := .pending
  expiresAt : ℕ
  consumedAt : Option ℕ := none
  /-- The subject that was recorded when the last account proof was given; not a column. -/
  provedSubject : Option String := none
  deriving DecidableEq, Repr

structure Settings where
  attemptTtl : ℕ
  mfaRecent : ℕ
  deriving DecidableEq, Repr

/-- 24 hours, in seconds. -/
def requestTtl : ℕ := 86400

structure Store where
  now : ℕ := 0
  users : List User := []
  identities : List ExternalIdentity := []
  requests : List LinkRequest := []
  attempts : List LinkAttempt := []
  deriving DecidableEq, Repr

/-! ## Approval requests -/

/-- A pending request that has not expired. -/
def LinkRequest.isOpen (request : LinkRequest) (now : ℕ) : Bool :=
  request.status = .pending && now < request.expiresAt

def findMapping (s : Store) (key : SubjectKey) : Option ExternalIdentity :=
  s.identities.find? fun identity => identity.external.key = key

/-- `request_in_transaction`: an open request is kept, and any other one of the subject is prepared
again under its id. -/
def requestInTransaction (s : Store) (userId : ℕ) (external : ExternalSubject) : Store × LinkRequest :=
  let prepared : LinkRequest := { userId, external, expiresAt := s.now + requestTtl }
  match s.requests.findIdx? fun request => request.external.key = external.key with
  | none => ({ s with requests := s.requests ++ [prepared] }, prepared)
  | some i =>
    match s.requests[i]? with
    | none => (s, prepared)
    | some existing =>
      if existing.isOpen s.now then (s, existing)
      else ({ s with requests := s.requests.set i prepared }, prepared)

/-- The first pending request of the subject was linked by policy. -/
def closePending (s : Store) (userId : ℕ) (key : SubjectKey) : Store :=
  match s.requests.findIdx? fun request =>
      request.external.key = key && request.status = .pending with
  | none => s
  | some i =>
    { s with requests := s.requests.modify i fun request =>
        { request with userId := userId, status := .approved } }

/-- The attempts that wait for the decision of the request. -/
def syncAttemptDecision (s : Store) (request : LinkRequest) (approve : Bool) : Store :=
  { s with attempts := s.attempts.map fun attempt =>
      if attempt.userId = request.userId ∧ attempt.providerId = request.external.providerId ∧
          attempt.issuer = request.external.issuer ∧
          attempt.subject = some request.external.subject ∧ attempt.status = .adminRequested then
        { attempt with status := if approve then .adminApproved else .adminRejected }
      else attempt }

def decideRequest (s : Store) (id : ℕ) (approve : Bool) : Option Store := do
  let request ← s.requests[id]?
  guard (request.isOpen s.now = true)
  guard (request.userId < s.users.length)
  let decided := { s with
    requests := s.requests.set id { request with
      status := if approve then .approved else .rejected } }
  if approve then
    guard (findMapping s request.external.key = none)
    let identity : ExternalIdentity := ⟨request.userId, request.external, .manualApproval, false⟩
    return syncAttemptDecision { decided with identities := s.identities ++ [identity] } request true
  else return syncAttemptDecision decided request false

/-! ## Mappings -/

def revokeIdentity (s : Store) (id : ℕ) : Option Store := do
  let identity ← s.identities[id]?
  guard (identity.revoked = false)
  return { s with identities := s.identities.set id { identity with revoked := true } }

def restoreIdentity (s : Store) (id : ℕ) : Option Store := do
  let identity ← s.identities[id]?
  guard (identity.revoked = true)
  return { s with identities := s.identities.set id { identity with revoked := false } }

def provisionIdentity (s : Store) (userId : ℕ) (external : ExternalSubject) (restore : Bool)
    (linkSource : LinkSource) : Option Store := do
  guard (userId < s.users.length)
  match s.identities.findIdx? fun identity => identity.external.key = external.key with
  | some i =>
    let existing ← s.identities[i]?
    guard (existing.userId = userId)
    if existing.revoked = false then return s
    guard (restore = true)
    restoreIdentity s i
  | none =>
    let inserted := { s with identities := s.identities ++ [⟨userId, external, linkSource, false⟩] }
    return closePending inserted userId external.key

/-! ## Link attempts -/

def requireAttempt (s : Store) (id : ℕ) (browserSecretHash : Option String) : Option LinkAttempt := do
  let attempt ← s.attempts[id]?
  guard (browserSecretHash = some attempt.browserSecretHash)
  guard (s.now < attempt.expiresAt)
  guard (attempt.consumedAt = none ∨ attempt.status = .completed)
  return attempt

def requireUser (s : Store) (attempt : LinkAttempt) : Option User := do
  let user ← s.users[attempt.userId]?
  guard (user.isActive = true)
  return user

def setAttempt (s : Store) (id : ℕ) (attempt : LinkAttempt) : Store :=
  { s with attempts := s.attempts.set id attempt }

/-- The attempt is still to be worked on. -/
def LinkAttempt.isPending (attempt : LinkAttempt) : Bool :=
  attempt.status = .pending && attempt.consumedAt.isNone

def LinkAttempt.external (attempt : LinkAttempt) (subject : String) : ExternalSubject :=
  ⟨attempt.providerId, attempt.issuer, subject⟩

def createLoginCollisionAttempt (settings : Settings) (s : Store) (userId : ℕ)
    (external : ExternalSubject) (browserSecretHash : String) : Store :=
  { s with attempts := s.attempts ++ [{
      userId, providerId := external.providerId, issuer := external.issuer,
      subject := some external.subject, source := .loginCollision, browserSecretHash,
      expiresAt := s.now + settings.attemptTtl }] }

def createProfileAttempt (settings : Settings) (s : Store) (userId : ℕ) (providerId issuer : String)
    (browserSecretHash : String) (mfaVerifiedAt : Option ℕ) : Option Store := do
  guard (userId < s.users.length)
  return { s with attempts := s.attempts ++ [{
      userId, providerId, issuer := some issuer, subject := none, source := .profile,
      browserSecretHash, proofMethod := some .sessionStepUp, proofVerifiedAt := some s.now,
      mfaVerifiedAt, expiresAt := s.now + settings.attemptTtl }] }

def recordOidcIdentity (s : Store) (id : ℕ) (browserSecretHash : Option String)
    (providerId issuer subject : String) : Option Store := do
  let attempt ← requireAttempt s id browserSecretHash
  guard (attempt.isPending = true)
  guard (attempt.issuer.isSome = true)
  guard (attempt.providerId = providerId ∧ attempt.issuer = some issuer)
  guard ((findMapping s (.oidc issuer subject)).all fun existing =>
    existing.userId = attempt.userId && !existing.revoked)
  return setAttempt s id { attempt with subject := some subject }

def markProof (s : Store) (id : ℕ) (attempt : LinkAttempt) (method : ProofMethod) : Option Store := do
  guard (attempt.isPending = true ∧ attempt.subject.isSome = true)
  return setAttempt s id { attempt with
    proofMethod := some method
    proofVerifiedAt := some s.now
    provedSubject := attempt.subject }

/-- `correct` tells whether the password is the one of the account. -/
def verifyPassword (s : Store) (id : ℕ) (browserSecretHash : Option String) (correct : Bool) :
    Option Store := do
  let attempt ← requireAttempt s id browserSecretHash
  let user ← requireUser s attempt
  guard (user.hasPassword = true ∧ correct = true)
  markProof s id attempt .password

/-- The account has an active mapping of these columns. -/
def isLinked (s : Store) (userId : ℕ) (external : ExternalSubject) : Bool :=
  s.identities.any fun identity =>
    identity.userId = userId && identity.external = external && !identity.revoked

/-- `verify_ldap` and `verify_oidc_proof`, for the subject that the provider authenticated. -/
def verifyExternal (s : Store) (id : ℕ) (browserSecretHash : Option String)
    (external : ExternalSubject) : Option Store := do
  let attempt ← requireAttempt s id browserSecretHash
  let _ ← requireUser s attempt
  guard (isLinked s attempt.userId external = true)
  markProof s id attempt
    (if external.issuer.isSome then .oidc external.providerId else .ldap external.providerId)

def markMfaVerified (s : Store) (id : ℕ) (browserSecretHash : Option String) : Option Store := do
  let attempt ← requireAttempt s id browserSecretHash
  let _ ← requireUser s attempt
  guard (attempt.proofVerifiedAt.isSome = true)
  return setAttempt s id { attempt with mfaVerifiedAt := some s.now }

def requestAdminApproval (s : Store) (id : ℕ) (browserSecretHash : Option String) : Option Store := do
  let attempt ← requireAttempt s id browserSecretHash
  let _ ← requireUser s attempt
  guard (attempt.isPending = true)
  let subject ← attempt.subject
  let (s, request) := requestInTransaction s attempt.userId (attempt.external subject)
  return setAttempt s id { attempt with
    status := .adminRequested
    expiresAt := max attempt.expiresAt request.expiresAt }

/-- `_stage` is `confirm`. -/
def canConfirm (settings : Settings) (s : Store) (attempt : LinkAttempt) (user : User) : Bool :=
  attempt.status = .pending && attempt.subject.isSome && attempt.proofVerifiedAt.isSome &&
    (!(user.hasPasskey || user.passkeyRequired) ||
      attempt.mfaVerifiedAt.any fun verifiedAt => s.now ≤ verifiedAt + settings.mfaRecent)

/-- `_upsert_confirmed_identity` -/
def upsertConfirmedIdentity (s : Store) (userId : ℕ) (external : ExternalSubject) : Option Store := do
  match s.identities.findIdx? fun identity => identity.external.key = external.key with
  | some i =>
    let identity ← s.identities[i]?
    guard (identity.userId = userId)
    guard (identity.revoked = false)
    return { s with identities := s.identities.set i { identity with external := external } }
  | none =>
    return { s with identities := s.identities ++ [⟨userId, external, .reauthenticated, false⟩] }

def approveMatchingLinkRequests (s : Store) (userId : ℕ) (external : ExternalSubject) : Store :=
  { s with requests := s.requests.map fun request =>
      if request.userId = userId ∧ request.external = external ∧ request.status = .pending then
        { request with status := .approved }
      else request }

def confirm (settings : Settings) (s : Store) (id : ℕ) (browserSecretHash : Option String) :
    Option Store := do
  let attempt ← requireAttempt s id browserSecretHash
  let user ← requireUser s attempt
  guard (canConfirm settings s attempt user = true)
  let subject ← attempt.subject
  let linked ← upsertConfirmedIdentity s attempt.userId (attempt.external subject)
  let approved := approveMatchingLinkRequests linked attempt.userId (attempt.external subject)
  return setAttempt approved id { attempt with status := .completed, consumedAt := some s.now }

/-! ## External logins -/

inductive LinkingPolicy
  | manual | reauthenticate | trustedEmail
  deriving DecidableEq, Repr

structure LoginRequest where
  external : ExternalSubject
  email : Option String := none
  emailVerified : Bool := false
  linkingPolicy : LinkingPolicy := .manual
  trustedEmailDomains : List String := []
  browserSecretHash : Option String := none
  deriving DecidableEq, Repr

def emailDomain (email : String) : Option String :=
  if email.contains '@' then (email.splitOn "@").getLast? else none

def findEmailCandidates (s : Store) (email : String) : List ℕ :=
  (List.range s.users.length).filter fun id => s.users[id]?.any fun user => user.email.toLower = email

def canTrustEmailLink (s : Store) (login : LoginRequest) (userId : ℕ) (email : String) : Bool :=
  login.linkingPolicy = .trustedEmail && login.emailVerified &&
    (emailDomain email).any (fun domain => domain ≠ "" && domain ∈ login.trustedEmailDomains) &&
    s.users[userId]?.any (fun user => user.isActive && user.isStandard && user.hasPassword) &&
    !s.identities.any fun identity => identity.userId = userId

/-- `_create_jit_identity_user`; the email of a login without one is generated. -/
def createJitIdentityUser (s : Store) (login : LoginRequest) (generatedEmail : String) : Store :=
  { s with
    users := s.users ++ [{ email := login.email.getD generatedEmail }]
    identities := s.identities ++ [⟨s.users.length, login.external, .jit, false⟩] }

/-- What `_raise_existing_email_link_challenge` leaves behind; `none` when nothing was started. -/
def linkChallenge (settings : Settings) (s : Store) (userId : ℕ) (login : LoginRequest) :
    Option Store :=
  match login.browserSecretHash with
  | some browserSecretHash =>
    let created := createLoginCollisionAttempt settings s userId login.external browserSecretHash
    if login.linkingPolicy = .reauthenticate then some created
    else some ((requestAdminApproval created s.attempts.length login.browserSecretHash).getD created)
  | none =>
    if login.linkingPolicy = .reauthenticate then none
    else some (requestInTransaction s userId login.external).1

/-- The store after a login, and the user it authenticated, if it did. -/
def getOrCreate (settings : Settings) (s : Store) (login : LoginRequest) (generatedEmail : String) :
    Option (Store × Option ℕ) :=
  match findMapping s login.external.key with
  | some identity =>
    if identity.revoked then none
    else if identity.userId < s.users.length then some (s, some identity.userId)
    else none
  | none =>
    let created := (createJitIdentityUser s login generatedEmail, some s.users.length)
    match login.email with
    | none => some created
    | some email =>
      match findEmailCandidates s email with
      | [] => some created
      | [userId] =>
        if login.external.issuer.isSome && canTrustEmailLink s login userId email then
          (provisionIdentity s userId login.external false .trustedEmail).map fun s => (s, some userId)
        else (linkChallenge settings s userId login).map fun s => (s, none)
      | _ => none

/-! ## LDAP import -/

/-- `_create_user` and `_link_identity`: a subject that has a mapping, revoked or not, is refused. -/
def importIdentity (s : Store) (userId : ℕ) (providerId subject : String) : Option Store := do
  guard (userId < s.users.length)
  guard (findMapping s (.ldap providerId subject) = none)
  return { s with
    identities := s.identities ++ [⟨userId, ⟨providerId, none, subject⟩, .administrator, false⟩] }

/-! ## Runs -/

inductive Label
  | login (login : LoginRequest) (generatedEmail : String)
  | startFromProfile (userId : ℕ) (providerId issuer browserSecretHash : String)
      (mfaVerifiedAt : Option ℕ)
  | recordOidcIdentity (id : ℕ) (browserSecretHash : Option String)
      (providerId issuer subject : String)
  | verifyPassword (id : ℕ) (browserSecretHash : Option String) (correct : Bool)
  | verifyExternal (id : ℕ) (browserSecretHash : Option String) (external : ExternalSubject)
  | markMfaVerified (id : ℕ) (browserSecretHash : Option String)
  | requestAdminApproval (id : ℕ) (browserSecretHash : Option String)
  | confirm (id : ℕ) (browserSecretHash : Option String)
  /-- `request_link_approval` -/
  | requestLinkApproval (userId : ℕ) (external : ExternalSubject)
  | decide (id : ℕ) (approve : Bool)
  | provision (userId : ℕ) (external : ExternalSubject) (restore : Bool)
  | importIdentity (userId : ℕ) (providerId subject : String)
  | revoke (id : ℕ)
  | restore (id : ℕ)
  /-- Other code adds a user or changes one. -/
  | addUser (user : User)
  | editUser (id : ℕ) (user : User)
  | wait (seconds : ℕ)
  deriving DecidableEq, Repr

def step (settings : Settings) (s : Store) : Label → Option Store
  | .login login generatedEmail => (getOrCreate settings s login generatedEmail).map Prod.fst
  | .startFromProfile userId providerId issuer browserSecretHash mfaVerifiedAt =>
    createProfileAttempt settings s userId providerId issuer browserSecretHash mfaVerifiedAt
  | .recordOidcIdentity id browserSecretHash providerId issuer subject =>
    recordOidcIdentity s id browserSecretHash providerId issuer subject
  | .verifyPassword id browserSecretHash correct => verifyPassword s id browserSecretHash correct
  | .verifyExternal id browserSecretHash external => verifyExternal s id browserSecretHash external
  | .markMfaVerified id browserSecretHash => markMfaVerified s id browserSecretHash
  | .requestAdminApproval id browserSecretHash => requestAdminApproval s id browserSecretHash
  | .confirm id browserSecretHash => confirm settings s id browserSecretHash
  | .requestLinkApproval userId external => some (requestInTransaction s userId external).1
  | .decide id approve => decideRequest s id approve
  | .provision userId external restore =>
    provisionIdentity s userId external restore .administrator
  | .importIdentity userId providerId subject => importIdentity s userId providerId subject
  | .revoke id => revokeIdentity s id
  | .restore id => restoreIdentity s id
  | .addUser user => some { s with users := s.users ++ [user] }
  | .editUser id user => some { s with users := s.users.set id user }
  | .wait seconds => some { s with now := s.now + seconds }

/-- The call is an explicit restore of a mapping of the key. -/
def restores (s : Store) (key : SubjectKey) : Label → Bool
  | .restore id => s.identities[id]?.any fun identity => identity.external.key = key
  | .provision _ external restore => restore && external.key = key
  | _ => false

/-- Identities are recorded in attempts that were started from a profile, as the OIDC callback does. -/
def recordsFromProfile (s : Store) : Label → Bool
  | .recordOidcIdentity id _ _ _ _ => s.attempts[id]?.all fun attempt => attempt.source = .profile
  | _ => true

def Reachable (settings : Settings) (s : Store) : Prop :=
  Reached (step settings) anyStep {} s

end ExternalLinks
end BucketReef

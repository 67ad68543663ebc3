import BucketReef.Lists.Batches
import Mathlib.Data.Prod.Lex

/-!
# Expiration of access keys

One run takes the first 500 due rows, in the order of their expiry, and processes each on its own: it
looks up the owner, asks the provider for the key, disables it when it is active, and marks the row as
enforced, blocked or to be retried, or removes it. What a row meets in a run, the owner's record and
the provider's answers, is an argument.
-/

namespace BucketReef.Expiration

inductive ExpirationState
  | scheduled
  | retrying
  | blocked
  | enforced
  deriving DecidableEq

structure ManagerAccessKeyMetadata where
  id : ℕ
  accountId : Option ℕ
  s3UserId : Option ℕ
  principalName : Option String
  accessKeyId : String
  expiresAt : Option ℤ
  expirationState : Option ExpirationState
  expirationEnforcedAt : Option ℤ
  expirationLastAttemptAt : Option ℤ
  expirationLastError : Option String
  deriving DecidableEq

/-- A key as the IAM service lists it. -/
structure AccessKey where
  accessKeyId : String
  status : Option String
  deriving DecidableEq

/-- A key as the keys of an RGW user list it. -/
structure S3UserAccessKey where
  accessKeyId : String
  isActive : Bool
  deriving DecidableEq

/-- The account of a row: whether its endpoint is Ceph, whether the key is a managed private-access
key, and whether credentials are at hand. -/
structure S3Account where
  ceph : Bool
  managedKey : Bool
  credentials : Bool

structure S3User where
  ceph : Bool
  rgwAccessKey : String
  managedKey : Bool

/-- What a row meets in one run. A provider call fails with the text of its error. -/
structure Encounter where
  now : ℤ
  account : Option S3Account
  s3User : Option S3User
  listAccessKeys : Except String (List AccessKey)
  updateAccessKeyStatus : Except String Unit
  listAccessKeysAgain : Except String (List AccessKey)
  listKeys : Except String (List S3UserAccessKey)
  setAccessKeyStatus : Except String Unit
  listKeysAgain : Except String (List S3UserAccessKey)
  recordAction : Except String Unit

/-- What was seen of the key and its owner. -/
inductive Observation
  | accountAbsent
  | userAbsent
  | iamKeys (keys : List AccessKey)
  | userKeys (keys : List S3UserAccessKey)

inductive Failure
  | permanent (text : String)
  | transient (text : String)
  deriving DecidableEq

inductive Outcome
  | enforced
  | retried
  | blocked
  | missing
  deriving DecidableEq

/-- A computation that records what it observes. -/
abbrev Observed (α : Type) := List Observation × Except Failure α

namespace Observed

def fail {α : Type} (failure : Failure) : Observed α := ([], .error failure)

def value {α : Type} (a : α) : Observed α := ([], .ok a)

/-- The rest of the computation after an observation. -/
def seeing {α : Type} (observation : Observation) (rest : Observed α) : Observed α :=
  (observation :: rest.1, rest.2)

end Observed

open Observed

variable (fold strip : String → String)

def findIamAccessKey (keys : List AccessKey) (accessKeyId : String) : Option AccessKey :=
  keys.find? fun key => key.accessKeyId = accessKeyId

/-- `str(key.status or "Active").strip().lower()` is one of the words for an inactive key. -/
def iamKeyIsInactive (key : AccessKey) : Bool :=
  let status := match key.status with
    | none => "Active"
    | some status => if status = "" then "Active" else status
  fold status ∈ ["inactive", "disabled", "suspended"]

/-- `false` when the key was seen to be absent. -/
def ensureIamKeyInactive (e : Encounter) (accessKeyId : String) : Observed Bool :=
  match e.listAccessKeys with
  | .error text => fail (.transient text)
  | .ok keys => seeing (.iamKeys keys) <|
    match findIamAccessKey keys accessKeyId with
    | none => value false
    | some remote =>
      if iamKeyIsInactive fold remote then value true
      else match e.updateAccessKeyStatus with
        | .error text => fail (.transient text)
        | .ok () =>
          match e.listAccessKeysAgain with
          | .error text => fail (.transient text)
          | .ok keys => seeing (.iamKeys keys) <|
            match findIamAccessKey keys accessKeyId with
            | none => value false
            | some remote =>
              if iamKeyIsInactive fold remote then value true
              else fail (.transient "Provider did not confirm the IAM access key as inactive")

/-- How the processing of a row ends when nothing fails before the final commit. -/
inductive Settled
  | enforced
  | missing

def validatedIamPrincipal (row : ManagerAccessKeyMetadata) (account : S3Account) :
    Except Failure String :=
  if account.ceph = false then
    .error (.permanent
      "Individual access-key expiration is supported only for Ceph RGW accounts")
  else match row.principalName with
    | none => .error (.permanent "IAM principal is missing for the access-key expiration")
    | some principal =>
      if principal = "" then
        .error (.permanent "IAM principal is missing for the access-key expiration")
      else if account.managedKey then
        .error (.permanent
          "Managed private-access keys cannot be expired from the generic key inventory")
      else .ok principal

def processIam (row : ManagerAccessKeyMetadata) (e : Encounter) : Observed Settled :=
  match e.account with
  | none => seeing .accountAbsent (value .missing)
  | some account =>
    match validatedIamPrincipal row account with
    | .error failure => fail failure
    | .ok _ =>
      if account.credentials = false then
        fail (.transient "RGW Account credentials are unavailable for expiration enforcement")
      else
        match ensureIamKeyInactive fold e row.accessKeyId with
        | (seen, .error failure) => (seen, .error failure)
        | (seen, .ok false) => (seen, .ok .missing)
        | (seen, .ok true) => (seen, .ok .enforced)

def findUserAccessKey (keys : List S3UserAccessKey) (accessKeyId : String) :
    Option S3UserAccessKey :=
  keys.find? fun key => key.accessKeyId = accessKeyId

/-- Sets the status of a key of the user and lists the keys again. -/
def setKeyStatus (e : Encounter) (s3User : S3User) (accessKey : String) :
    Observed S3UserAccessKey :=
  let normalized := strip accessKey
  if normalized = "" then fail (.transient "access_key is required")
  else if normalized = s3User.rgwAccessKey then
    fail (.transient "Cannot disable the interface access key; rotate it instead")
  else match e.setAccessKeyStatus with
    | .error text => fail (.transient text)
    | .ok () =>
      match e.listKeysAgain with
      | .error text => fail (.transient text)
      | .ok keys => seeing (.userKeys keys) <|
        match findUserAccessKey keys normalized with
        | none => fail (.transient "Access key not found after status update")
        | some key => value key

def processS3User (row : ManagerAccessKeyMetadata) (e : Encounter) : Observed Settled :=
  match e.s3User with
  | none => seeing .userAbsent (value .missing)
  | some s3User =>
    if s3User.ceph = false then
      fail (.permanent "Individual access-key expiration is supported only for Ceph RGW users")
    else if row.accessKeyId = s3User.rgwAccessKey then
      fail (.permanent "BucketReef interface access keys cannot be expired; rotate them instead")
    else if s3User.managedKey then
      fail (.permanent
        "Managed private-access keys cannot be expired from the generic key inventory")
    else match e.listKeys with
      | .error text => fail (.transient text)
      | .ok keys => seeing (.userKeys keys) <|
        match findUserAccessKey keys row.accessKeyId with
        | none => value .missing
        | some remote =>
          if remote.isActive then
            match setKeyStatus strip e s3User row.accessKeyId with
            | (seen, .error failure) => (seen, .error failure)
            | (seen, .ok remote) =>
              if remote.isActive then
                (seen, .error
                  (.transient "Provider did not confirm the RGW access key as inactive"))
              else (seen, .ok .enforced)
          else value .enforced

/-- One attempt: its outcome, what it observed, and the row it leaves. -/
structure Attempt where
  rowId : ℕ
  outcome : Outcome
  observed : List Observation
  left : Option ManagerAccessKeyMetadata

def markFailure (row : ManagerAccessKeyMetadata) (now : ℤ) (text : String)
    (state : ExpirationState) : ManagerAccessKeyMetadata :=
  { row with
    expirationState := some state
    expirationLastAttemptAt := some now
    expirationLastError := some text }

def markEnforced (row : ManagerAccessKeyMetadata) (now : ℤ) : ManagerAccessKeyMetadata :=
  { row with
    expirationState := some .enforced
    expirationEnforcedAt := some now
    expirationLastError := none }

def processScope (row : ManagerAccessKeyMetadata) (e : Encounter) : Observed Settled :=
  if row.accountId.isSome then processIam fold row e
  else if row.s3UserId.isSome then processS3User strip row e
  else fail (.permanent "Access-key expiration has no valid resource scope")

/-- The mark of an enforced row is committed before the audit entry is written: when that fails the
row is retried. -/
def process (row : ManagerAccessKeyMetadata) (e : Encounter) : Attempt :=
  let row := { row with expirationLastAttemptAt := some e.now, expirationLastError := none }
  match processScope fold strip row e with
  | (seen, .error (.permanent text)) =>
    ⟨row.id, .blocked, seen, some (markFailure row e.now text .blocked)⟩
  | (seen, .error (.transient text)) =>
    ⟨row.id, .retried, seen, some (markFailure row e.now text .retrying)⟩
  | (seen, .ok .missing) => ⟨row.id, .missing, seen, none⟩
  | (seen, .ok .enforced) =>
    match e.recordAction with
    | .ok () => ⟨row.id, .enforced, seen, some (markEnforced row e.now)⟩
    | .error text =>
      ⟨row.id, .retried, seen, some (markFailure (markEnforced row e.now) e.now text .retrying)⟩

/-! ## Runs -/

def due (now : ℤ) (row : ManagerAccessKeyMetadata) : Bool :=
  (row.expiresAt.any fun expiresAt => expiresAt ≤ now) &&
    (row.expirationState.all fun state => state = .scheduled || state = .retrying)

/-- `order_by(expires_at.asc(), id.asc())` -/
def orderKey (row : ManagerAccessKeyMetadata) : ℤ ×ₗ ℕ :=
  toLex (row.expiresAt.getD 0, row.id)

def batchLimit : ℕ := 500

def selectDue (now : ℤ) (rows : List ManagerAccessKeyMetadata) : List ManagerAccessKeyMetadata :=
  (Lists.sortedBy orderKey (rows.filter (due now))).take batchLimit

/-- The table with the row of the attempt stored or removed. -/
def store (rows : List ManagerAccessKeyMetadata) (attempt : Attempt) :
    List ManagerAccessKeyMetadata :=
  rows.filterMap fun row => if row.id = attempt.rowId then attempt.left else some row

structure AccessKeyExpirationRunResult where
  processed : ℕ
  enforced : ℕ
  retried : ℕ
  blocked : ℕ
  missing : ℕ
  deriving DecidableEq

def AccessKeyExpirationRunResult.noneProcessed : AccessKeyExpirationRunResult := ⟨0, 0, 0, 0, 0⟩

def AccessKeyExpirationRunResult.count (counts : AccessKeyExpirationRunResult) (outcome : Outcome) :
    AccessKeyExpirationRunResult :=
  let counts := { counts with processed := counts.processed + 1 }
  match outcome with
  | .enforced => { counts with enforced := counts.enforced + 1 }
  | .retried => { counts with retried := counts.retried + 1 }
  | .blocked => { counts with blocked := counts.blocked + 1 }
  | .missing => { counts with missing := counts.missing + 1 }

/-- What the rows meet in one run, by their identifiers. -/
structure World where
  now : ℤ
  meets : ℕ → Encounter

/-- The attempts of one run. -/
def attempts (world : World) (rows : List ManagerAccessKeyMetadata) : List Attempt :=
  (selectDue world.now rows).map fun row => process fold strip row (world.meets row.id)

/-- The table after one run. -/
def runDue (world : World) (rows : List ManagerAccessKeyMetadata) : List ManagerAccessKeyMetadata :=
  (attempts fold strip world rows).foldl store rows

def runCounts (world : World) (rows : List ManagerAccessKeyMetadata) :
    AccessKeyExpirationRunResult :=
  (attempts fold strip world rows).foldl
    (fun counts attempt => counts.count attempt.outcome) .noneProcessed

end BucketReef.Expiration

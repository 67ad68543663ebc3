import Mathlib.Data.List.Basic

/-!
# Bucket policies

Policy documents as `get_policy` returns them, and the managed statements the migration adds to
them: the read-only deny and the cleanup protection on the source, the write lock on the
destination, the copy grant on the source. Each builder first removes its own managed statement,
which also brings the document into normal form: a non-empty list of statements and a version.
-/

namespace BucketReef
namespace Migration

inductive Effect
  | allow | deny
  deriving DecidableEq, Repr

/-- A statement of a policy; `rest` stands for the members the migration does not read, and for a
statement that is not an object. -/
structure Statement where
  sid : Option String := none
  effect : Effect := .allow
  principal : String := ""
  action : List String := []
  resource : List String := []
  /-- The pattern of a `StringNotLike` condition on `aws:UserAgent`. -/
  userAgentNotLike : Option String := none
  rest : String := ""
  deriving DecidableEq, Repr

/-- The shapes of the `Statement` member. -/
inductive StatementMember
  | absent
  | single (statement : Statement)
  | many (statements : List Statement)
  deriving DecidableEq, Repr

structure Policy where
  version : Option String := some "2012-10-17"
  statement : StatementMember := .absent
  /-- Every other member. -/
  rest : String := ""
  deriving DecidableEq, Repr

def readOnlyPolicySid : String := "BucketReefMigrationReadOnlyDeny"
def targetWriteLockPolicySid : String := "BucketReefMigrationTargetWriteLockDeny"
def sourceCopyGrantPolicySid : String := "BucketReefMigrationSourceCopyGrantAllow"
def cleanupDeleteProtectionSid : String := "BucketReefCleanupDeleteProtection"

/-- The user agent marker of the migration's own clients. -/
def migrationUserAgentMarker : String := "bucketreef-migration-worker"

def Policy.statements (policy : Policy) : List Statement :=
  match policy.statement with
  | .absent => []
  | .single statement => [statement]
  | .many statements => statements

/-- `policy or None`: an empty document counts as no policy. -/
def truthy (policy : Option Policy) : Option Policy :=
  policy.filter fun policy => policy ≠ ⟨none, .absent, ""⟩

/-! ## Managed statements -/

def withoutManagedPolicyStatement (sid : String) (policy : Option Policy) : Option Policy :=
  policy.bind fun policy =>
    let filtered := policy.statements.filter fun statement => statement.sid ≠ some sid
    if filtered = [] then none
    else some { policy with
      version := some (policy.version.getD "2012-10-17")
      statement := .many filtered }

/-- The document a builder appends its statement to. -/
def basePolicy (sid : String) (existing : Option Policy) : Policy :=
  (withoutManagedPolicyStatement sid existing).getD { statement := .many [] }

/-- The existing policy with one managed statement, at the end. -/
def withManagedPolicyStatement (sid : String) (statement : Statement) (existing : Option Policy) :
    Policy :=
  let base := basePolicy sid existing
  { base with statement := .many (base.statements ++ [statement]) }

def readOnlyActions : List String :=
  ["s3:PutObject", "s3:PutObjectAcl", "s3:PutObjectTagging", "s3:PutObjectVersionAcl",
    "s3:PutObjectVersionTagging", "s3:PutObjectLegalHold", "s3:PutObjectRetention",
    "s3:AbortMultipartUpload", "s3:RestoreObject"]

def deleteActions : List String :=
  ["s3:DeleteObject", "s3:DeleteObjectVersion", "s3:DeleteObjectTagging",
    "s3:DeleteObjectVersionTagging", "s3:DeleteBucket"]

def objectsArn (bucket : String) : String := "arn:aws:s3:::" ++ bucket ++ "/*"
def bucketArn (bucket : String) : String := "arn:aws:s3:::" ++ bucket

def readOnlyStatement (sourceBucket : String) (denyDelete : Bool) : Statement where
  sid := some readOnlyPolicySid
  effect := .deny
  principal := "*"
  action := if denyDelete then readOnlyActions ++ deleteActions else readOnlyActions
  resource := if denyDelete then [objectsArn sourceBucket, bucketArn sourceBucket]
    else [objectsArn sourceBucket]

def buildReadOnlyPolicy (sourceBucket : String) (existing : Option Policy) (denyDelete : Bool) :
    Policy :=
  withManagedPolicyStatement readOnlyPolicySid (readOnlyStatement sourceBucket denyDelete) existing

def targetWriteLockStatement (targetBucket : String) : Statement where
  sid := some targetWriteLockPolicySid
  effect := .deny
  principal := "*"
  action := readOnlyActions ++ deleteActions
  resource := [objectsArn targetBucket, bucketArn targetBucket]
  userAgentNotLike := some ("*" ++ migrationUserAgentMarker ++ "*")

def buildTargetWriteLockPolicy (targetBucket : String) (existing : Option Policy) : Policy :=
  withManagedPolicyStatement targetWriteLockPolicySid (targetWriteLockStatement targetBucket) existing

def sourceCopyGrantStatement (sourceBucket principal : String) : Statement where
  sid := some sourceCopyGrantPolicySid
  effect := .allow
  principal := principal
  action := ["s3:GetObject", "s3:GetObjectVersion"]
  resource := [objectsArn sourceBucket]

def buildSourceCopyGrantPolicy (sourceBucket : String) (existing : Option Policy)
    (principal : String) : Policy :=
  withManagedPolicyStatement sourceCopyGrantPolicySid
    (sourceCopyGrantStatement sourceBucket principal) existing

/-- The read-only policy with its deletions split off: the migration's own client may delete. -/
def buildSourceCleanupPolicy (sourceBucket : String) (backup : Option Policy) : Policy :=
  let base := basePolicy readOnlyPolicySid backup
  let deny := readOnlyStatement sourceBucket true
  let deletes := deny.action.filter fun action => action.startsWith "s3:Delete"
  { base with statement := .many (base.statements ++
      [{ deny with action := deny.action.filter fun action => action ∉ deletes },
       { deny with
          sid := some cleanupDeleteProtectionSid
          action := deletes
          userAgentNotLike := some ("*" ++ migrationUserAgentMarker ++ "*") }]) }

/-! ## What a policy carries -/

theorem statements_withManaged (sid : String) (statement : Statement) (existing : Option Policy) :
    (withManagedPolicyStatement sid statement existing).statements =
      (basePolicy sid existing).statements ++ [statement] := rfl

end Migration
end BucketReef

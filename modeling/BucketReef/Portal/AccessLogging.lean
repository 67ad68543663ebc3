import BucketReef.Portal.BucketConfigs

/-!
# Portal server access logging

The reconciliation of an account's access logging: the state of the source buckets and of the log
bucket is captured, the logging is applied or removed bucket by bucket, and when a call fails what was
captured is written back.
-/

namespace BucketReef
namespace AccessLogging

open Effects BucketConfigs

def prefixRoot : String := "portal-server-access/"

def accessLoggingSid : String := "BucketReefPortalServerAccessLogging"

def managerDenySid : String := "BucketReefPortalManagerDeny"

def retentionRuleId : String := "BucketReefPortalExpireServerAccessLogs"

/-- An account as the reconciliation reads it; the name of the log bucket is derived from the account's
identifiers, and an account has one row for each of its source buckets. -/
structure Account where
  logBucket : String
  rgwAccountId : String
  rgwTenant : String := ""
  sourceBuckets : List String
  managerPrincipals : List String := []
  sources_nodup : sourceBuckets.Nodup

structure PortalSettings where
  serverAccessLoggingEnabled : Bool
  serverAccessLogRetentionDays : ℤ

structure Snapshot where
  sourceLogging : List (String × Option LoggingConfig)
  logBucket : String
  logBucketExisted : Bool
  logBucketPolicy : Option BucketPolicy
  logBucketLifecycle : List LifecycleRule

structure Summary where
  enabled : ℕ := 0
  disabled : ℕ := 0
  skipped : ℕ := 0
  deriving DecidableEq, Repr

def sourcePrefix (sourceBucket : String) : String := s!"{prefixRoot}{sourceBucket}/"

/-! ## Capturing and restoring -/

def captureSourceLogging (sourceBuckets : List String) :
    StoreProg (List (String × Option LoggingConfig)) :=
  Prog.foldM sourceBuckets (fun captured bucket => do
    let logging ← Prog.perform (StoreOp.getLogging bucket)
    return captured ++ [(bucket, logging)]) []

/-- `_capture_portal_server_access_logging_state` -/
def capture (account : Account) : StoreProg (Option Snapshot) :=
  if account.sourceBuckets.isEmpty then return none
  else do
    let sourceLogging ← captureSourceLogging account.sourceBuckets
    let logBucket := account.logBucket
    let exists_ ← Prog.perform (StoreOp.headBucket logBucket)
    if exists_ then
      let policy ← Prog.perform (StoreOp.getPolicy logBucket)
      let lifecycle ← Prog.perform (StoreOp.getLifecycle logBucket)
      return some
        { sourceLogging, logBucket, logBucketExisted := true, logBucketPolicy := policy
          logBucketLifecycle := lifecycle }
    else
      return some
        { sourceLogging, logBucket, logBucketExisted := false, logBucketPolicy := none
          logBucketLifecycle := [] }

/-- Run a step of the restoration and note its name when it fails. -/
def noting (failures : List String) (name : String) (p : StoreProg Unit) : StoreProg (List String) :=
  p.fails.bind fun failed => .ret (if failed then failures ++ [name] else failures)

def restoreSourceLogging (sourceLogging : List (String × Option LoggingConfig)) :
    StoreProg (List String) :=
  Prog.foldM sourceLogging (fun failures entry =>
    noting failures s!"logging:{entry.1}" (Prog.perform (StoreOp.putLogging entry.1 entry.2))) []

def restorePolicy (snapshot : Snapshot) : StoreProg Unit :=
  match snapshot.logBucketPolicy with
  | none => Prog.perform (StoreOp.deletePolicy snapshot.logBucket)
  | some policy => Prog.perform (StoreOp.putPolicy snapshot.logBucket policy)

def restoreLifecycle (snapshot : Snapshot) : StoreProg Unit :=
  if snapshot.logBucketLifecycle.isEmpty then Prog.perform (StoreOp.deleteLifecycle snapshot.logBucket)
  else Prog.perform (StoreOp.putLifecycle snapshot.logBucket snapshot.logBucketLifecycle)

/-- A log bucket that was created meanwhile is deleted, with its objects when it has some. -/
def deleteCreated (logBucket : String) : StoreProg Unit :=
  (Prog.perform (StoreOp.deleteEmptyBucket logBucket)).tryCatch fun
    | .bucketNotEmpty _ => Prog.perform (StoreOp.purgeAndDelete logBucket)
    | e => Prog.raise e

def restoreLogBucket (snapshot : Snapshot) (failures : List String) : StoreProg (List String) :=
  if snapshot.logBucketExisted then do
    let failures ← noting failures s!"policy:{snapshot.logBucket}" (restorePolicy snapshot)
    noting failures s!"lifecycle:{snapshot.logBucket}" (restoreLifecycle snapshot)
  else noting failures s!"bucket:{snapshot.logBucket}" (deleteCreated snapshot.logBucket)

/-- `_restore_portal_server_access_logging_state` -/
def restore (snapshot : Snapshot) : StoreProg Unit := do
  let failures ← restoreSourceLogging snapshot.sourceLogging
  let failures ← restoreLogBucket snapshot failures
  Prog.when (!failures.isEmpty) (Prog.raise (.runtime
    ("Unable to restore Portal Server Access Logging resources: " ++ ", ".intercalate failures)))

/-! ## Applying -/

def logLifecycleRules (settings : PortalSettings) : List LifecycleRule :=
  [{ id := some retentionRuleId
     status := some "Enabled"
     keyPrefix := some prefixRoot
     expirationDays := some settings.serverAccessLogRetentionDays }]

/-- `_ensure_portal_server_access_log_bucket` -/
def ensureLogBucket (account : Account) (settings : PortalSettings) : StoreProg Unit := do
  let exists_ ← Prog.perform (StoreOp.headBucket account.logBucket)
  Prog.when (!exists_) do
    Prog.perform (StoreOp.createBucket account.logBucket)
    Prog.perform (StoreOp.putLifecycle account.logBucket (logLifecycleRules settings))

def bucketArns (account : Account) (bucket : String) : List String :=
  let pre := if account.rgwTenant = "" then "arn:aws:s3:::" else s!"arn:aws:s3::{account.rgwTenant}:"
  [s!"{pre}{bucket}", s!"{pre}{bucket}/*"]

def logBucketArn (account : Account) : String := (bucketArns account account.logBucket).headD ""

def deliveryStatement (account : Account) : Statement where
  sid := some accessLoggingSid
  effect := "Allow"
  principal := [("Service", ["logging.s3.amazonaws.com"])]
  action := ["s3:PutObject"]
  resource := [s!"{logBucketArn account}/{prefixRoot}*"]
  condition :=
    [("StringEquals", "aws:SourceAccount", account.rgwAccountId),
     ("ArnLike", "aws:SourceArn",
       if account.rgwTenant = "" then "arn:aws:s3:::*" else s!"arn:aws:s3::{account.rgwTenant}:*")]

def managerDenyStatement (account : Account) : Statement where
  sid := some managerDenySid
  effect := "Deny"
  principal := [("AWS", account.managerPrincipals)]
  action := ["s3:*"]
  resource := bucketArns account account.logBucket

def memberStatements : StatementMember → List Statement
  | .absent => []
  | .single statement => [statement]
  | .many statements => statements

/-- `_portal_server_access_log_policy` -/
def logPolicy (account : Account) : Option BucketPolicy → Except Error PolicyDocument
  | some (.raw _) => .error (.runtime
      s!"Unable to merge unreadable bucket policy on Portal access log bucket '{account.logBucket}'.")
  | existing =>
    let policy : PolicyDocument :=
      match existing with
      | some (.document document) => document
      | _ => { version := some "2012-10-17" }
    let filtered := (memberStatements policy.statement).filter fun statement =>
      statement.sid ≠ some accessLoggingSid && statement.sid ≠ some managerDenySid
    let managers := if account.managerPrincipals.isEmpty then [] else [managerDenyStatement account]
    .ok { policy with
      statement := .many (filtered ++ [deliveryStatement account] ++ managers)
      version := policy.version.or (some "2012-10-17") }

/-- `_ensure_portal_server_access_log_bucket_policy` -/
def ensureLogBucketPolicy (account : Account) : StoreProg Unit := do
  let existing ← Prog.perform (StoreOp.getPolicy account.logBucket)
  match logPolicy account existing with
  | .error e => Prog.raise e
  | .ok policy => Prog.perform (StoreOp.putPolicy account.logBucket (.document policy))

/-- `_put_portal_server_access_logging` -/
def putLogging (account : Account) (sourceBucket : String) : StoreProg Unit :=
  if sourceBucket = account.logBucket then return ()
  else Prog.perform (StoreOp.putLogging sourceBucket
    (some { targetBucket := account.logBucket, targetPrefix := sourcePrefix sourceBucket }))

/-- `_delete_managed_portal_server_access_logging` -/
def deleteManagedLogging (account : Account) (sourceBucket : String) : StoreProg Bool := do
  let current ← Prog.perform (StoreOp.getLogging sourceBucket)
  match current with
  | none => return false
  | some config =>
    if config.targetBucket ≠ account.logBucket || !config.targetPrefix.startsWith prefixRoot then
      return false
    else do
      Prog.perform (StoreOp.putLogging sourceBucket none)
      return true

/-- `_apply_portal_server_access_logging_reconcile` -/
def applyReconcile (account : Account) (settings : PortalSettings) (sourceBuckets : List String) :
    StoreProg Summary :=
  if sourceBuckets.isEmpty then return {}
  else if settings.serverAccessLoggingEnabled then do
    ensureLogBucket account settings
    ensureLogBucketPolicy account
    Prog.foldM sourceBuckets (fun (summary : Summary) sourceBucket =>
      if sourceBucket = account.logBucket then
        return { summary with skipped := summary.skipped + 1 }
      else do
        putLogging account sourceBucket
        return { summary with enabled := summary.enabled + 1 }) {}
  else
    Prog.foldM sourceBuckets (fun (summary : Summary) sourceBucket => do
      let deleted ← deleteManagedLogging account sourceBucket
      return if deleted then { summary with disabled := summary.disabled + 1 }
        else { summary with skipped := summary.skipped + 1 }) {}

def rollbackFailed : Error :=
  .runtime "Unable to reconcile Portal Server Access Logging. Remote rollback also failed."

/-- `reconcile_portal_server_access_logging` -/
def reconcile (account : Account) (settings : PortalSettings) : StoreProg Summary := do
  let snapshot ← capture account
  match snapshot with
  | none => return {}
  | some snapshot =>
    (applyReconcile account settings (snapshot.sourceLogging.map Prod.fst)).tryCatch fun exc => do
      (restore snapshot).tryCatch fun _ => Prog.raise rollbackFailed
      Prog.raise exc

end AccessLogging
end BucketReef

import BucketReef.Lists.Text
import BucketReef.Portal.BucketConfigs

/-!
# Settings of a Storage Space

The versioning of the space's bucket and the two lifecycle rules the Portal manages among the rules of
others. An update replaces the managed rules, changes the versioning and reads the settings back; when
one of its writes fails the previous rules are written again.
-/

namespace BucketReef
namespace SpaceSettings

open Effects BucketConfigs Text

def expireDeleteMarkersRuleId : String := "BucketReefPortalExpireDeleteMarkers"

def expireOldVersionsRuleId : String := "BucketReefPortalExpireOldVersions"

/-- `PORTAL_LIFECYCLE_RULE_IDS` -/
def lifecycleRuleIds : List String := [expireDeleteMarkersRuleId, expireOldVersionsRuleId]

def isManaged (rule : LifecycleRule) : Bool := lifecycleRuleIds.contains (rule.id.getD "")

def portalBucketLifecycleRules (noncurrentVersionExpirationDays : ℤ) : List LifecycleRule :=
  [{ id := some expireDeleteMarkersRuleId
     status := some "Enabled"
     keyPrefix := some ""
     expiredObjectDeleteMarker := some true },
   { id := some expireOldVersionsRuleId
     status := some "Enabled"
     keyPrefix := some ""
     noncurrentDays := some noncurrentVersionExpirationDays }]

/-- The model requires at least one day. -/
structure SettingsUpdate where
  versioningEnabled : Bool
  lifecycleEnabled : Bool
  versionHistoryRetentionDays : ℤ
  one_le : 1 ≤ versionHistoryRetentionDays

structure Settings where
  versioningEnabled : Bool
  versioningStatus : String
  lifecycleEnabled : Bool
  versionHistoryRetentionDays : ℤ
  canUpdate : Bool
  deriving DecidableEq, Repr

/-! ## Reading -/

/-- The managed rule of an id; of several the last one counts. -/
def managedRule (rules : List LifecycleRule) (id : String) : Option LifecycleRule :=
  (rules.filter fun rule => isManaged rule && rule.id.getD "" = id).getLast?

/-- `_portal_storage_space_settings_from_rules`; `defaultDays` is the account's bucket default. -/
def settingsFromRules (defaultDays : ℤ) (versioningStatus : Option String)
    (rules : List LifecycleRule) (canUpdate : Bool) : Settings :=
  let normalizedStatus :=
    match versioningStatus with
    | some status => if status = "Enabled" || status = "Suspended" then status else "Disabled"
    | none => "Disabled"
  let isEnabled := fun id =>
    match managedRule rules id with
    | none => false
    | some rule =>
      let status := rule.status.getD ""
      lower (if status = "" then "Enabled" else status) = "enabled"
  let retentionDays :=
    match (managedRule rules expireOldVersionsRuleId).bind LifecycleRule.noncurrentDays with
    | some days => if days < 1 then defaultDays else days
    | none => defaultDays
  { versioningEnabled := normalizedStatus = "Enabled"
    versioningStatus := normalizedStatus
    lifecycleEnabled := lifecycleRuleIds.all isEnabled
    versionHistoryRetentionDays := retentionDays
    canUpdate }

/-- `_portal_storage_space_runtime_settings` -/
def runtimeSettings (defaultDays : ℤ) (bucket : String) (canUpdate : Bool) : StoreProg Settings := do
  let versioningStatus ← Prog.perform (StoreOp.getVersioning bucket)
  let rules ← Prog.perform (StoreOp.getLifecycle bucket)
  return settingsFromRules defaultDays versioningStatus rules canUpdate

/-! ## Writing -/

/-- `_portal_storage_space_target_lifecycle_rules` -/
def targetLifecycleRules (previousRules : List LifecycleRule) (payload : SettingsUpdate) :
    List LifecycleRule :=
  let targetRules := previousRules.filter fun rule => !isManaged rule
  if payload.lifecycleEnabled then
    targetRules ++ portalBucketLifecycleRules payload.versionHistoryRetentionDays
  else targetRules

def writeLifecycle (bucket : String) (rules : List LifecycleRule) : StoreProg Unit :=
  if rules.isEmpty then Prog.perform (StoreOp.deleteLifecycle bucket)
  else Prog.perform (StoreOp.putLifecycle bucket rules)

/-- Whether the previous rules could be written back. -/
def restoreLifecycle (bucket : String) (previousRules : List LifecycleRule) : StoreProg Bool :=
  ((writeLifecycle bucket previousRules).bind fun _ => .ret true).tryCatch fun _ => .ret false

def unchangedSuffix : String := " Lifecycle settings were unchanged."

def restoredSuffix : String := " Previous lifecycle settings were restored."

def rollbackFailedSuffix : String := " Lifecycle rollback also failed."

def updateError (exc : Error) (suffix : String) : Error :=
  .runtime s!"Unable to update Storage Space settings: {exc.text}.{suffix}"

/-- `_apply_portal_storage_space_settings` -/
def applySettings (bucket : String) (payload : SettingsUpdate) (previousVersioning : Option String)
    (previousRules : List LifecycleRule) : StoreProg Unit :=
  let targetRules := targetLifecycleRules previousRules payload
  let lifecycleChanged : Bool := targetRules ≠ previousRules
  let versioningChanged : Bool := (previousVersioning = some "Enabled") ≠ (payload.versioningEnabled = true)
  Prog.tryCatch
    ((Prog.when lifecycleChanged (writeLifecycle bucket targetRules)).bind fun _ =>
      Prog.when versioningChanged
        (Prog.perform (StoreOp.setVersioning bucket payload.versioningEnabled)))
    fun exc =>
      if !lifecycleChanged then Prog.raise (updateError exc unchangedSuffix)
      else
        (restoreLifecycle bucket previousRules).bind fun restored =>
          Prog.raise (updateError exc (if restored then restoredSuffix else rollbackFailedSuffix))

/-- What the checks before the update find. -/
structure Request where
  isPortalManager : Bool
  /-- The bucket of the space, when the user may see it. -/
  bucketName : Option String
  /-- The check that the user manages the space and that the space is active; the credentials. -/
  checks : Except Error Unit
  defaultDays : ℤ

/-- `update_storage_space_settings` -/
def updateStorageSpaceSettings (request : Request) (payload : SettingsUpdate) : StoreProg Settings :=
  if !request.isPortalManager then
    Prog.raise (.forbidden "Portal manager rights required for Storage Space settings.")
  else
    match request.bucketName with
    | none => Prog.raise (.notFound "Storage space not found or not allowed.")
    | some bucket =>
      match request.checks with
      | .error e => Prog.raise e
      | .ok () => do
        let previousVersioning ← Prog.perform (StoreOp.getVersioning bucket)
        let previousRules ← Prog.perform (StoreOp.getLifecycle bucket)
        applySettings bucket payload previousVersioning previousRules
        runtimeSettings request.defaultDays bucket true

end SpaceSettings
end BucketReef

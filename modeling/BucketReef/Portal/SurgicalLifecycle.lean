import BucketReef.Portal.SpaceSettings

/-!
# What an update of the settings does to the lifecycle rules

The rules of others stay as they are and in order in every outcome. A successful update leaves the
managed rules it was asked for and changes nothing when it is repeated; when a write fails the previous
rules are back, or the error says that they could not be written.
-/

namespace BucketReef
namespace SpaceSettings

open Effects BucketConfigs Text

/-! ## Target rules -/

theorem portalRules_managed (days : ℤ) :
    ∀ rule ∈ portalBucketLifecycleRules days, isManaged rule = true := by
  intro rule hrule
  simp only [portalBucketLifecycleRules, List.mem_cons, List.not_mem_nil, or_false] at hrule
  rcases hrule with rfl | rfl <;> simp [isManaged, lifecycleRuleIds]

/-- The rules of others are those of before. -/
theorem target_unmanaged (rules : List LifecycleRule) (payload : SettingsUpdate) :
    (targetLifecycleRules rules payload).filter (fun rule => !isManaged rule)
      = rules.filter fun rule => !isManaged rule := by
  have hnone : (portalBucketLifecycleRules payload.versionHistoryRetentionDays).filter
      (fun rule => !isManaged rule) = [] := by
    rw [List.filter_eq_nil_iff]
    intro rule hrule
    simp [portalRules_managed _ rule hrule]
  unfold targetLifecycleRules
  dsimp only
  split
  · rw [List.filter_append, hnone, List.append_nil, List.filter_filter]
    simp
  · rw [List.filter_filter]
    simp

/-- The managed rules are those the settings ask for. -/
theorem target_managed (rules : List LifecycleRule) (payload : SettingsUpdate) :
    (targetLifecycleRules rules payload).filter isManaged
      = if payload.lifecycleEnabled then
          portalBucketLifecycleRules payload.versionHistoryRetentionDays
        else [] := by
  have hothers : (rules.filter fun rule => !isManaged rule).filter isManaged = [] := by
    rw [List.filter_eq_nil_iff]
    intro rule hrule
    simpa using (List.mem_filter.mp hrule).2
  have hall : (portalBucketLifecycleRules payload.versionHistoryRetentionDays).filter isManaged
      = portalBucketLifecycleRules payload.versionHistoryRetentionDays :=
    List.filter_eq_self.mpr (portalRules_managed _)
  unfold targetLifecycleRules
  dsimp only
  split
  · rw [List.filter_append, hothers, hall, List.nil_append]
  · exact hothers

/-- The target depends on the rules of others only. -/
theorem target_congr {rules rules' : List LifecycleRule} (payload : SettingsUpdate)
    (h : rules.filter (fun rule => !isManaged rule) = rules'.filter fun rule => !isManaged rule) :
    targetLifecycleRules rules payload = targetLifecycleRules rules' payload := by
  unfold targetLifecycleRules
  rw [h]

/-- Asking again changes nothing. -/
theorem target_target (rules : List LifecycleRule) (payload : SettingsUpdate) :
    targetLifecycleRules (targetLifecycleRules rules payload) payload
      = targetLifecycleRules rules payload :=
  target_congr payload (target_unmanaged rules payload)

/-! ## Writes -/

/-- The bucket's lifecycle after a write that took effect. -/
def withLifecycle (store : Store) (bucket : String) (config : BucketConfig)
    (rules : List LifecycleRule) : Store :=
  store.set bucket (some { config with lifecycle := rules })

theorem writeLifecycle_survives {store : Store} {bucket : String} {config : BucketConfig}
    (rules : List LifecycleRule) (h : store bucket = some config) :
    Survives apply (writeLifecycle bucket rules)
      (fun _ after => after = withLifecycle store bucket config rules)
      (fun _ after => after = store ∨ after = withLifecycle store bucket config rules) store := by
  unfold writeLifecycle
  cases hrules : rules with
  | nil =>
    have happly : apply (.deleteLifecycle bucket) store
        = (withLifecycle store bucket config [], .ok ()) := by
      simp [apply, Store.remove, h, withLifecycle]
    refine Survives.perform ?_ ?_ ?_ ?_
    · intro a _
      rw [happly]
    · rw [happly]
      rintro e ⟨⟩
    · exact fun _ => .inl rfl
    · intro e
      rw [happly]
      exact .inr rfl
  | cons rule rest =>
    have happly : apply (.putLifecycle bucket (rule :: rest)) store
        = (withLifecycle store bucket config (rule :: rest), .ok ()) := by
      simp [apply, Store.modify, h, withLifecycle]
    refine Survives.perform ?_ ?_ ?_ ?_
    · intro a _
      rw [happly]
    · rw [happly]
      rintro e ⟨⟩
    · exact fun _ => .inl rfl
    · intro e
      rw [happly]
      exact .inr rfl

/-- Writing the previous rules back, whatever the lifecycle and the versioning are by then. -/
theorem restoreLifecycle_survives {store : Store} {bucket : String} {config : BucketConfig}
    (previousRules : List LifecycleRule) (h : store bucket = some config) :
    Survives apply (restoreLifecycle bucket previousRules)
      (fun restored after => if restored then after = withLifecycle store bucket config previousRules
        else after = store ∨ after = withLifecycle store bucket config previousRules)
      (fun _ _ => False) store := by
  refine .tryCatch (.bind ((writeLifecycle_survives previousRules h).mono ?_ ?_))
  · rintro _ after rfl
    exact .ret rfl
  · rintro _ after hafter
    exact .ret hafter

/-- The versioning an update leaves. -/
def targetVersioning (previous : Option String) (payload : SettingsUpdate) : Option String :=
  if (previous = some "Enabled") ≠ (payload.versioningEnabled = true) then
    some (if payload.versioningEnabled then "Enabled" else "Suspended")
  else previous

/-- The configuration an update asks for. -/
def targetConfig (config : BucketConfig) (payload : SettingsUpdate) : BucketConfig :=
  { config with
    lifecycle := targetLifecycleRules config.lifecycle payload
    versioning := targetVersioning config.versioning payload }

/-- The error says that the previous rules could not be written back. -/
def ReportsFailedRollback (error : Error) : Prop :=
  ∃ exc, error = updateError exc rollbackFailedSuffix

/-- What is left after a failed update: only versioning and lifecycle may differ. -/
def LeftBehind (store after : Store) (bucket : String) (config : BucketConfig)
    (rules : List LifecycleRule) : Prop :=
  ∃ versioning, after = store.set bucket (some { config with versioning, lifecycle := rules })

theorem setVersioning_apply {store : Store} {bucket : String} {config : BucketConfig} (enabled : Bool)
    (h : store bucket = some config) :
    apply (.setVersioning bucket enabled) store
      = (store.set bucket (some { config with
          versioning := some (if enabled then "Enabled" else "Suspended") }), .ok ()) := by
  simp [apply, Store.modify, h]

/-- The writes up to the first that fails. -/
theorem writes_survive {store : Store} {bucket : String} {config : BucketConfig}
    (payload : SettingsUpdate) (h : store bucket = some config) :
    Survives apply
      ((Prog.when (targetLifecycleRules config.lifecycle payload ≠ config.lifecycle)
          (writeLifecycle bucket (targetLifecycleRules config.lifecycle payload))).bind fun _ =>
        Prog.when ((config.versioning = some "Enabled") ≠ (payload.versioningEnabled = true))
          (Prog.perform (StoreOp.setVersioning bucket payload.versioningEnabled)))
      (fun _ after => after = store.set bucket (some (targetConfig config payload)))
      (fun _ after => LeftBehind store after bucket config config.lifecycle ∨
        LeftBehind store after bucket config (targetLifecycleRules config.lifecycle payload)) store := by
  have hsame : store = store.set bucket (some config) := (Store.set_self h).symm
  have hversioning : ∀ middle, middle = withLifecycle store bucket config
      (targetLifecycleRules config.lifecycle payload) →
      Survives apply
        (Prog.when ((config.versioning = some "Enabled") ≠ (payload.versioningEnabled = true))
          (Prog.perform (StoreOp.setVersioning bucket payload.versioningEnabled)))
        (fun _ after => after = store.set bucket (some (targetConfig config payload)))
        (fun _ after => LeftBehind store after bucket config config.lifecycle ∨
          LeftBehind store after bucket config (targetLifecycleRules config.lifecycle payload))
        middle := by
    rintro middle rfl
    refine .when ?_ ?_
    · intro hchanged
      have happly := setVersioning_apply payload.versioningEnabled (Store.set_same store bucket
        (some { config with lifecycle := targetLifecycleRules config.lifecycle payload }))
      rw [Store.set_set] at happly
      have htarget : targetVersioning config.versioning payload
          = some (if payload.versioningEnabled then "Enabled" else "Suspended") :=
        if_pos (of_decide_eq_true hchanged)
      refine Survives.perform ?_ ?_ ?_ ?_
      · intro a _
        rw [withLifecycle, happly, targetConfig, htarget]
      · intro e
        rw [withLifecycle, happly]
        rintro ⟨⟩
      · exact fun _ => .inr ⟨config.versioning, rfl⟩
      · intro e
        rw [withLifecycle, happly]
        exact .inr ⟨_, rfl⟩
    · intro hkept
      have htarget : targetVersioning config.versioning payload = config.versioning :=
        if_neg (of_decide_eq_false hkept)
      rw [targetConfig, htarget]
      rfl
  refine .bind (.when ?_ ?_)
  · intro _
    refine (writeLifecycle_survives _ h).mono (fun _ after hafter => hversioning after hafter) ?_
    rintro _ after (rfl | rfl)
    · exact .inl ⟨config.versioning, hsame⟩
    · exact .inr ⟨config.versioning, rfl⟩
  · intro hkept
    have hrules : targetLifecycleRules config.lifecycle payload = config.lifecycle := by
      simpa using hkept
    refine hversioning store ?_
    rw [withLifecycle, hrules]
    exact hsame

/-- The writes of an update succeed together, or the previous rules are back, or the error reports that
they could not be written. -/
theorem applySettings_survives {store : Store} {bucket : String} {config : BucketConfig}
    (payload : SettingsUpdate) (h : store bucket = some config) :
    Survives apply (applySettings bucket payload config.versioning config.lifecycle)
      (fun _ after => after = store.set bucket (some (targetConfig config payload)))
      (fun error after => LeftBehind store after bucket config config.lifecycle ∨
        ReportsFailedRollback error ∧
          LeftBehind store after bucket config (targetLifecycleRules config.lifecycle payload)) store := by
  unfold applySettings
  refine .tryCatch ((writes_survive payload h).mono (fun _ _ hafter => hafter) ?_)
  intro exc after hleft
  by_cases hrules : targetLifecycleRules config.lifecycle payload = config.lifecycle
  · rw [if_pos (by simpa using hrules)]
    rw [hrules, or_self] at hleft
    exact .fail (.inl hleft)
  · rw [if_neg (by simpa using hrules)]
    have hwhole : ∃ versioning rules, after = store.set bucket
        (some { config with versioning := versioning, lifecycle := rules }) ∧
        (rules = config.lifecycle ∨ rules = targetLifecycleRules config.lifecycle payload) := by
      rcases hleft with ⟨versioning, hafter⟩ | ⟨versioning, hafter⟩
      · exact ⟨versioning, _, hafter, .inl rfl⟩
      · exact ⟨versioning, _, hafter, .inr rfl⟩
    obtain ⟨versioning, rules, rfl, hcase⟩ := hwhole
    refine .bind ((restoreLifecycle_survives config.lifecycle (Store.set_same _ _ _)).mono ?_ ?_)
    · intro restored after hafter
      have hback : withLifecycle (store.set bucket
          (some { config with versioning := versioning, lifecycle := rules })) bucket
          { config with versioning := versioning, lifecycle := rules } config.lifecycle
          = store.set bucket (some { config with versioning := versioning }) := by
        rw [withLifecycle, Store.set_set]
      rw [hback] at hafter
      cases restored with
      | true => exact .fail (.inl ⟨versioning, hafter⟩)
      | false =>
        rcases hafter with rfl | rfl
        · rcases hcase with rfl | rfl
          · exact .fail (.inl ⟨versioning, rfl⟩)
          · exact .fail (.inr ⟨⟨exc, rfl⟩, versioning, rfl⟩)
        · exact .fail (.inl ⟨versioning, rfl⟩)
    · exact fun _ _ hfalse => hfalse.elim

/-- Reading the settings back changes nothing. -/
theorem runtimeSettings_survives {store : Store} {bucket : String} {config : BucketConfig}
    (defaultDays : ℤ) (canUpdate : Bool) (h : store bucket = some config) :
    Survives apply (runtimeSettings defaultDays bucket canUpdate)
      (fun settings after => after = store ∧
        settings = settingsFromRules defaultDays config.versioning config.lifecycle canUpdate)
      (fun _ after => after = store) store := by
  unfold runtimeSettings
  have hversioning : apply (.getVersioning bucket) store = (store, .ok config.versioning) := by
    simp [apply, h]
  have hlifecycle : apply (.getLifecycle bucket) store = (store, .ok config.lifecycle) := by
    simp [apply, h]
  refine .bind (.read (by rw [hversioning]) ?_ fun _ => rfl)
  rw [hversioning]
  rintro versioning ⟨⟩
  refine .bind (.read (by rw [hlifecycle]) ?_ fun _ => rfl)
  rw [hlifecycle]
  rintro rules ⟨⟩
  exact .ret ⟨rfl, rfl⟩

/-- The whole update on a bucket that exists. -/
theorem update_survives {store : Store} {bucket : String} {config : BucketConfig} {request : Request}
    (payload : SettingsUpdate) (hbucket : request.bucketName = some bucket)
    (h : store bucket = some config) :
    Survives apply (updateStorageSpaceSettings request payload)
      (fun settings after => after = store.set bucket (some (targetConfig config payload)) ∧
        settings = settingsFromRules request.defaultDays (targetConfig config payload).versioning
          (targetConfig config payload).lifecycle true)
      (fun error after => LeftBehind store after bucket config config.lifecycle ∨
        ReportsFailedRollback error ∧
          LeftBehind store after bucket config (targetLifecycleRules config.lifecycle payload) ∨
        after = store.set bucket (some (targetConfig config payload))) store := by
  have hsame : LeftBehind store store bucket config config.lifecycle :=
    ⟨config.versioning, (Store.set_self h).symm⟩
  have hversioning : apply (.getVersioning bucket) store = (store, .ok config.versioning) := by
    simp [apply, h]
  have hlifecycle : apply (.getLifecycle bucket) store = (store, .ok config.lifecycle) := by
    simp [apply, h]
  unfold updateStorageSpaceSettings
  split
  · exact .fail (.inl hsame)
  · rw [hbucket]
    dsimp only
    split
    · exact .fail (.inl hsame)
    · refine .bind (.read (by rw [hversioning]) ?_ fun _ => .inl hsame)
      rw [hversioning]
      rintro versioning ⟨⟩
      refine .bind (.read (by rw [hlifecycle]) ?_ fun _ => .inl hsame)
      rw [hlifecycle]
      rintro rules ⟨⟩
      refine .bind ((applySettings_survives payload h).mono ?_ ?_)
      · rintro _ after rfl
        refine (runtimeSettings_survives _ _ (Store.set_same _ _ _)).mono (fun _ _ hread => hread) ?_
        rintro _ after rfl
        exact .inr (.inr rfl)
      · rintro error after (hleft | hreported)
        · exact .inl hleft
        · exact .inr (.inl hreported)

/-! ## Reading back -/

theorem managedRule_target (rules : List LifecycleRule) (payload : SettingsUpdate) (id : String) :
    managedRule (targetLifecycleRules rules payload) id =
      if payload.lifecycleEnabled then
        ((portalBucketLifecycleRules payload.versionHistoryRetentionDays).filter
          fun rule => rule.id.getD "" = id).getLast?
      else none := by
  unfold managedRule
  have hsplit : (targetLifecycleRules rules payload).filter
      (fun rule => isManaged rule && decide (rule.id.getD "" = id))
      = ((targetLifecycleRules rules payload).filter isManaged).filter
          fun rule => rule.id.getD "" = id := by
    rw [List.filter_filter]
    exact List.filter_congr fun rule _ => Bool.and_comm _ _
  rw [hsplit, target_managed]
  split <;> rfl

theorem portalRule_markers (days : ℤ) :
    ((portalBucketLifecycleRules days).filter
      fun rule => rule.id.getD "" = expireDeleteMarkersRuleId).getLast?
      = some { id := some expireDeleteMarkersRuleId, status := some "Enabled", keyPrefix := some "",
               expiredObjectDeleteMarker := some true } := by
  simp [portalBucketLifecycleRules, expireDeleteMarkersRuleId, expireOldVersionsRuleId]

theorem portalRule_versions (days : ℤ) :
    ((portalBucketLifecycleRules days).filter
      fun rule => rule.id.getD "" = expireOldVersionsRuleId).getLast?
      = some { id := some expireOldVersionsRuleId, status := some "Enabled", keyPrefix := some "",
               noncurrentDays := some days } := by
  simp [portalBucketLifecycleRules, expireDeleteMarkersRuleId, expireOldVersionsRuleId]

/-- The settings read back are the ones that were asked for. -/
theorem settings_of_target (defaultDays : ℤ) (config : BucketConfig) (payload : SettingsUpdate)
    (canUpdate : Bool) :
    let settings := settingsFromRules defaultDays (targetConfig config payload).versioning
      (targetConfig config payload).lifecycle canUpdate
    settings.versioningEnabled = payload.versioningEnabled ∧
      settings.lifecycleEnabled = payload.lifecycleEnabled ∧
      (payload.lifecycleEnabled = true →
        settings.versionHistoryRetentionDays = payload.versionHistoryRetentionDays) := by
  refine ⟨?_, ?_, ?_⟩
  · unfold settingsFromRules targetConfig targetVersioning
    dsimp only
    cases payload.versioningEnabled with
    | true =>
      by_cases hprevious : config.versioning = some "Enabled" <;> simp [hprevious]
    | false =>
      by_cases hprevious : config.versioning = some "Enabled"
      · simp [hprevious]
      · cases hversioning : config.versioning with
        | none => simp
        | some status =>
          have hne : status ≠ "Enabled" := by
            rintro rfl
            exact hprevious hversioning
          by_cases hsuspended : status = "Suspended" <;> simp [hne, hsuspended]
  · unfold settingsFromRules targetConfig
    simp only [lifecycleRuleIds, List.all_cons, List.all_nil, managedRule_target, portalRule_markers,
      portalRule_versions]
    have hstatus : lower (if (some "Enabled").getD "" = "" then "Enabled" else (some "Enabled").getD "")
        = "enabled" := by decide
    cases payload.lifecycleEnabled with
    | true => simp only [if_true, hstatus, decide_true, Bool.and_self]
    | false => rfl
  · intro henabled
    have hdays := payload.one_le
    unfold settingsFromRules targetConfig
    simp only [managedRule_target, henabled, if_true, portalRule_versions]
    show (if payload.versionHistoryRetentionDays < 1 then defaultDays
      else payload.versionHistoryRetentionDays) = _
    rw [if_neg (by omega)]

/-- What an update does, whatever happens to its calls: when the part that writes fails, the previous
rules are back or the error reports a failed rollback, and when it succeeds, the new rules stay even if
reading them back fails; other buckets and the rules of others stay; a success leaves what was asked
for, reads it back and is repeated without an effect; and where an update fails and the rules differ,
they are the ones that were asked for. -/
theorem update_is_surgical {store after : Store} {bucket : String} {config : BucketConfig}
    {request : Request} {payload : SettingsUpdate} {fates : ℕ → Fate Error}
    {result : Except Error Settings} (hbucket : request.bucketName = some bucket)
    (hconfig : store bucket = some config)
    (hrun : (updateStorageSpaceSettings request payload).run apply fates store = (after, result)) :
    (∀ fates' after' error,
      (applySettings bucket payload config.versioning config.lifecycle).run apply fates' store
          = (after', .error error) →
        (after' bucket).map BucketConfig.lifecycle = some config.lifecycle ∨
          ReportsFailedRollback error) ∧
    (∀ fates' after',
      (applySettings bucket payload config.versioning config.lifecycle).run apply fates' store
          = (after', .ok ()) →
        after' = store.set bucket (some (targetConfig config payload)) ∧
          ∀ readFates, ((runtimeSettings request.defaultDays bucket true).run apply readFates
            after').1 = after') ∧
    ∃ config', after = store.set bucket (some config') ∧
      config'.lifecycle.filter (fun rule => !isManaged rule)
        = config.lifecycle.filter (fun rule => !isManaged rule) ∧
      (∀ settings, result = .ok settings →
        config'.lifecycle = targetLifecycleRules config.lifecycle payload ∧
        config'.lifecycle.filter isManaged = (if payload.lifecycleEnabled then
          portalBucketLifecycleRules payload.versionHistoryRetentionDays else []) ∧
        settings.versioningEnabled = payload.versioningEnabled ∧
        settings.lifecycleEnabled = payload.lifecycleEnabled ∧
        ∀ fates' settings',
          ((updateStorageSpaceSettings request payload).run apply fates' after).2 = .ok settings' →
          ((updateStorageSpaceSettings request payload).run apply fates' after).1 = after) ∧
      ∀ error, result = .error error →
        config'.lifecycle = config.lifecycle ∨ ReportsFailedRollback error ∨
          config' = targetConfig config payload := by
  refine ⟨?_, ?_, ?_⟩
  · intro fates' after' error hwrites
    rcases (applySettings_survives payload hconfig).run_error hwrites with
      ⟨versioning, rfl⟩ | ⟨hreported, -⟩
    · exact .inl (by simp)
    · exact .inr hreported
  · intro fates' after' hwrites
    obtain rfl := (applySettings_survives payload hconfig).run_ok hwrites
    refine ⟨rfl, fun readFates => ?_⟩
    -- the reading back changes nothing, whether it answers or not
    have hread := runtimeSettings_survives request.defaultDays true
      (Store.set_same store bucket (some (targetConfig config payload)))
    cases hend : (runtimeSettings request.defaultDays bucket true).run apply readFates
        (store.set bucket (some (targetConfig config payload))) with
    | mk left answer =>
      cases answer with
      | ok settings => exact (hread.run_ok hend).1
      | error error => exact hread.run_error hend
  have hsurvives := update_survives payload hbucket hconfig
  cases result with
  | ok settings =>
    obtain ⟨rfl, rfl⟩ := hsurvives.run_ok hrun
    obtain ⟨hversioning, hlifecycle, -⟩ := settings_of_target request.defaultDays config payload true
    refine ⟨targetConfig config payload, rfl, target_unmanaged _ _, ?_, ?_⟩
    · rintro settings ⟨⟩
      refine ⟨rfl, target_managed _ _, hversioning, hlifecycle, ?_⟩
      intro fates' settings' hagain
      have hsurvives' := update_survives payload hbucket
        (Store.set_same store bucket (some (targetConfig config payload)))
      have hafter := (hsurvives'.run_ok (Prod.ext rfl hagain)).1
      have hfixed : targetConfig (targetConfig config payload) payload = targetConfig config payload := by
        unfold targetConfig
        dsimp only
        rw [target_target]
        unfold targetVersioning
        cases payload.versioningEnabled <;> by_cases hprevious : config.versioning = some "Enabled" <;>
          simp [hprevious]
      refine hafter.trans ?_
      rw [hfixed, Store.set_set]
    · rintro error ⟨⟩
  | error error =>
    rcases hsurvives.run_error hrun with ⟨versioning, hafter⟩ | ⟨hreported, versioning, hafter⟩ | hafter
    · refine ⟨_, hafter, rfl, ?_, fun _ _ => .inl rfl⟩
      rintro settings ⟨⟩
    · refine ⟨_, hafter, target_unmanaged _ _, ?_, ?_⟩
      · rintro settings ⟨⟩
      · rintro error ⟨⟩
        exact .inr (.inl hreported)
    · refine ⟨_, hafter, target_unmanaged _ _, ?_, fun _ _ => .inr (.inr rfl)⟩
      rintro settings ⟨⟩

/-! ## A sample -/

def sampleRequest : Request where
  isPortalManager := true
  bucketName := some "b"
  checks := .ok ()
  defaultDays := 90

def sampleUpdate : SettingsUpdate where
  versioningEnabled := true
  lifecycleEnabled := true
  versionHistoryRetentionDays := 30
  one_le := by decide

/-- One bucket with one rule of its owner. -/
def sampleStore : Store := fun bucket =>
  if bucket = "b" then some { lifecycle := [{ id := some "archive", status := some "Enabled" }] } else none

/-- Every call answers. -/
theorem update_is_surgical_sample :
    ∃ config', ((updateStorageSpaceSettings sampleRequest sampleUpdate).run apply (fun _ => .done)
        sampleStore).1 = sampleStore.set "b" (some config') ∧
      config'.lifecycle.filter (fun rule => !isManaged rule)
        = [{ id := some "archive", status := some "Enabled" }] := by
  have hrun : (updateStorageSpaceSettings sampleRequest sampleUpdate).run apply (fun _ => .done)
      sampleStore = (_, _) := rfl
  obtain ⟨-, -, config', hafter, hkept, -⟩ := update_is_surgical rfl rfl hrun
  exact ⟨config', hafter, hkept⟩

/-- The fifth call of an update, which reads the versioning back, fails. -/
def readBackFails : ℕ → Fate Error := fun n => if n = 4 then .refused (.runtime "timeout") else .done

/-- An update that fails where it reads the settings back leaves the new rules. -/
theorem read_back_failure_keeps_new_rules :
    ¬ ∀ (request : Request) (payload : SettingsUpdate) (bucket : String) (store after : Store)
      (fates : ℕ → Fate Error) (error : Error), request.bucketName = some bucket →
      (updateStorageSpaceSettings request payload).run apply fates store = (after, .error error) →
      (after bucket).map BucketConfig.lifecycle = (store bucket).map BucketConfig.lifecycle := by
  intro hrestored
  have h := hrestored sampleRequest sampleUpdate "b" sampleStore _ readBackFails _ rfl rfl
  revert h
  decide

end SpaceSettings
end BucketReef

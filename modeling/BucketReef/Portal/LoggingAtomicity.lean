import BucketReef.Portal.AccessLogging

/-!
# The reconciliation of access logging is atomic

While logging is applied, the buckets differ from those before only in the logging of the source
buckets and in the policy, the lifecycle and the existence of the log bucket. The restoration takes
these differences back one by one, and a step of it that fails makes the whole restoration fail.
-/

namespace BucketReef
namespace AccessLogging

open Effects BucketConfigs

/-! ## Differences from the state before -/

/-- What may differ: the logging of some buckets, and three things about the log bucket. -/
structure Dirty where
  logging : String → Prop
  policy : Prop
  lifecycle : Prop
  created : Prop

/-- How the configuration of one bucket may differ from the one before. -/
def NearConfig (dirty : Dirty) (logBucket bucket : String) :
    Option BucketConfig → Option BucketConfig → Prop
  | none, current => current = none ∨ bucket = logBucket ∧ dirty.created
  | some config, current =>
    ∃ logging policy lifecycle, current = some { config with logging, policy, lifecycle } ∧
      (logging = config.logging ∨ dirty.logging bucket) ∧
      (policy = config.policy ∨ bucket = logBucket ∧ dirty.policy) ∧
      (lifecycle = config.lifecycle ∨ bucket = logBucket ∧ dirty.lifecycle)

def Near (dirty : Dirty) (logBucket : String) (store current : Store) : Prop :=
  ∀ bucket, NearConfig dirty logBucket bucket (store bucket) (current bucket)

theorem near_refl (dirty : Dirty) (logBucket : String) (store : Store) :
    Near dirty logBucket store store := by
  intro bucket
  cases h : store bucket with
  | none => exact .inl rfl
  | some config => exact ⟨config.logging, config.policy, config.lifecycle, rfl, .inl rfl, .inl rfl, .inl rfl⟩

/-- Nothing differs where nothing may. -/
theorem Near.eq {dirty : Dirty} {logBucket : String} {store current : Store}
    (h : Near dirty logBucket store current) (hlogging : ∀ bucket, ¬ dirty.logging bucket)
    (hpolicy : ¬ dirty.policy) (hlifecycle : ¬ dirty.lifecycle) (hcreated : ¬ dirty.created) :
    current = store := by
  funext bucket
  have hbucket := h bucket
  cases hstore : store bucket with
  | none =>
    rw [hstore] at hbucket
    exact hbucket.resolve_right fun hlog => hcreated hlog.2
  | some config =>
    rw [hstore] at hbucket
    obtain ⟨logging, policy, lifecycle, hcurrent, hl, hp, hf⟩ := hbucket
    rw [hcurrent, hl.resolve_right (hlogging bucket), hp.resolve_right fun h => hpolicy h.2,
      hf.resolve_right fun h => hlifecycle h.2]

theorem NearConfig.mono {dirty dirty' : Dirty} {logBucket bucket : String}
    {before current : Option BucketConfig} (h : NearConfig dirty logBucket bucket before current)
    (hlogging : dirty.logging bucket → dirty'.logging bucket)
    (hpolicy : bucket = logBucket → dirty.policy → dirty'.policy)
    (hlifecycle : bucket = logBucket → dirty.lifecycle → dirty'.lifecycle)
    (hcreated : bucket = logBucket → dirty.created → dirty'.created) :
    NearConfig dirty' logBucket bucket before current := by
  cases before with
  | none => exact h.imp_right fun hlog => ⟨hlog.1, hcreated hlog.1 hlog.2⟩
  | some config =>
    obtain ⟨logging, policy, lifecycle, hcurrent, hl, hp, hf⟩ := h
    exact ⟨logging, policy, lifecycle, hcurrent, hl.imp_right hlogging,
      hp.imp_right fun hlog => ⟨hlog.1, hpolicy hlog.1 hlog.2⟩,
      hf.imp_right fun hlog => ⟨hlog.1, hlifecycle hlog.1 hlog.2⟩⟩

/-- One bucket is written, and the others may differ as before. -/
theorem Near.set {dirty dirty' : Dirty} {logBucket bucket : String} {store current : Store}
    {config : Option BucketConfig} (h : Near dirty logBucket store current)
    (hothers : ∀ other, other ≠ bucket →
      NearConfig dirty logBucket other (store other) (current other) →
      NearConfig dirty' logBucket other (store other) (current other))
    (hbucket : NearConfig dirty' logBucket bucket (store bucket) config) :
    Near dirty' logBucket store (current.set bucket config) := by
  intro other
  by_cases hother : other = bucket
  · rw [hother, Store.set_same]
    exact hbucket
  · rw [Store.set_other hother]
    exact hothers other hother (h other)

/-- A bucket that was there is there, with these parts possibly different. -/
theorem Near.exists {dirty : Dirty} {logBucket bucket : String} {store current : Store}
    {config : BucketConfig} (h : Near dirty logBucket store current) (hstore : store bucket = some config) :
    ∃ logging policy lifecycle, current bucket = some { config with logging, policy, lifecycle } ∧
      (logging = config.logging ∨ dirty.logging bucket) ∧
      (policy = config.policy ∨ bucket = logBucket ∧ dirty.policy) ∧
      (lifecycle = config.lifecycle ∨ bucket = logBucket ∧ dirty.lifecycle) := by
  have hbucket := h bucket
  rw [hstore] at hbucket
  exact hbucket

/-! ## Applying -/

/-- The operations of the part that applies or removes logging. -/
def Allowed (account : Account) : StoreOp → Prop
  | .headBucket _ => True
  | .getVersioning _ => True
  | .getLifecycle _ => True
  | .getLogging _ => True
  | .getPolicy _ => True
  | .createBucket bucket => bucket = account.logBucket
  | .putLifecycle bucket _ => bucket = account.logBucket
  | .putPolicy bucket _ => bucket = account.logBucket
  | .putLogging bucket _ => bucket ∈ account.sourceBuckets
  | _ => False

/-- Everything that part may change. -/
def applied (account : Account) (store : Store) : Dirty where
  logging bucket := bucket ∈ account.sourceBuckets
  policy := True
  lifecycle := True
  created := store account.logBucket = none

/-- A write to a part that may differ. -/
theorem Near.modify {account : Account} {store current : Store} {bucket : String}
    {change : BucketConfig → BucketConfig}
    (h : Near (applied account store) account.logBucket store current)
    (hchange : ∀ config, ∃ logging policy lifecycle,
      change config = { config with logging, policy, lifecycle } ∧
        (logging = config.logging ∨ bucket ∈ account.sourceBuckets) ∧
        (policy = config.policy ∨ bucket = account.logBucket) ∧
        (lifecycle = config.lifecycle ∨ bucket = account.logBucket)) :
    Near (applied account store) account.logBucket store (current.modify bucket change).1 := by
  unfold Store.modify
  cases hcurrent : current bucket with
  | none => exact h
  | some config =>
    refine h.set (fun _ _ hother => hother) ?_
    have hbucket := h bucket
    obtain ⟨logging', policy', lifecycle', hnew, hl', hp', hf'⟩ := hchange config
    cases hstore : store bucket with
    | none =>
      rw [hstore, hcurrent] at hbucket
      exact .inr (hbucket.resolve_left (by simp))
    | some before =>
      rw [hstore, hcurrent] at hbucket
      obtain ⟨logging, policy, lifecycle, hconfig, hl, hp, hf⟩ := hbucket
      obtain rfl := Option.some.inj hconfig
      refine ⟨logging', policy', lifecycle', by rw [hnew], ?_, ?_, ?_⟩
      · rcases hl' with rfl | hsource
        · exact hl
        · exact .inr hsource
      · rcases hp' with rfl | hlog
        · exact hp
        · exact .inr ⟨hlog, trivial⟩
      · rcases hf' with rfl | hlog
        · exact hf
        · exact .inr ⟨hlog, trivial⟩

theorem allowed_keeps {account : Account} {store : Store} (op : StoreOp) (hop : Allowed account op)
    (current : Store) (h : Near (applied account store) account.logBucket store current) :
    Near (applied account store) account.logBucket store (apply op current).1 := by
  cases op with
  | headBucket bucket => exact h
  | getLifecycle bucket => exact h
  | getPolicy bucket => exact h
  | getVersioning bucket =>
    rw [apply_getVersioning_store]
    exact h
  | getLogging bucket =>
    rw [apply_getLogging_store]
    exact h
  | createBucket bucket =>
    obtain rfl : bucket = account.logBucket := hop
    unfold apply
    dsimp only
    split
    · exact h
    · next hnone =>
      refine h.set (fun _ _ hother => hother) ?_
      cases hstore : store account.logBucket with
      | none => exact .inr ⟨rfl, hstore⟩
      | some config =>
        obtain ⟨_, _, _, hconfig, -⟩ := h.exists hstore
        rw [hnone] at hconfig
        cases hconfig
  | putLifecycle bucket rules =>
    unfold apply
    dsimp only
    split
    · exact h
    · exact h.modify fun config => ⟨config.logging, config.policy, rules, rfl, .inl rfl, .inl rfl, .inr hop⟩
  | putPolicy bucket policy =>
    exact h.modify fun config =>
      ⟨config.logging, some policy, config.lifecycle, rfl, .inl rfl, .inr hop, .inl rfl⟩
  | putLogging bucket logging =>
    exact h.modify fun config =>
      ⟨logging, config.policy, config.lifecycle, rfl, .inr hop, .inl rfl, .inl rfl⟩
  | deleteEmptyBucket bucket => exact hop.elim
  | purgeAndDelete bucket => exact hop.elim
  | setVersioning bucket enabled => exact hop.elim
  | deleteLifecycle bucket => exact hop.elim
  | deletePolicy bucket => exact hop.elim

theorem uses_op {account : Account} (op : StoreOp) (h : Allowed account op) :
    (Prog.perform op : StoreProg (StoreReply op)).Uses (Allowed account) :=
  uses_perform h

theorem ensureLogBucket_uses (account : Account) (settings : PortalSettings) :
    (ensureLogBucket account settings).Uses (Allowed account) := by
  refine uses_composes.bind (uses_op (.headBucket _) trivial) fun found => ?_
  refine uses_composes.when fun _ => ?_
  exact uses_composes.bind (uses_op (.createBucket _) rfl) fun _ => uses_op (.putLifecycle _ _) rfl

theorem ensureLogBucketPolicy_uses (account : Account) :
    (ensureLogBucketPolicy account).Uses (Allowed account) := by
  refine uses_composes.bind (uses_op (.getPolicy _) trivial) fun existing => ?_
  cases logPolicy account existing with
  | error e => exact uses_composes.raise e
  | ok policy => exact uses_op (.putPolicy _ _) rfl

theorem putLogging_uses {account : Account} {bucket : String} (h : bucket ∈ account.sourceBuckets) :
    (putLogging account bucket).Uses (Allowed account) := by
  unfold putLogging
  split
  · exact uses_composes.pure ()
  · exact uses_op (.putLogging _ _) h

theorem deleteManagedLogging_uses {account : Account} {bucket : String}
    (h : bucket ∈ account.sourceBuckets) :
    (deleteManagedLogging account bucket).Uses (Allowed account) := by
  refine uses_composes.bind (uses_op (.getLogging _) trivial) fun current => ?_
  cases current with
  | none => exact uses_composes.pure false
  | some config =>
    dsimp only
    split
    · exact uses_composes.pure false
    · exact uses_composes.bind (uses_op (.putLogging _ _) h) fun _ => uses_composes.pure true

theorem applyReconcile_uses (account : Account) (settings : PortalSettings) {sources : List String}
    (hsources : ∀ bucket ∈ sources, bucket ∈ account.sourceBuckets) :
    (applyReconcile account settings sources).Uses (Allowed account) := by
  unfold applyReconcile
  split
  · exact uses_composes.pure _
  split
  · refine uses_composes.bind (ensureLogBucket_uses account settings) fun _ => ?_
    refine uses_composes.bind (ensureLogBucketPolicy_uses account) fun _ => ?_
    refine uses_composes.foldM fun summary bucket hbucket => ?_
    split
    · exact uses_composes.pure _
    · exact uses_composes.bind (putLogging_uses (hsources bucket hbucket)) fun _ =>
        uses_composes.pure _
  · refine uses_composes.foldM fun summary bucket hbucket => ?_
    exact uses_composes.bind (deleteManagedLogging_uses (hsources bucket hbucket)) fun _ =>
      uses_composes.pure _

/-! ## The snapshot -/

/-- The snapshot holds what the store has. -/
structure Describes (snapshot : Snapshot) (account : Account) (store : Store) : Prop where
  sources : snapshot.sourceLogging
    = account.sourceBuckets.map fun bucket => (bucket, (store bucket).bind BucketConfig.logging)
  logBucket : snapshot.logBucket = account.logBucket
  existed : snapshot.logBucketExisted = (store account.logBucket).isSome
  policy : snapshot.logBucketPolicy = (store account.logBucket).bind BucketConfig.policy
  lifecycle : snapshot.logBucketLifecycle = (store account.logBucket).elim [] BucketConfig.lifecycle

theorem captureSourceLogging_survives (sources : List String) (store : Store) :
    Survives apply (captureSourceLogging sources)
      (fun captured after => after = store ∧
        captured = sources.map fun bucket => (bucket, (store bucket).bind BucketConfig.logging))
      (fun _ after => after = store) store := by
  refine Survives.foldM (fun done captured after => after = store ∧
    captured = done.map fun bucket => (bucket, (store bucket).bind BucketConfig.logging))
    [] sources ⟨rfl, rfl⟩ ?_
  rintro before captured bucket current ⟨rfl, rfl⟩ -
  refine .bind (.read (apply_getLogging_store _ _) ?_ fun _ => rfl)
  intro logging hlogging
  refine .ret ⟨rfl, ?_⟩
  unfold apply at hlogging
  dsimp only at hlogging
  split at hlogging
  · cases hlogging
  · next config hconfig =>
    cases hlogging
    simp [hconfig]

theorem capture_survives (account : Account) (store : Store) :
    Survives apply (capture account)
      (fun snapshot after => after = store ∧ ∀ s ∈ snapshot, Describes s account store)
      (fun _ after => after = store) store := by
  unfold capture
  split
  · exact .ret ⟨rfl, by simp⟩
  · refine .bind ((captureSourceLogging_survives _ store).mono ?_ fun _ _ h => h)
    rintro captured current ⟨rfl, hcaptured⟩
    refine .bind (.read rfl ?_ fun _ => rfl)
    rintro found ⟨⟩
    cases hlog : current account.logBucket with
    | none =>
      refine .ret ⟨rfl, ?_⟩
      rintro s ⟨⟩
      exact ⟨hcaptured, rfl, by simp [hlog], by simp [hlog], by simp [hlog]⟩
    | some config =>
      refine .bind (.read rfl ?_ fun _ => rfl)
      rintro policy ⟨⟩
      refine .bind (.read rfl ?_ fun _ => rfl)
      rintro lifecycle ⟨⟩
      refine .ret ⟨rfl, ?_⟩
      rintro s ⟨⟩
      exact ⟨hcaptured, rfl, by simp [hlog], rfl, rfl⟩

/-! ## The restoration -/

/-- A step of the restoration is noted as a failure, or it takes the store from `A` to `B`. -/
theorem noting_survives {A B : Store → Prop} {failures : List String} {name : String} {p : StoreProg Unit}
    {current : Store} (h : ∀ current, A current → Survives apply p (fun _ => B) (fun _ _ => True) current)
    (hinv : failures ≠ [] ∨ A current) :
    Survives apply (noting failures name p) (fun failures' after => failures' ≠ [] ∨ B after)
      (fun _ _ => False) current := by
  rcases hinv with hfailures | hA
  · refine .bind (.fails ((Survives.trivial p current).mono ?_ ?_))
    · exact fun _ after _ => .ret (.inl hfailures)
    · exact fun _ after _ => .ret (.inl (by simp))
  · refine .bind (.fails ((h current hA).mono ?_ ?_))
    · exact fun _ after hB => .ret (.inr hB)
    · exact fun _ after _ => .ret (.inl (by simp))

/-- What still differs when the logging of some source buckets is restored. -/
def restoring (account : Account) (store : Store) (restored : List (String × Option LoggingConfig)) :
    Dirty where
  logging bucket := bucket ∈ account.sourceBuckets ∧ bucket ∉ restored.map Prod.fst
  policy := True
  lifecycle := True
  created := store account.logBucket = none

/-- What still differs at the log bucket. -/
def logBucketDirty (account : Account) (store : Store) (policy lifecycle : Prop) : Dirty where
  logging _ := False
  policy := policy
  lifecycle := lifecycle
  created := store account.logBucket = none

theorem putLogging_restores {account : Account} {store current : Store} {bucket : String}
    {done : List (String × Option LoggingConfig)}
    (h : Near (restoring account store done) account.logBucket store current) :
    let logging := (store bucket).bind BucketConfig.logging
    Survives apply (Prog.perform (StoreOp.putLogging bucket logging))
      (fun _ after => Near (restoring account store (done ++ [(bucket, logging)])) account.logBucket
        store after) (fun _ _ => True) current := by
  intro logging
  refine Survives.perform ?_ (fun _ _ => True.intro) (fun _ => True.intro) fun _ => True.intro
  intro _ hok
  simp only [apply, Store.modify] at hok ⊢
  cases hcurrent : current bucket with
  | none =>
    rw [hcurrent] at hok
    cases hok
  | some config =>
    dsimp only
    refine h.set ?_ ?_
    · intro other hother hnear
      refine hnear.mono ?_ (fun _ h => h) (fun _ h => h) fun _ h => h
      rintro ⟨hsource, hnot⟩
      refine ⟨hsource, ?_⟩
      rw [List.map_append, List.mem_append, not_or]
      exact ⟨hnot, by simpa using hother⟩
    · have hbucket := h bucket
      cases hstore : store bucket with
      | none =>
        rw [hstore, hcurrent] at hbucket
        exact .inr (hbucket.resolve_left (by simp))
      | some before =>
        rw [hstore, hcurrent] at hbucket
        obtain ⟨_, policy, lifecycle, hconfig, -, hp, hf⟩ := hbucket
        obtain rfl := Option.some.inj hconfig
        refine ⟨before.logging, policy, lifecycle, ?_, .inl rfl, hp, hf⟩
        simp [logging, hstore]

theorem restoreSourceLogging_survives {account : Account} {store current : Store} {snapshot : Snapshot}
    (hsnapshot : Describes snapshot account store)
    (h : Near (applied account store) account.logBucket store current) :
    Survives apply (restoreSourceLogging snapshot.sourceLogging)
      (fun failures after => failures ≠ [] ∨
        Near (logBucketDirty account store True True) account.logBucket store after)
      (fun _ _ => False) current := by
  have hstart : Near (restoring account store []) account.logBucket store current := fun bucket =>
    (h bucket).mono (fun hsource => ⟨hsource, by simp⟩) (fun _ h => h) (fun _ h => h) fun _ h => h
  refine (Survives.foldM (fun done failures after => failures ≠ [] ∨
    Near (restoring account store done) account.logBucket store after) [] snapshot.sourceLogging
    (.inr hstart) ?_).mono ?_ fun _ _ hfalse => hfalse
  · intro done failures entry after hinv hentry
    rw [hsnapshot.sources, List.mem_map] at hentry
    obtain ⟨bucket, -, rfl⟩ := hentry
    exact noting_survives (fun _ hnear => putLogging_restores hnear) hinv
  · intro failures after hinv
    refine hinv.imp_right fun hnear bucket => ?_
    refine (hnear bucket).mono ?_ (fun _ h => h) (fun _ h => h) fun _ h => h
    rintro ⟨hsource, hnot⟩
    refine hnot ?_
    rw [List.nil_append, hsnapshot.sources, List.map_map]
    simpa [Function.comp_def] using hsource

/-- A write to the log bucket that was there before. -/
theorem near_log {account : Account} {store current : Store} {config : BucketConfig}
    {policyDirty lifecycleDirty : Prop} (policyDirty' lifecycleDirty' : Prop)
    {policy : Option BucketPolicy} {lifecycle : List LifecycleRule}
    (hstore : store account.logBucket = some config)
    (h : Near (logBucketDirty account store policyDirty lifecycleDirty) account.logBucket store current)
    (hpolicy : policy = config.policy ∨ policyDirty')
    (hlifecycle : lifecycle = config.lifecycle ∨ lifecycleDirty') :
    Near (logBucketDirty account store policyDirty' lifecycleDirty') account.logBucket store
      (current.set account.logBucket (some { config with policy, lifecycle })) := by
  refine h.set ?_ ?_
  · intro other hother hnear
    exact hnear.mono (fun h => h) (fun heq => absurd heq hother) (fun heq => absurd heq hother)
      fun heq => absurd heq hother
  · rw [hstore]
    exact ⟨config.logging, policy, lifecycle, rfl, .inl rfl, hpolicy.imp_right fun h => ⟨rfl, h⟩,
      hlifecycle.imp_right fun h => ⟨rfl, h⟩⟩

/-- The log bucket once the logging of the source buckets is restored. -/
theorem Near.log {account : Account} {store current : Store} {config : BucketConfig}
    {policyDirty lifecycleDirty : Prop}
    (h : Near (logBucketDirty account store policyDirty lifecycleDirty) account.logBucket store current)
    (hstore : store account.logBucket = some config) :
    ∃ policy lifecycle, current account.logBucket = some { config with policy, lifecycle } ∧
      (policy = config.policy ∨ policyDirty) := by
  obtain ⟨logging, policy, lifecycle, hcurrent, hl, hp, -⟩ := h.exists hstore
  obtain rfl : logging = config.logging := hl.resolve_right fun h => h
  exact ⟨policy, lifecycle, hcurrent, hp.imp_right And.right⟩

theorem restorePolicy_survives {account : Account} {store current : Store} {snapshot : Snapshot}
    {config : BucketConfig} (hsnapshot : Describes snapshot account store)
    (hstore : store account.logBucket = some config)
    (h : Near (logBucketDirty account store True True) account.logBucket store current) :
    Survives apply (restorePolicy snapshot)
      (fun _ after => Near (logBucketDirty account store False True) account.logBucket store after)
      (fun _ _ => True) current := by
  obtain ⟨policy, lifecycle, hcurrent, -⟩ := h.log hstore
  have hpolicy := hsnapshot.policy
  rw [hstore, Option.bind_some] at hpolicy
  unfold restorePolicy
  rw [hsnapshot.logBucket]
  cases hsaved : snapshot.logBucketPolicy with
  | none =>
    refine Survives.perform ?_ (fun _ _ => True.intro) (fun _ => True.intro) fun _ => True.intro
    rintro _ -
    simp only [apply, Store.remove, hcurrent]
    exact near_log False True hstore h (.inl (by rw [← hpolicy, hsaved])) (.inr True.intro)
  | some saved =>
    refine Survives.perform ?_ (fun _ _ => True.intro) (fun _ => True.intro) fun _ => True.intro
    rintro _ -
    simp only [apply, Store.modify, hcurrent]
    exact near_log False True hstore h (.inl (by rw [← hpolicy, hsaved])) (.inr True.intro)

theorem restoreLifecycle_survives {account : Account} {store current : Store} {snapshot : Snapshot}
    {config : BucketConfig} (hsnapshot : Describes snapshot account store)
    (hstore : store account.logBucket = some config)
    (h : Near (logBucketDirty account store False True) account.logBucket store current) :
    Survives apply (restoreLifecycle snapshot)
      (fun _ after => Near (logBucketDirty account store False False) account.logBucket store after)
      (fun _ _ => True) current := by
  obtain ⟨policy, lifecycle, hcurrent, hp⟩ := h.log hstore
  have hpolicy : policy = config.policy := hp.resolve_right fun h => h
  have hlifecycle : snapshot.logBucketLifecycle = config.lifecycle := by
    rw [hsnapshot.lifecycle, hstore]
    rfl
  unfold restoreLifecycle
  rw [hsnapshot.logBucket, hlifecycle]
  by_cases hempty : config.lifecycle.isEmpty = true
  · rw [if_pos hempty]
    refine Survives.perform ?_ (fun _ _ => True.intro) (fun _ => True.intro) fun _ => True.intro
    rintro _ -
    simp only [apply, Store.remove, hcurrent]
    exact near_log False False hstore h (.inl hpolicy) (.inl (List.isEmpty_iff.mp hempty).symm)
  · rw [if_neg hempty]
    refine Survives.perform ?_ (fun _ _ => True.intro) (fun _ => True.intro) fun _ => True.intro
    rintro _ -
    simp only [apply, if_neg hempty, Store.modify, hcurrent]
    exact near_log False False hstore h (.inl hpolicy) (.inl rfl)

/-- Nothing may differ. -/
def clean : Dirty where
  logging _ := False
  policy := False
  lifecycle := False
  created := False

/-- A log bucket that was not there before is gone again. -/
theorem near_deleted {account : Account} {store current : Store}
    (hstore : store account.logBucket = none)
    (h : Near (logBucketDirty account store True True) account.logBucket store current) :
    Near clean account.logBucket store (current.set account.logBucket none) := by
  refine h.set ?_ ?_
  · intro other hother hnear
    exact hnear.mono (fun h => h) (fun heq => absurd heq hother) (fun heq => absurd heq hother)
      fun heq => absurd heq hother
  · rw [hstore]
    exact .inl rfl

/-- The exception handler of `deleteCreated`. -/
def purgeWhenNotEmpty (logBucket : String) : Error → StoreProg Unit
  | .bucketNotEmpty _ => Prog.perform (StoreOp.purgeAndDelete logBucket)
  | e => Prog.raise e

theorem deleteCreated_eq (logBucket : String) : deleteCreated logBucket =
    (Prog.perform (StoreOp.deleteEmptyBucket logBucket)).tryCatch (purgeWhenNotEmpty logBucket) := rfl

theorem deleteCreated_survives {account : Account} {store current : Store}
    (hstore : store account.logBucket = none)
    (h : Near (logBucketDirty account store True True) account.logBucket store current) :
    Survives apply (deleteCreated account.logBucket)
      (fun _ after => Near clean account.logBucket store after) (fun _ _ => True) current := by
  have hpurge : ∀ current, Near (logBucketDirty account store True True) account.logBucket store current →
      Survives apply (Prog.perform (StoreOp.purgeAndDelete account.logBucket))
        (fun _ after => Near clean account.logBucket store after) (fun _ _ => True) current := by
    intro current hnear
    refine Survives.perform ?_ (fun _ _ => True.intro) (fun _ => True.intro) fun _ => True.intro
    intro _ hok
    simp only [apply] at hok ⊢
    split at hok
    · cases hok
    · exact near_deleted hstore hnear
  have hhandler : ∀ (e : Error) current,
      Near (logBucketDirty account store True True) account.logBucket store current →
      Survives apply (purgeWhenNotEmpty account.logBucket e)
        (fun _ after => Near clean account.logBucket store after) (fun _ _ => True) current := by
    intro e current hnear
    unfold purgeWhenNotEmpty
    split
    · exact hpurge current hnear
    · exact .fail True.intro
  have hclean : ∀ {after}, Near clean account.logBucket store after →
      Near (logBucketDirty account store True True) account.logBucket store after := fun hnear bucket =>
    (hnear bucket).mono False.elim (fun _ => False.elim) (fun _ => False.elim) fun _ => False.elim
  have hempty : current account.logBucket = none → Near clean account.logBucket store current := by
    intro hnone
    have hdeleted := near_deleted hstore h
    rwa [Store.set_self hnone] at hdeleted
  have hafter : Near (logBucketDirty account store True True) account.logBucket store
      (apply (.deleteEmptyBucket account.logBucket) current).1 := by
    simp only [apply]
    split
    · exact h
    · split
      · exact h
      · exact hclean (near_deleted hstore h)
  rw [deleteCreated_eq]
  refine .tryCatch (Survives.perform ?_ (fun e _ => hhandler e _ hafter) (fun e => hhandler e _ h)
    fun e => hhandler e _ hafter)
  intro _ hok
  simp only [apply] at hok ⊢
  cases hcurrent : current account.logBucket with
  | none => exact hempty hcurrent
  | some config =>
    rw [hcurrent] at hok
    dsimp only at hok ⊢
    split at hok
    · cases hok
    · next hobjects =>
      rw [if_neg hobjects]
      exact near_deleted hstore h

theorem Near.eq_of_clean {logBucket : String} {store current : Store}
    (h : Near clean logBucket store current) : current = store :=
  h.eq (fun _ h => h) (fun h => h) (fun h => h) fun h => h

theorem restoreLogBucket_survives {account : Account} {store current : Store} {snapshot : Snapshot}
    {failures : List String} (hsnapshot : Describes snapshot account store)
    (h : failures ≠ [] ∨ Near (logBucketDirty account store True True) account.logBucket store current) :
    Survives apply (restoreLogBucket snapshot failures)
      (fun failures after => failures ≠ [] ∨ after = store) (fun _ _ => False) current := by
  unfold restoreLogBucket
  rw [hsnapshot.existed]
  cases hstore : store account.logBucket with
  | none =>
    rw [if_neg (by simp), hsnapshot.logBucket]
    refine (noting_survives (fun _ hnear => deleteCreated_survives hstore hnear) h).mono ?_
      fun _ _ h => h
    exact fun _ _ h => h.imp_right Near.eq_of_clean
  | some config =>
    rw [if_pos (by simp)]
    refine .bind ((noting_survives (fun _ hnear => restorePolicy_survives hsnapshot hstore hnear)
      h).mono ?_ fun _ _ h => h)
    intro failures current hpolicy
    refine (noting_survives (fun _ hnear => restoreLifecycle_survives hsnapshot hstore hnear)
      hpolicy).mono ?_ fun _ _ h => h
    refine fun _ _ h => h.imp_right fun hnear => hnear.eq (fun _ h => h) (fun h => h) (fun h => h) ?_
    intro (hnone : store account.logBucket = none)
    rw [hstore] at hnone
    cases hnone

/-- A restoration that does not raise restores everything. -/
theorem restore_survives {account : Account} {store current : Store} {snapshot : Snapshot}
    (hsnapshot : Describes snapshot account store)
    (h : Near (applied account store) account.logBucket store current) :
    Survives apply (restore snapshot) (fun _ after => after = store) (fun _ _ => True) current := by
  refine .bind ((restoreSourceLogging_survives hsnapshot h).mono ?_ fun _ _ hfalse => hfalse.elim)
  intro failures current hsources
  refine .bind ((restoreLogBucket_survives hsnapshot hsources).mono ?_ fun _ _ hfalse => hfalse.elim)
  intro failures after hdone
  refine .when (fun _ => .fail True.intro) ?_
  intro hnone
  exact hdone.resolve_left (by simpa using hnone)

/-! ## The reconciliation -/

theorem reconcile_survives (account : Account) (settings : PortalSettings) (store : Store) :
    Survives apply (reconcile account settings) (fun _ _ => True)
      (fun error after => after = store ∨ error = rollbackFailed) store := by
  unfold reconcile
  refine .bind ((capture_survives account store).mono ?_ fun _ _ hafter => .inl hafter)
  rintro (_ | snapshot) current ⟨rfl, hsnapshot⟩
  · exact .ret True.intro
  have hdescribes := hsnapshot snapshot rfl
  have hsources : ∀ bucket ∈ snapshot.sourceLogging.map Prod.fst, bucket ∈ account.sourceBuckets := by
    intro bucket hbucket
    rw [hdescribes.sources, List.map_map] at hbucket
    simpa [Function.comp_def] using hbucket
  refine .tryCatch ((Survives.of_uses allowed_keeps (applyReconcile_uses account settings hsources)
    (near_refl (applied account current) account.logBucket current)).mono (fun _ _ _ => True.intro) ?_)
  intro exc after hnear
  refine .bind (.tryCatch ((restore_survives hdescribes hnear).mono ?_ ?_))
  · rintro _ _ rfl
    exact .fail (.inl rfl)
  · exact fun _ _ _ => .fail (.inr rfl)

/-- A reconciliation that raises without reporting a failed rollback leaves every bucket as it was,
whatever happened to its calls. -/
theorem reconcile_atomic {account : Account} {settings : PortalSettings} {store after : Store}
    {fates : ℕ → Fate Error} {error : Error}
    (hrun : (reconcile account settings).run apply fates store = (after, .error error))
    (hreport : error ≠ rollbackFailed) : after = store :=
  ((reconcile_survives account settings store).run_error hrun).resolve_right hreport

def sampleAccount : Account where
  logBucket := "logs"
  rgwAccountId := "RGW1"
  sourceBuckets := ["a", "b"]
  sources_nodup := by decide

/-- Two source buckets, one of them logging elsewhere, and no log bucket. -/
def sampleStore : Store := fun bucket =>
  if bucket = "a" then some { logging := some { targetBucket := "other", targetPrefix := "x/" } }
  else if bucket = "b" then some {} else none

/-- The second write of a source bucket's logging is refused. -/
def sampleFates : ℕ → Fate Error := fun n => if n = 9 then .refused (.runtime "timeout") else .done

/-- The reconciliation raises, and nothing has changed. -/
theorem reconcile_atomic_sample :
    ((reconcile sampleAccount ⟨true, 30⟩).run apply sampleFates sampleStore).1 = sampleStore := by
  have hrun : (reconcile sampleAccount ⟨true, 30⟩).run apply sampleFates sampleStore
      = (_, .error (.runtime "timeout")) := rfl
  exact reconcile_atomic hrun (by decide)

end AccessLogging
end BucketReef

import Mathlib

/-!
# Quota monitoring runs

One run of the quota monitor: the subjects are the accounts and users of known endpoints, the usage
and the quota of each are collected, and the stored alert level decides whether an alert is raised.
The arithmetic on ratios is a parameter, so that nothing depends on how floats round.
-/

namespace BucketReef
namespace Quotas

/-! ## Levels -/

inductive Level
  | normal | threshold | full
  deriving DecidableEq, Repr

/-- `_LEVEL_ORDER`. -/
def Level.order : Level → ℕ
  | .normal => 0
  | .threshold => 1
  | .full => 2

/-- How percentages are computed and compared with integers. -/
structure RatioOps (α : Type) where
  /-- `float(used) / float(quota) * 100.0` -/
  percent : ℤ → ℤ → α
  /-- `round(_, 3)` -/
  round3 : α → α
  ofInt : ℤ → α

variable {α : Type} [LinearOrder α]

def determineLevel (ops : RatioOps α) (ratio : Option α) (thresholdPercent : ℤ) : Level :=
  match ratio with
  | none => .normal
  | some r =>
    if ops.ofInt 100 ≤ r then .full
    else if ops.ofInt thresholdPercent ≤ r then .threshold
    else .normal

def shouldAlert (ratio : Option α) (previous : Option Level) (next : Level) : Bool :=
  if ratio.isNone || next = .normal then false
  else
    match previous with
    | none => true
    | some level => level.order < next.order

/-! ## Subjects -/

inductive SubjectType
  | account | s3User
  deriving DecidableEq, Repr

structure Subject where
  subjectType : SubjectType
  subjectId : ℕ
  endpointId : ℕ
  usageUid : Option String
  quotaAccountId : Option String
  quotaUserUid : Option String
  rgwTenant : String
  deriving DecidableEq, Repr

/-- `QuotaAlertStateKey`: the endpoint, and the account or the user. -/
abbrev StateKey := ℕ × Option ℕ × Option ℕ

def stateKey (subject : Subject) : StateKey :=
  match subject.subjectType with
  | .account => (subject.endpointId, some subject.subjectId, none)
  | .s3User => (subject.endpointId, none, some subject.subjectId)

structure S3Account where
  id : ℕ
  storageEndpointId : ℕ
  rgwAccountId : Option String
  rgwUserUid : Option String
  rgwTenant : String
  deriving DecidableEq, Repr

structure S3User where
  id : ℕ
  storageEndpointId : ℕ
  rgwUserUid : String
  rgwTenant : String
  deriving DecidableEq, Repr

def S3Account.subject (account : S3Account) : Subject where
  subjectType := .account
  subjectId := account.id
  endpointId := account.storageEndpointId
  usageUid := account.rgwUserUid
  quotaAccountId := account.rgwAccountId
  quotaUserUid := none
  rgwTenant := account.rgwTenant

def S3User.subject (user : S3User) : Subject where
  subjectType := .s3User
  subjectId := user.id
  endpointId := user.storageEndpointId
  usageUid := some user.rgwUserUid
  quotaAccountId := none
  quotaUserUid := some user.rgwUserUid
  rgwTenant := user.rgwTenant

/-! ## What a run finds -/

structure Endpoint where
  isCeph : Bool
  /-- The supervision client can be built. -/
  supervision : Bool
  /-- The runtime client can be built. -/
  runtime : Bool
  deriving DecidableEq, Repr

/-- The bytes and objects that `extract_usage_stats` reads for a bucket. -/
abbrev UsageStats := Option ℤ × Option ℤ

/-- A size limit and a limit on objects. -/
abbrev QuotaLimits := Option ℤ × Option ℤ

/-- The answers of a run's calls; `none` is a call that raises. An entry of a bucket list that is not
an object is `none`. -/
structure Remote where
  getAllBuckets : String → String → Option (List (Option UsageStats))
  getAccountQuota : String → Option QuotaLimits
  getUserQuota : String → String → Option QuotaLimits

inductive Mode
  | quotaAlerts | usageHistory
  deriving DecidableEq, Repr

structure Settings where
  quotaAlertsEnabled : Bool
  usageHistoryEnabled : Bool

/-- A run's input: the settings, the rows it reads and what its calls answer. -/
structure Run where
  mode : Mode
  settings : Settings
  endpoints : ℕ → Option Endpoint
  accounts : List S3Account
  users : List S3User
  remote : Remote
  accounts_nodup : (accounts.map S3Account.id).Nodup
  users_nodup : (users.map S3User.id).Nodup

def loadSubjects (run : Run) : List Subject :=
  (run.accounts.filter fun account => (run.endpoints account.storageEndpointId).isSome).map
      S3Account.subject
    ++ (run.users.filter fun user => (run.endpoints user.storageEndpointId).isSome).map
      S3User.subject

/-! ## Collecting -/

/-- The client of an endpoint; a run keeps the first answer for each endpoint. -/
def resolveClient (endpoint : Option Endpoint) (factory : Endpoint → Bool) : Bool :=
  match endpoint with
  | none => false
  | some e => e.isCeph && factory e

structure Usage where
  usedBytes : ℤ
  usedObjects : ℤ
  bucketCount : ℕ
  deriving DecidableEq, Repr

/-- `_collect_usage` -/
def collectUsage (remote : Remote) (subject : Subject) : Option Usage :=
  match subject.usageUid with
  | none => some ⟨0, 0, 0⟩
  | some uid =>
    if uid = "" then some ⟨0, 0, 0⟩
    else do
      let buckets ← remote.getAllBuckets uid subject.rgwTenant
      let stats := buckets.filterMap id
      return ⟨(stats.map fun s => s.1.getD 0).sum, (stats.map fun s => s.2.getD 0).sum, buckets.length⟩

/-- `_collect_quota` -/
def collectQuota (remote : Remote) (subject : Subject) : Option QuotaLimits :=
  match subject.subjectType with
  | .account =>
    match subject.quotaAccountId with
    | none => some (none, none)
    | some accountId => if accountId = "" then some (none, none) else remote.getAccountQuota accountId
  | .s3User =>
    match subject.quotaUserUid with
    | none => some (none, none)
    | some uid => if uid = "" then some (none, none) else remote.getUserQuota uid subject.rgwTenant

def collectSubjectUsage (run : Run) (subject : Subject) : Option Usage :=
  if resolveClient (run.endpoints subject.endpointId) Endpoint.supervision then
    collectUsage run.remote subject
  else none

/-- A quota that could not be read is given back as no limits at all. -/
def collectSubjectQuota (run : Run) (subject : Subject) : QuotaLimits :=
  if resolveClient (run.endpoints subject.endpointId) Endpoint.runtime then
    (collectQuota run.remote subject).getD (none, none)
  else (none, none)

/-- The share of a limit that is used; limits that are absent or not positive do not count. -/
def usageShare (ops : RatioOps α) (used : ℤ) (limit : Option ℤ) : Option α :=
  match limit with
  | none => none
  | some quota => if 0 < quota then some (ops.percent used quota) else none

def computeUsageRatio (ops : RatioOps α) (usage : Usage) (quota : QuotaLimits) : Option α :=
  let ratios := [usageShare ops usage.usedBytes quota.1, usageShare ops usage.usedObjects quota.2]
  (ratios.filterMap id).max?.map ops.round3

structure Snapshot (α : Type) where
  usage : Usage
  quota : QuotaLimits
  ratio : Option α

def collectSubjectSnapshot (ops : RatioOps α) (run : Run) (subject : Subject) : Option (Snapshot α) := do
  let usage ← collectSubjectUsage run subject
  let quota := collectSubjectQuota run subject
  return ⟨usage, quota, computeUsageRatio ops usage quota⟩

/-! ## The stored levels -/

/-- The table of alert levels, the rows a run has loaded, and the alerts it has raised. -/
structure Monitor where
  rows : StateKey → Option Level
  states : StateKey → Option Level
  alerts : List (StateKey × Level) := []

structure Transition where
  alert : Bool
  nextLevel : Level
  previousLevel : Option Level
  deriving DecidableEq, Repr

def setLevel (table : StateKey → Option Level) (key : StateKey) (level : Level) :
    StateKey → Option Level :=
  fun other => if other = key then some level else table other

/-- `update`: without a loaded state a row is inserted, and where another row holds the key that one
is used. -/
def update (ops : RatioOps α) (thresholdPercent : ℤ) (monitor : Monitor) (subject : Subject)
    (ratio : Option α) : Monitor × Transition :=
  let key := stateKey subject
  let nextLevel := determineLevel ops ratio thresholdPercent
  let previousLevel :=
    match monitor.states key with
    | some level => some level
    | none => monitor.rows key
  ({ monitor with
      rows := setLevel monitor.rows key nextLevel
      states := setLevel monitor.states key nextLevel },
    { alert := shouldAlert ratio previousLevel nextLevel, nextLevel, previousLevel })

def processQuotaAlert (ops : RatioOps α) (thresholdPercent : ℤ) (monitor : Monitor)
    (subject : Subject) (snapshot : Snapshot α) : Monitor :=
  let updated := update ops thresholdPercent monitor subject snapshot.ratio
  let transition := updated.2
  if !transition.alert || transition.nextLevel = .normal then updated.1
  else { updated.1 with alerts := updated.1.alerts ++ [(stateKey subject, transition.nextLevel)] }

def processSubject (ops : RatioOps α) (thresholdPercent : ℤ) (run : Run) (monitor : Monitor)
    (subject : Subject) : Monitor :=
  match collectSubjectSnapshot ops run subject with
  | none => monitor
  | some snapshot =>
    match run.mode with
    | .usageHistory => monitor
    | .quotaAlerts => processQuotaAlert ops thresholdPercent monitor subject snapshot

/-- `_run_monitor`, up to its commit. -/
def runMonitor (ops : RatioOps α) (thresholdPercent : ℤ) (rows : StateKey → Option Level)
    (run : Run) : Monitor :=
  match run.mode with
  | .quotaAlerts =>
    if run.settings.quotaAlertsEnabled then
      (loadSubjects run).foldl (processSubject ops thresholdPercent run) { rows, states := rows }
    else { rows, states := rows }
  | .usageHistory =>
    if run.settings.usageHistoryEnabled then
      (loadSubjects run).foldl (processSubject ops thresholdPercent run)
        { rows, states := fun _ => none }
    else { rows, states := rows }

/-- The table after a sequence of runs on a new installation. -/
def tableAfter (ops : RatioOps α) (thresholdPercent : ℤ) (runs : List Run) : StateKey → Option Level :=
  runs.foldl (fun rows run => (runMonitor ops thresholdPercent rows run).rows) fun _ => none

/-! ## What one subject's cycle does -/

omit [LinearOrder α] in
theorem shouldAlert_iff {ratio : Option α} {previous : Option Level} {next : Level} :
    shouldAlert ratio previous next = true ↔
      ratio.isSome ∧ next ≠ .normal ∧ ∀ level ∈ previous, level.order < next.order := by
  unfold shouldAlert
  cases ratio <;> cases previous <;> by_cases h : next = .normal <;> simp [h]

/-- A level above normal comes from a ratio. -/
theorem determineLevel_isSome {ops : RatioOps α} {ratio : Option α} {thresholdPercent : ℤ}
    (h : determineLevel ops ratio thresholdPercent ≠ .normal) : ratio.isSome := by
  cases ratio with
  | none => exact absurd rfl h
  | some r => rfl

@[simp] theorem setLevel_same (table : StateKey → Option Level) (key : StateKey) (level : Level) :
    setLevel table key level key = some level := by
  simp [setLevel]

theorem setLevel_other {table : StateKey → Option Level} {key other : StateKey} {level : Level}
    (h : other ≠ key) : setLevel table key level other = table other := by
  simp [setLevel, h]

theorem update_previousLevel {ops : RatioOps α} {thresholdPercent : ℤ} {monitor : Monitor}
    {subject : Subject} {ratio : Option α}
    (h : monitor.states (stateKey subject) = monitor.rows (stateKey subject)) :
    (update ops thresholdPercent monitor subject ratio).2.previousLevel
      = monitor.rows (stateKey subject) := by
  unfold update
  dsimp only
  rw [h]
  split
  · next level hlevel => exact hlevel.symm
  · rfl

theorem processQuotaAlert_rows (ops : RatioOps α) (thresholdPercent : ℤ) (monitor : Monitor)
    (subject : Subject) (snapshot : Snapshot α) :
    (processQuotaAlert ops thresholdPercent monitor subject snapshot).rows
      = setLevel monitor.rows (stateKey subject)
          (determineLevel ops snapshot.ratio thresholdPercent) := by
  unfold processQuotaAlert
  dsimp only
  split <;> rfl

/-- The alerts after a subject, in terms of the decision about it. -/
theorem mem_processQuotaAlert {ops : RatioOps α} {thresholdPercent : ℤ} {monitor : Monitor}
    {subject : Subject} {snapshot : Snapshot α} {alert : StateKey × Level} :
    alert ∈ (processQuotaAlert ops thresholdPercent monitor subject snapshot).alerts ↔
      alert ∈ monitor.alerts ∨
        let transition := (update ops thresholdPercent monitor subject snapshot.ratio).2
        shouldAlert snapshot.ratio transition.previousLevel transition.nextLevel = true ∧
          alert = (stateKey subject, transition.nextLevel) := by
  have halert : (update ops thresholdPercent monitor subject snapshot.ratio).2.alert
      = shouldAlert snapshot.ratio
          (update ops thresholdPercent monitor subject snapshot.ratio).2.previousLevel
          (update ops thresholdPercent monitor subject snapshot.ratio).2.nextLevel := rfl
  have hkept : (update ops thresholdPercent monitor subject snapshot.ratio).1.alerts
      = monitor.alerts := rfl
  unfold processQuotaAlert
  dsimp only
  rw [halert]
  split
  · next h =>
    have hquiet : ¬ shouldAlert snapshot.ratio
        (update ops thresholdPercent monitor subject snapshot.ratio).2.previousLevel
        (update ops thresholdPercent monitor subject snapshot.ratio).2.nextLevel = true := by
      intro hloud
      have hne := (shouldAlert_iff.mp hloud).2.1
      simp [hloud, hne] at h
    rw [hkept]
    exact ⟨.inl, fun hmem => hmem.resolve_right fun hnew => hquiet hnew.1⟩
  · next h =>
    simp only [Bool.or_eq_true, Bool.not_eq_true', decide_eq_true_eq, not_or, Bool.not_eq_false] at h
    simp only [hkept, List.mem_append, List.mem_singleton, h.1, true_and]

/-- No two subjects of a run share a key. -/
theorem loadSubjects_nodup (run : Run) : ((loadSubjects run).map stateKey).Nodup := by
  have haccounts := run.accounts_nodup
  have husers := run.users_nodup
  unfold loadSubjects
  rw [List.map_append, List.map_map, List.map_map, List.nodup_append]
  refine ⟨?_, ?_, ?_⟩
  · refine List.Nodup.map_on ?_ ((List.Nodup.of_map _ haccounts).filter _)
    intro x hx y hy h
    have hid : x.id = y.id := by simpa [stateKey, S3Account.subject] using (congrArg (·.2.1) h)
    exact List.inj_on_of_nodup_map haccounts (List.mem_of_mem_filter hx) (List.mem_of_mem_filter hy) hid
  · refine List.Nodup.map_on ?_ ((List.Nodup.of_map _ husers).filter _)
    intro x hx y hy h
    have hid : x.id = y.id := by simpa [stateKey, S3User.subject] using (congrArg (·.2.2) h)
    exact List.inj_on_of_nodup_map husers (List.mem_of_mem_filter hx) (List.mem_of_mem_filter hy) hid
  · intro x hx y hy h
    obtain ⟨account, -, rfl⟩ := List.mem_map.mp hx
    obtain ⟨user, -, rfl⟩ := List.mem_map.mp hy
    simp [stateKey, S3Account.subject, S3User.subject] at h

/-- Processing one subject leaves the levels and the alerts of every other key alone. -/
theorem processSubject_frame (ops : RatioOps α) (thresholdPercent : ℤ) (run : Run) (monitor : Monitor)
    {subject : Subject} {key : StateKey} (h : stateKey subject ≠ key) :
    let after := processSubject ops thresholdPercent run monitor subject
    after.rows key = monitor.rows key ∧ after.states key = monitor.states key ∧
      ∀ level, (key, level) ∈ after.alerts ↔ (key, level) ∈ monitor.alerts := by
  unfold processSubject
  split
  · simp
  · split
    · simp
    · have hne : key ≠ stateKey subject := Ne.symm h
      unfold processQuotaAlert
      dsimp only
      split <;> simp [update, setLevel_other hne, hne]

theorem processSubjects_frame (ops : RatioOps α) (thresholdPercent : ℤ) (run : Run) {key : StateKey} :
    ∀ {subjects : List Subject} (monitor : Monitor), (∀ subject ∈ subjects, stateKey subject ≠ key) →
      let after := subjects.foldl (processSubject ops thresholdPercent run) monitor
      after.rows key = monitor.rows key ∧ after.states key = monitor.states key ∧
        ∀ level, (key, level) ∈ after.alerts ↔ (key, level) ∈ monitor.alerts
  | [], _, _ => by simp
  | subject :: subjects, monitor, h => by
    have hfirst := processSubject_frame ops thresholdPercent run monitor (h subject (by simp))
    have hothers : ∀ s ∈ subjects, stateKey s ≠ key := fun s hs => h s (List.mem_cons_of_mem _ hs)
    have hrest := processSubjects_frame ops thresholdPercent run
      (processSubject ops thresholdPercent run monitor subject) hothers
    simp only [List.foldl_cons]
    exact ⟨hrest.1.trans hfirst.1, hrest.2.1.trans hfirst.2.1,
      fun level => (hrest.2.2 level).trans (hfirst.2.2 level)⟩

end Quotas
end BucketReef

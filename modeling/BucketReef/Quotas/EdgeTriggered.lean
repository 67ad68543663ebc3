import BucketReef.Quotas.Monitoring
import Mathlib.Algebra.Order.Ring.Rat
import Mathlib.Data.List.Induction

/-!
# When a quota alert is raised

A subject's cycles are the alert runs that list it. The stored level is what the last cycle that read
the usage left, and a cycle that could not read the quota leaves the normal level. So an alert is
repeated exactly when such a cycle stands between two cycles that found the same or a lower level.
-/

namespace BucketReef
namespace Quotas

variable {α : Type} [LinearOrder α]

/-! ## Cycles of one subject -/

/-- What a cycle found out. -/
inductive Cycle (α : Type)
  | usageFailed
  | quotaFailed
  | noQuota
  | measured (ratio : α)
  deriving DecidableEq, Repr

/-- The limits, when they could be read. -/
def readQuota (run : Run) (subject : Subject) : Option QuotaLimits :=
  if resolveClient (run.endpoints subject.endpointId) Endpoint.runtime then
    collectQuota run.remote subject
  else none

def cycle (ops : RatioOps α) (run : Run) (subject : Subject) : Cycle α :=
  match collectSubjectUsage run subject with
  | none => .usageFailed
  | some usage =>
    match readQuota run subject with
    | none => .quotaFailed
    | some quota =>
      match computeUsageRatio ops usage quota with
      | none => .noQuota
      | some ratio => .measured ratio

def Run.isCycle (run : Run) : Bool :=
  run.mode = .quotaAlerts && run.settings.quotaAlertsEnabled

/-- The cycle of the subject with this key, if the run has one. -/
def cycleOf (ops : RatioOps α) (key : StateKey) (run : Run) : Option (Cycle α) :=
  if run.isCycle then
    ((loadSubjects run).find? fun subject => stateKey subject = key).map (cycle ops run)
  else none

/-- The level of a cycle that collected usage and quota. -/
def Cycle.level (ops : RatioOps α) (thresholdPercent : ℤ) : Cycle α → Option Level
  | .usageFailed => none
  | .quotaFailed => none
  | .noQuota => some .normal
  | .measured ratio => some (determineLevel ops (some ratio) thresholdPercent)

/-- The level of the last of these cycles that collected usage and quota. -/
def lastLevel (ops : RatioOps α) (thresholdPercent : ℤ) (past : List (Cycle α)) : Option Level :=
  (past.filterMap (Cycle.level ops thresholdPercent)).getLast?

/-- The cycle reaches a level above normal and above the last one. -/
def Rises (ops : RatioOps α) (thresholdPercent : ℤ) (past : List (Cycle α)) (current : Cycle α)
    (level : Level) : Prop :=
  current.level ops thresholdPercent = some level ∧ level ≠ .normal ∧
    ∀ previous ∈ lastLevel ops thresholdPercent past, previous.order < level.order

/-- In every run of the sequence the subject's alerts are the rises, and there are no others. -/
def EdgeTriggered (ops : RatioOps α) (thresholdPercent : ℤ) (key : StateKey) (runs : List Run) : Prop :=
  ∀ past run rest, runs = past ++ run :: rest → ∀ level,
    (key, level) ∈ (runMonitor ops thresholdPercent (tableAfter ops thresholdPercent past) run).alerts ↔
      ∃ current, cycleOf ops key run = some current ∧
        Rises ops thresholdPercent (past.filterMap (cycleOf ops key)) current level

/-- Two cycles that collected everything, with only failed ones between them, one of which lost the
quota; the second is above normal and not above the first. -/
def QuotaLostWhileHigh (ops : RatioOps α) (thresholdPercent : ℤ) (history : List (Cycle α)) : Prop :=
  ∃ (before : List (Cycle α)) (first : Cycle α) (between : List (Cycle α)) (second : Cycle α)
      (after : List (Cycle α)) (low high : Level),
    history = before ++ first :: between ++ second :: after ∧
      first.level ops thresholdPercent = some high ∧
      (∀ c ∈ between, c.level ops thresholdPercent = none) ∧ .quotaFailed ∈ between ∧
      second.level ops thresholdPercent = some low ∧ low ≠ .normal ∧ low.order ≤ high.order

/-! ## What a run does for one subject -/

/-- The stored level after a cycle. -/
def Cycle.stored (ops : RatioOps α) (thresholdPercent : ℤ) (stored : Option Level) :
    Cycle α → Option Level
  | .usageFailed => stored
  | .quotaFailed => some .normal
  | .noQuota => some .normal
  | .measured ratio => some (determineLevel ops (some ratio) thresholdPercent)

theorem collectSubjectQuota_eq (run : Run) (subject : Subject) :
    collectSubjectQuota run subject = (readQuota run subject).getD (none, none) := by
  unfold collectSubjectQuota readQuota
  split <;> simp

theorem computeUsageRatio_none (ops : RatioOps α) (usage : Usage) :
    computeUsageRatio ops usage (none, none) = none := by
  simp [computeUsageRatio, usageShare]

/-- The ratio a cycle hands to the alert states; nothing when the usage could not be read. -/
def Cycle.ratio : Cycle α → Option (Option α)
  | .usageFailed => none
  | .quotaFailed => some none
  | .noQuota => some none
  | .measured ratio => some (some ratio)

theorem collectSubjectSnapshot_ratio (ops : RatioOps α) (run : Run) (subject : Subject) :
    (collectSubjectSnapshot ops run subject).map Snapshot.ratio = (cycle ops run subject).ratio := by
  unfold collectSubjectSnapshot cycle
  rw [collectSubjectQuota_eq]
  cases collectSubjectUsage run subject with
  | none => rfl
  | some usage =>
    cases readQuota run subject with
    | none => simp [computeUsageRatio_none, Cycle.ratio]
    | some quota =>
      dsimp only [Option.getD_some]
      cases h : computeUsageRatio ops usage quota <;> simp [h, Cycle.ratio]

theorem Cycle.stored_of_ratio {ops : RatioOps α} {thresholdPercent : ℤ} {stored : Option Level}
    {c : Cycle α} {ratio : Option α} (h : c.ratio = some ratio) :
    c.stored ops thresholdPercent stored = some (determineLevel ops ratio thresholdPercent) := by
  cases c <;> simp only [Cycle.ratio, Option.some.injEq, reduceCtorEq] at h <;> subst h <;> rfl

/-- Above normal, the level of a cycle is the one its ratio has. -/
theorem Cycle.level_of_ratio {ops : RatioOps α} {thresholdPercent : ℤ} {c : Cycle α}
    {ratio : Option α} {level : Level} (h : c.ratio = some ratio) (hne : level ≠ .normal) :
    c.level ops thresholdPercent = some level ↔ determineLevel ops ratio thresholdPercent = level := by
  cases c <;> simp only [Cycle.ratio, Option.some.injEq, reduceCtorEq] at h <;> subst h
  · simpa [Cycle.level, determineLevel] using hne.symm
  · simp [Cycle.level, determineLevel]
  · simp [Cycle.level]

/-- Processing a subject with an untouched level, in an alert run. -/
theorem processSubject_spec (ops : RatioOps α) (thresholdPercent : ℤ) {run : Run} {monitor : Monitor}
    {subject : Subject} (hmode : run.mode = .quotaAlerts)
    (hstates : monitor.states (stateKey subject) = monitor.rows (stateKey subject))
    (hnew : ∀ level, (stateKey subject, level) ∉ monitor.alerts) :
    let after := processSubject ops thresholdPercent run monitor subject
    let c := cycle ops run subject
    after.rows (stateKey subject) = c.stored ops thresholdPercent (monitor.rows (stateKey subject)) ∧
      ∀ level, (stateKey subject, level) ∈ after.alerts ↔
        c.level ops thresholdPercent = some level ∧ level ≠ .normal ∧
          ∀ previous ∈ monitor.rows (stateKey subject), previous.order < level.order := by
  have hratio := collectSubjectSnapshot_ratio ops run subject
  unfold processSubject
  cases hsnapshot : collectSubjectSnapshot ops run subject with
  | none =>
    rw [hsnapshot] at hratio
    cases hc : cycle ops run subject <;> rw [hc] at hratio <;> simp [Cycle.ratio] at hratio
    simp [Cycle.stored, Cycle.level, hnew]
  | some snapshot =>
    rw [hsnapshot, Option.map_some] at hratio
    simp only [hmode]
    refine ⟨?_, fun level => ?_⟩
    · rw [processQuotaAlert_rows, setLevel_same, Cycle.stored_of_ratio hratio.symm]
    · rw [mem_processQuotaAlert]
      simp only [update_previousLevel hstates, hnew level, false_or, Prod.mk.injEq, true_and]
      constructor
      · rintro ⟨halert, rfl⟩
        obtain ⟨-, hne, hrises⟩ := shouldAlert_iff.mp halert
        exact ⟨(Cycle.level_of_ratio hratio.symm hne).mpr rfl, hne, hrises⟩
      · rintro ⟨hlevel, hne, hrises⟩
        have hnext := (Cycle.level_of_ratio hratio.symm hne).mp hlevel
        subst hnext
        exact ⟨shouldAlert_iff.mpr ⟨determineLevel_isSome hne, hne, hrises⟩, rfl⟩

/-- A run that has no cycle of the subject leaves its level alone and raises nothing for it. -/
theorem runMonitor_none {ops : RatioOps α} {thresholdPercent : ℤ} {rows : StateKey → Option Level}
    {run : Run} {key : StateKey} (h : cycleOf ops key run = none) :
    (runMonitor ops thresholdPercent rows run).rows key = rows key ∧
      ∀ level, (key, level) ∉ (runMonitor ops thresholdPercent rows run).alerts := by
  unfold runMonitor
  cases hmode : run.mode with
  | usageHistory =>
    have hkeep : ∀ (subjects : List Subject) (monitor : Monitor),
        subjects.foldl (processSubject ops thresholdPercent run) monitor = monitor := by
      intro subjects
      induction subjects with
      | nil => exact fun _ => rfl
      | cons subject subjects ih =>
        intro monitor
        have hfirst : processSubject ops thresholdPercent run monitor subject = monitor := by
          unfold processSubject
          split <;> simp [hmode]
        rw [List.foldl_cons, hfirst, ih]
    simp only [hkeep]
    split <;> simp
  | quotaAlerts =>
    cases henabled : run.settings.quotaAlertsEnabled with
    | false => simp
    | true =>
      have hcycle : run.isCycle = true := by simp [Run.isCycle, hmode, henabled]
      simp only [cycleOf, hcycle, if_true, Option.map_eq_none_iff, List.find?_eq_none,
        decide_eq_true_eq] at h
      obtain ⟨hrows, -, halerts⟩ := processSubjects_frame ops thresholdPercent run
        { rows, states := rows } h
      simp only [if_true]
      exact ⟨hrows, fun level hmem => by simpa using (halerts level).mp hmem⟩

/-- A run with a cycle of the subject. -/
theorem runMonitor_some {ops : RatioOps α} {thresholdPercent : ℤ} {rows : StateKey → Option Level}
    {run : Run} {key : StateKey} {c : Cycle α} (h : cycleOf ops key run = some c) :
    (runMonitor ops thresholdPercent rows run).rows key = c.stored ops thresholdPercent (rows key) ∧
      ∀ level, (key, level) ∈ (runMonitor ops thresholdPercent rows run).alerts ↔
        c.level ops thresholdPercent = some level ∧ level ≠ .normal ∧
          ∀ previous ∈ rows key, previous.order < level.order := by
  unfold cycleOf at h
  split at h
  swap
  · simp at h
  next hcycle =>
  simp only [Run.isCycle, Bool.and_eq_true, decide_eq_true_eq] at hcycle
  obtain ⟨subject, hfind, rfl⟩ := Option.map_eq_some_iff.mp h
  have hkey : stateKey subject = key := by simpa using List.find?_some hfind
  obtain ⟨before, after, hsplit⟩ := List.append_of_mem (List.mem_of_find?_eq_some hfind)
  have hnodup := loadSubjects_nodup run
  rw [hsplit, List.map_append, List.map_cons, List.nodup_append, List.nodup_cons] at hnodup
  obtain ⟨-, ⟨hnotAfter, -⟩, hdisjoint⟩ := hnodup
  have hbefore : ∀ s ∈ before, stateKey s ≠ key := fun s hs heq =>
    hdisjoint _ (List.mem_map_of_mem hs) _ List.mem_cons_self (heq.trans hkey.symm)
  have hafter : ∀ s ∈ after, stateKey s ≠ key := fun s hs heq =>
    hnotAfter (List.mem_map.mpr ⟨s, hs, heq.trans hkey.symm⟩)
  subst hkey
  unfold runMonitor
  simp only [hcycle.1, hcycle.2, if_true, hsplit, List.foldl_append, List.foldl_cons]
  obtain ⟨hrows₁, hstates₁, halerts₁⟩ := processSubjects_frame ops thresholdPercent run
    { rows, states := rows } hbefore
  obtain ⟨hrows₂, halerts₂⟩ := processSubject_spec ops thresholdPercent hcycle.1
    (hstates₁.trans hrows₁.symm) fun level hmem => by simpa using (halerts₁ level).mp hmem
  obtain ⟨hrows₃, -, halerts₃⟩ := processSubjects_frame ops thresholdPercent run
    (processSubject ops thresholdPercent run
      (before.foldl (processSubject ops thresholdPercent run) { rows, states := rows }) subject) hafter
  rw [hrows₁] at hrows₂ halerts₂
  exact ⟨hrows₃.trans hrows₂, fun level => (halerts₃ level).trans (halerts₂ level)⟩

/-! ## Histories -/

/-- The stored level after a history. -/
def storedAfter (ops : RatioOps α) (thresholdPercent : ℤ) (history : List (Cycle α)) : Option Level :=
  history.foldl (Cycle.stored ops thresholdPercent) none

theorem tableAfter_eq {ops : RatioOps α} {thresholdPercent : ℤ} {key : StateKey} (runs : List Run) :
    tableAfter ops thresholdPercent runs key
      = storedAfter ops thresholdPercent (runs.filterMap (cycleOf ops key)) := by
  induction runs using List.reverseRecOn with
  | nil => rfl
  | append_singleton runs run ih =>
    have hstep : tableAfter ops thresholdPercent (runs ++ [run]) key
        = (runMonitor ops thresholdPercent (tableAfter ops thresholdPercent runs) run).rows key := by
      simp [tableAfter]
    rw [hstep, List.filterMap_append, storedAfter, List.foldl_append]
    cases hcycle : cycleOf ops key run with
    | none => simp [(runMonitor_none hcycle).1, hcycle, ih, storedAfter]
    | some c => simp [(runMonitor_some hcycle).1, hcycle, ih, storedAfter]

/-- Failed cycles keep the stored level unless one of them lost the quota. -/
theorem stored_of_failed {ops : RatioOps α} {thresholdPercent : ℤ} (stored : Option Level) :
    ∀ {cycles : List (Cycle α)}, (∀ c ∈ cycles, c.level ops thresholdPercent = none) →
      cycles.foldl (Cycle.stored ops thresholdPercent) stored = stored ∧ .quotaFailed ∉ cycles ∨
      cycles.foldl (Cycle.stored ops thresholdPercent) stored = some .normal ∧ .quotaFailed ∈ cycles := by
  intro cycles
  induction cycles generalizing stored with
  | nil => intro _; simp
  | cons c cycles ih =>
    intro h
    have hrest : ∀ d ∈ cycles, d.level ops thresholdPercent = none := fun d hd => h d (by simp [hd])
    have hc := h c (by simp)
    cases c with
    | usageFailed => simpa [Cycle.stored] using ih stored hrest
    | quotaFailed =>
      right
      rcases ih (some .normal) hrest with ⟨hfold, -⟩ | ⟨hfold, -⟩ <;>
        simpa [Cycle.stored] using hfold
    | noQuota => simp [Cycle.level] at hc
    | measured ratio => simp [Cycle.level] at hc

/-- A history ends in failed cycles, after none or after one that collected everything. -/
theorem history_cases (ops : RatioOps α) (thresholdPercent : ℤ) (history : List (Cycle α)) :
    (∀ c ∈ history, c.level ops thresholdPercent = none) ∨
      ∃ (before : List (Cycle α)) (first : Cycle α) (between : List (Cycle α)) (level : Level),
        history = before ++ first :: between ∧ first.level ops thresholdPercent = some level ∧
        ∀ c ∈ between, c.level ops thresholdPercent = none := by
  induction history using List.reverseRecOn with
  | nil => left; simp
  | append_singleton history c ih =>
    cases hc : c.level ops thresholdPercent with
    | some level => exact .inr ⟨history, c, [], level, rfl, hc, by simp⟩
    | none =>
      rcases ih with hall | ⟨before, first, between, level, rfl, hfirst, hbetween⟩
      · left
        intro d hd
        rcases List.mem_append.mp hd with hd | hd
        · exact hall d hd
        · rw [List.mem_singleton.mp hd, hc]
      · right
        refine ⟨before, first, between ++ [c], level, by simp, hfirst, ?_⟩
        intro d hd
        rcases List.mem_append.mp hd with hd | hd
        · exact hbetween d hd
        · rw [List.mem_singleton.mp hd, hc]

theorem lastLevel_of_failed {ops : RatioOps α} {thresholdPercent : ℤ} {history : List (Cycle α)}
    (h : ∀ c ∈ history, c.level ops thresholdPercent = none) :
    lastLevel ops thresholdPercent history = none := by
  rw [lastLevel, List.filterMap_eq_nil_iff.mpr h]
  rfl

theorem lastLevel_append {ops : RatioOps α} {thresholdPercent : ℤ} {before between : List (Cycle α)}
    {first : Cycle α} {level : Level} (hfirst : first.level ops thresholdPercent = some level)
    (h : ∀ c ∈ between, c.level ops thresholdPercent = none) :
    lastLevel ops thresholdPercent (before ++ first :: between) = some level := by
  rw [lastLevel, List.filterMap_append, List.filterMap_cons_some hfirst,
    List.filterMap_eq_nil_iff.mpr h]
  simp

theorem storedAfter_append {ops : RatioOps α} {thresholdPercent : ℤ}
    (before : List (Cycle α)) {between : List (Cycle α)} {first : Cycle α} {level : Level}
    (hfirst : first.level ops thresholdPercent = some level)
    (h : ∀ c ∈ between, c.level ops thresholdPercent = none) :
    storedAfter ops thresholdPercent (before ++ first :: between) = some level ∧ .quotaFailed ∉ between ∨
    storedAfter ops thresholdPercent (before ++ first :: between) = some .normal ∧
      .quotaFailed ∈ between := by
  have hstored : ∀ stored, first.stored ops thresholdPercent stored = some level := by
    intro stored
    cases first <;> simp_all [Cycle.level, Cycle.stored]
  rw [storedAfter, List.foldl_append, List.foldl_cons, hstored]
  exact stored_of_failed _ h

/-- The stored level decides as the last collected one does, unless the quota was lost after it. -/
theorem rises_iff_stored {ops : RatioOps α} {thresholdPercent : ℤ} {past : List (Cycle α)}
    {level : Level} (hne : level ≠ .normal)
    (hkept : ∀ (before : List (Cycle α)) (first : Cycle α) (between : List (Cycle α)) (high : Level),
      past = before ++ first :: between → first.level ops thresholdPercent = some high →
      (∀ c ∈ between, c.level ops thresholdPercent = none) → .quotaFailed ∈ between →
      high.order < level.order) :
    (∀ previous ∈ storedAfter ops thresholdPercent past, previous.order < level.order) ↔
      ∀ previous ∈ lastLevel ops thresholdPercent past, previous.order < level.order := by
  have hpos : Level.normal.order < level.order := by
    cases level with
    | normal => exact absurd rfl hne
    | threshold => decide
    | full => decide
  rcases history_cases ops thresholdPercent past with
    hall | ⟨before, first, between, high, rfl, hfirst, hbetween⟩
  · rw [lastLevel_of_failed hall]
    rcases stored_of_failed none hall with ⟨hfold, -⟩ | ⟨hfold, -⟩ <;>
      simp [storedAfter, hfold, hpos]
  · rw [lastLevel_append hfirst hbetween]
    rcases storedAfter_append before hfirst hbetween with ⟨hstored, -⟩ | ⟨hstored, hlost⟩
    · rw [hstored]
    · rw [hstored]
      simp [hpos, hkept before first between high rfl hfirst hbetween hlost]

theorem filterMap_eq_split {β γ : Type} {f : β → Option γ} {l : List β} {pre post : List γ} {c : γ}
    (h : l.filterMap f = pre ++ c :: post) :
    ∃ past b rest, l = past ++ b :: rest ∧ past.filterMap f = pre ∧ f b = some c := by
  obtain ⟨past, tail, rfl, hpast, htail⟩ := List.filterMap_eq_append_iff.mp h
  obtain ⟨skipped, b, rest, rfl, hskipped, hb, -⟩ := List.filterMap_eq_cons_iff.mp htail
  refine ⟨past ++ skipped, b, rest, by simp, ?_, hb⟩
  rw [List.filterMap_append, hpast, List.filterMap_eq_nil_iff.mpr hskipped, List.append_nil]

/-- Alerts are edge-triggered over a sequence of runs exactly when the quota is never lost between
two cycles of which the second is above normal and not above the first. -/
theorem edge_triggered_iff (ops : RatioOps α) (thresholdPercent : ℤ) (key : StateKey)
    (runs : List Run) :
    EdgeTriggered ops thresholdPercent key runs ↔
      ¬ QuotaLostWhileHigh ops thresholdPercent (runs.filterMap (cycleOf ops key)) := by
  constructor
  · rintro hedges ⟨before, first, between, second, after, low, high, hsplit, hfirst, hbetween, hlost,
      hsecond, hne, hle⟩
    obtain ⟨past, run, rest, hruns, hpast, hcycle⟩ := filterMap_eq_split hsplit
    have hstored : storedAfter ops thresholdPercent (before ++ first :: between) = some .normal := by
      rcases storedAfter_append before hfirst hbetween with ⟨-, hnot⟩ | ⟨hstored, -⟩
      · exact absurd hlost hnot
      · exact hstored
    have hpos : Level.normal.order < low.order := by
      cases low <;> simp_all [Level.order]
    have hraised : (key, low) ∈
        (runMonitor ops thresholdPercent (tableAfter ops thresholdPercent past) run).alerts := by
      refine ((runMonitor_some hcycle).2 low).mpr ⟨hsecond, hne, ?_⟩
      rw [tableAfter_eq, hpast, hstored]
      simpa using hpos
    obtain ⟨current, hcurrent, -, -, hrises⟩ := (hedges past run rest hruns low).mp hraised
    have hlast := hrises high (by rw [hpast, lastLevel_append hfirst hbetween]; rfl)
    omega
  · intro hkept past run rest hruns level
    cases hcycle : cycleOf ops key run with
    | none => simpa [hcycle] using (runMonitor_none hcycle).2 level
    | some c =>
      rw [(runMonitor_some hcycle).2 level, tableAfter_eq]
      simp only [Option.some.injEq, exists_eq_left', Rises]
      refine and_congr_right fun hlevel => and_congr_right fun hne => ?_
      refine rises_iff_stored hne ?_
      intro before first between high hpast hfirst hbetween hlost
      by_contra hle
      refine hkept ⟨before, first, between, c, rest.filterMap (cycleOf ops key), level, high, ?_, hfirst,
        hbetween, hlost, hlevel, hne, by omega⟩
      rw [hruns, List.filterMap_append, hpast, List.filterMap_cons_some hcycle]

/-! ## A repeated alert -/

/-- Percentages over the rationals, rounded to three decimals. -/
def exactOps : RatioOps ℚ where
  percent used quota := used / quota * 100
  round3 r := (r * 1000 + 1 / 2).floor / 1000
  ofInt n := n

/-- An account that uses 90 bytes; its quota of 100 bytes can be read or not. -/
def sampleRun (quotaReadable : Bool) : Run where
  mode := .quotaAlerts
  settings := { quotaAlertsEnabled := true, usageHistoryEnabled := true }
  endpoints n := if n = 1 then some { isCeph := true, supervision := true, runtime := true } else none
  accounts := [⟨1, 1, some "RGW1", some "u", ""⟩]
  users := []
  remote :=
    { getAllBuckets := fun _ _ => some [some (some 90, some 1)]
      getAccountQuota := fun _ => if quotaReadable then some (some 100, none) else none
      getUserQuota := fun _ _ => none }
  accounts_nodup := by simp
  users_nodup := by simp

def sampleKey : StateKey := (1, some 1, none)

/-- The account stays at 90 percent, one quota read fails, and the alert is raised a second time. -/
theorem alert_repeated_after_lost_quota :
    ¬ ∀ (runs : List Run), EdgeTriggered exactOps 85 sampleKey runs := by
  intro hedges
  have hraised : (sampleKey, Level.threshold) ∈ (runMonitor exactOps 85
      (tableAfter exactOps 85 [sampleRun true, sampleRun false]) (sampleRun true)).alerts := by
    decide +kernel
  have hlast : lastLevel exactOps 85 ([sampleRun true, sampleRun false].filterMap
      (cycleOf exactOps sampleKey)) = some .threshold := by
    decide +kernel
  obtain ⟨-, -, -, -, hrises⟩ := (hedges [sampleRun true, sampleRun false, sampleRun true]
    [sampleRun true, sampleRun false] (sampleRun true) [] rfl .threshold).mp hraised
  exact absurd (hrises .threshold hlast) (by decide)

end Quotas
end BucketReef

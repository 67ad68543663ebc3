import BucketReef.Usage.Traffic
import Mathlib.Algebra.BigOperators.Group.List.Basic
import Mathlib.Algebra.Order.Ring.Int
import Mathlib.Tactic.Ring

/-!
# What the tables of an aggregation add up to

Every table holds the activity of the category entries counted, under different keys. The daily windows
of the cost collector count each entry of a period once. Only the breakdown that the collector stores is
cut to fifteen categories.
-/

namespace BucketReef
namespace Traffic

open Lists

variable {lib : Lib} {scope : AggregationScope}

/-! ## What is counted -/

/-- The entry is in the window and passes the filters. -/
def counts (lib : Lib) (scope : AggregationScope) (entry : Json) : Bool :=
  match entryTimestamp lib entry with
  | none => false
  | some timestamp =>
    decide (scope.start ≤ timestamp ∧ timestamp ≤ scope.stop) &&
      scope.admits lib (entryBucket lib entry)

/-- The category entries that are added up. -/
def counted (lib : Lib) (scope : AggregationScope) (entries : List Json) : List Json :=
  (entries.filter (counts lib scope)).flatMap fun entry => normalizeCategories (entry.get "categories")

/-- The activity of the category entries. -/
def activity (lib : Lib) (categories : List Json) : Activity := (categories.map (activityOf lib)).sum

/-- `toTransfer` as a homomorphism. -/
def transferHom : Activity →+ Transfer where
  toFun := Activity.toTransfer
  map_zero' := rfl
  map_add' _ _ := rfl

/-- The key of a category entry that has one. -/
def keyOf (entry : Json) : CategoryKey := (categoryKey entry).getD (.text "")

/-- The table of the categories, in the order in which they come. -/
def categoryTable (lib : Lib) (categories : List Json) : List (CategoryKey × Transfer) :=
  tableOf keyOf (fun entry => (activityOf lib entry).toTransfer) categories

/-- The tables after these category entries. -/
structure Filled (lib : Lib) (categories : List Json) (accumulator : UsageAccumulator) : Prop where
  timeline : (accumulator.timeline.map Prod.snd).sum = activity lib categories
  buckets : (accumulator.bucketTotals.map Prod.snd).sum = activity lib categories
  users : (accumulator.userTotals.map Prod.snd).sum = activity lib categories
  groups : (accumulator.requestGroups.map Prod.snd).sum = (activity lib categories).toTransfer
  categories : accumulator.categoryTotals = categoryTable lib categories

theorem filled_start : Filled lib [] {} := ⟨rfl, rfl, rfl, rfl, rfl⟩

theorem activity_append (categories others : List Json) :
    activity lib (categories ++ others) = activity lib categories + activity lib others := by
  unfold activity
  rw [List.map_append, List.sum_append]

theorem activity_concat (categories : List Json) (entry : Json) :
    activity lib (categories ++ [entry]) = activity lib categories + activityOf lib entry := by
  rw [activity_append]
  simp [activity]

theorem Filled.addCategory {categories : List Json} {accumulator accumulator' : UsageAccumulator}
    {timestamp : ℤ} {bucket user : String} {entry : Json} (h : Filled lib categories accumulator)
    (hstep : addCategory lib timestamp bucket user accumulator entry = some accumulator') :
    Filled lib (categories ++ [entry]) accumulator' := by
  obtain ⟨key, hkey, hstep⟩ := Option.bind_eq_some_iff.mp hstep
  cases hstep
  refine ⟨?_, ?_, ?_, ?_, ?_⟩
  · rw [sum_addAt, h.timeline, activity_concat]
  · rw [sum_addAt, h.buckets, activity_concat]
  · rw [sum_addAt, h.users, activity_concat]
  · rw [sum_addAt, h.groups, activity_concat]
    rfl
  · rw [h.categories, categoryTable, categoryTable, tableOf, tableOf, List.foldl_append]
    simp [keyOf, hkey]

theorem Filled.foldlM {categories rest : List Json} {accumulator accumulator' : UsageAccumulator}
    {timestamp : ℤ} {bucket user : String} (h : Filled lib categories accumulator)
    (hrun : rest.foldlM (Traffic.addCategory lib timestamp bucket user) accumulator =
      some accumulator') : Filled lib (categories ++ rest) accumulator' := by
  induction rest generalizing categories accumulator with
  | nil =>
    cases hrun
    rwa [List.append_nil]
  | cons entry rest ih =>
    rw [List.foldlM_cons] at hrun
    obtain ⟨middle, hstep, hrun⟩ := Option.bind_eq_some_iff.mp hrun
    have hfilled := ih (h.addCategory hstep) hrun
    rwa [List.append_assoc] at hfilled

theorem counted_cons (entry : Json) (entries : List Json) :
    counted lib scope (entry :: entries) =
      (if counts lib scope entry then normalizeCategories (entry.get "categories") else []) ++
        counted lib scope entries := by
  unfold counted
  rw [List.filter_cons]
  split_ifs
  · rw [List.flatMap_cons]
  · rw [List.nil_append]

/-- An entry adds its categories when it counts, and nothing otherwise. -/
theorem addEntry_eq (accumulator : UsageAccumulator) (entry : Json) :
    addEntry lib scope accumulator entry = if counts lib scope entry then
      (normalizeCategories (entry.get "categories")).foldlM (addCategory lib
        (bucketTimestamp ((entryTimestamp lib entry).getD 0) scope.window) (entryBucket lib entry)
        (entryUser lib entry)) accumulator
    else some accumulator := by
  unfold addEntry counts
  cases entryTimestamp lib entry with
  | none => rfl
  | some timestamp =>
    by_cases hwindow : scope.start ≤ timestamp ∧ timestamp ≤ scope.stop
    · have hin : ¬(timestamp < scope.start ∨ scope.stop < timestamp) := by omega
      cases hadmits : scope.admits lib (entryBucket lib entry) <;> simp [hwindow, hin]
    · have hout : timestamp < scope.start ∨ scope.stop < timestamp := by omega
      simp [hwindow, hout]

theorem Filled.entries {categories entries : List Json} {accumulator accumulator' : UsageAccumulator}
    (h : Filled lib categories accumulator)
    (hrun : entries.foldlM (addEntry lib scope) accumulator = some accumulator') :
    Filled lib (categories ++ counted lib scope entries) accumulator' := by
  induction entries generalizing categories accumulator with
  | nil =>
    cases hrun
    rwa [counted, List.filter_nil, List.flatMap_nil, List.append_nil]
  | cons entry entries ih =>
    rw [List.foldlM_cons] at hrun
    obtain ⟨middle, hstep, hrun⟩ := Option.bind_eq_some_iff.mp hrun
    rw [addEntry_eq] at hstep
    rw [counted_cons]
    split_ifs at hstep ⊢
    · rw [← List.append_assoc]
      exact ih (h.foldlM hstep) hrun
    · cases hstep
      exact ih h hrun

theorem filled_of_accumulate {entries : List Json} {accumulator : UsageAccumulator}
    (h : accumulate lib scope entries = some accumulator) :
    Filled lib (counted lib scope entries) accumulator := by
  have hfilled := filled_start.entries h
  rwa [List.nil_append] at hfilled

/-! ## When an aggregation fails -/

theorem addCategory_isSome (timestamp : ℤ) (bucket user : String) (accumulator : UsageAccumulator)
    (entry : Json) : (addCategory lib timestamp bucket user accumulator entry).isSome =
      (categoryKey entry).isSome := by
  unfold addCategory
  cases categoryKey entry <;> rfl

theorem foldlM_addCategory_isSome (timestamp : ℤ) (bucket user : String)
    (accumulator : UsageAccumulator) (categories : List Json) :
    (categories.foldlM (addCategory lib timestamp bucket user) accumulator).isSome =
      categories.all fun entry => (categoryKey entry).isSome := by
  induction categories generalizing accumulator with
  | nil => rfl
  | cons entry rest ih =>
    have hstep := @addCategory_isSome lib timestamp bucket user accumulator entry
    rw [List.foldlM_cons, List.all_cons, ← hstep]
    cases addCategory lib timestamp bucket user accumulator entry with
    | none => rfl
    | some middle =>
      rw [Option.isSome_some, Bool.true_and, ← ih middle]
      rfl

/-- An aggregation fails exactly when a counted category cannot be a key. -/
theorem accumulate_isSome (entries : List Json) :
    (accumulate lib scope entries).isSome =
      (counted lib scope entries).all fun entry => (categoryKey entry).isSome := by
  have hfold : ∀ accumulator, (entries.foldlM (addEntry lib scope) accumulator).isSome =
      (counted lib scope entries).all fun entry => (categoryKey entry).isSome := by
    induction entries with
    | nil => exact fun _ => rfl
    | cons entry entries ih =>
      intro accumulator
      rw [List.foldlM_cons, counted_cons, List.all_append, addEntry_eq]
      split_ifs
      · rw [← @foldlM_addCategory_isSome lib
          (bucketTimestamp ((entryTimestamp lib entry).getD 0) scope.window) (entryBucket lib entry)
          (entryUser lib entry) accumulator]
        cases (normalizeCategories (entry.get "categories")).foldlM (addCategory lib
          (bucketTimestamp ((entryTimestamp lib entry).getD 0) scope.window) (entryBucket lib entry)
          (entryUser lib entry)) accumulator with
        | none => rfl
        | some middle => exact ih middle
      · exact ih accumulator
  exact hfold {}

/-! ## Conservation -/

/-- The sums over the series, the groups, all buckets, all users and all categories are the totals. -/
structure Conserves (accumulator : UsageAccumulator) : Prop where
  series : (accumulator.result.series.map Prod.snd).sum = accumulator.result.totals
  groups : (accumulator.result.requestBreakdown.map Prod.snd).sum =
    accumulator.result.totals.toTransfer
  buckets : (accumulator.bucketTotals.map Prod.snd).sum = accumulator.result.totals
  users : (accumulator.userTotals.map Prod.snd).sum = accumulator.result.totals
  categories : (accumulator.categoryTotals.map Prod.snd).sum = accumulator.result.totals.toTransfer

theorem sum_categoryTable (categories : List Json) :
    ((categoryTable lib categories).map Prod.snd).sum = (activity lib categories).toTransfer := by
  rw [categoryTable, sum_tableOf]
  have hhom := map_list_sum transferHom (categories.map (activityOf lib))
  rw [List.map_map] at hhom
  exact hhom.symm

theorem Filled.totals {categories : List Json} {accumulator : UsageAccumulator}
    (h : Filled lib categories accumulator) :
    accumulator.result.totals = activity lib categories := by
  rw [← h.timeline]
  exact ((sortedBy_perm Prod.fst accumulator.timeline).map Prod.snd).sum_eq

theorem Filled.conserves {categories : List Json} {accumulator : UsageAccumulator}
    (h : Filled lib categories accumulator) : Conserves accumulator where
  series := rfl
  groups := by
    rw [h.totals, ← h.groups]
    exact ((sortedBy_perm _ accumulator.requestGroups).map Prod.snd).sum_eq
  buckets := by rw [h.totals, h.buckets]
  users := by rw [h.totals, h.users]
  categories := by rw [h.totals, h.categories, sum_categoryTable]

/-! ## Days -/

/-- The window of the collector for the `d`-th day from `start`. -/
def dayScope (start : ℤ) (d : ℕ) : AggregationScope :=
  ⟨start + d * dayLength, start + d * dayLength + dayLength - 1, none, none⟩

/-- The days from `start` in one window. -/
def periodScope (start : ℤ) (days : ℕ) : AggregationScope :=
  ⟨start, start + days * dayLength - 1, none, none⟩

theorem dayLength_pos : 0 < dayLength := by
  unfold dayLength hourLength second
  norm_num

/-- Without filters an entry counts when its time is in the window. -/
theorem counts_unfiltered {entry : Json} {timestamp : ℤ}
    (h : entryTimestamp lib entry = some timestamp) (start stop : ℤ) :
    counts lib ⟨start, stop, none, none⟩ entry = true ↔ start ≤ timestamp ∧ timestamp ≤ stop := by
  unfold counts
  rw [h]
  simp [AggregationScope.admits]

theorem counts_of_untimed {entry : Json} (h : entryTimestamp lib entry = none) :
    counts lib scope entry = false := by
  unfold counts
  rw [h]

theorem counts_periodScope_succ (start : ℤ) (days : ℕ) (entry : Json) :
    (counts lib (periodScope start (days + 1)) entry = true ↔
        counts lib (periodScope start days) entry = true ∨
          counts lib (dayScope start days) entry = true) ∧
      ¬(counts lib (periodScope start days) entry = true ∧
        counts lib (dayScope start days) entry = true) := by
  cases htime : entryTimestamp lib entry with
  | none => simp [counts_of_untimed htime]
  | some timestamp =>
    have hlength := dayLength_pos
    have hdays : 0 ≤ (days : ℤ) * dayLength := mul_nonneg (Nat.cast_nonneg days) hlength.le
    have hsucc : ((days + 1 : ℕ) : ℤ) * dayLength = days * dayLength + dayLength := by
      push_cast
      ring
    unfold periodScope dayScope
    rw [counts_unfiltered htime, counts_unfiltered htime, counts_unfiltered htime, hsucc]
    omega

theorem counts_periodScope_zero (start : ℤ) (entry : Json) :
    counts lib (periodScope start 0) entry = false := by
  cases htime : entryTimestamp lib entry with
  | none => exact counts_of_untimed htime
  | some timestamp =>
    rw [Bool.eq_false_iff]
    unfold periodScope
    rw [Ne, counts_unfiltered htime]
    push_cast
    omega

/-- Each entry of the period is counted on one day, and no other entry on any. -/
theorem countP_days (start : ℤ) (days : ℕ) (entry : Json) :
    (List.range days).countP (fun d => counts lib (dayScope start d) entry) =
      (counts lib (periodScope start days) entry).toNat := by
  induction days with
  | zero => simp [counts_periodScope_zero]
  | succ days ih =>
    obtain ⟨hor, hand⟩ := @counts_periodScope_succ lib start days entry
    rw [List.range_succ, List.countP_append, ih, List.countP_singleton]
    cases hperiod : counts lib (periodScope start days) entry <;>
      cases hday : counts lib (dayScope start days) entry <;>
        cases hsucc : counts lib (periodScope start (days + 1)) entry <;> simp_all

theorem counted_period_perm (start : ℤ) (days : ℕ) (entries : List Json) :
    (counted lib (periodScope start (days + 1)) entries).Perm
      (counted lib (periodScope start days) entries ++ counted lib (dayScope start days) entries) := by
  induction entries with
  | nil => exact List.Perm.refl _
  | cons entry entries ih =>
    obtain ⟨hor, hand⟩ := @counts_periodScope_succ lib start days entry
    rw [counted_cons, counted_cons, counted_cons]
    cases hperiod : counts lib (periodScope start days) entry with
    | false =>
      cases hday : counts lib (dayScope start days) entry with
      | false =>
        have hsucc : counts lib (periodScope start (days + 1)) entry = false := by simp_all
        simpa [hsucc] using ih
      | true =>
        rw [if_pos (hor.mpr (.inr hday))]
        exact (ih.append_left _).trans (List.perm_append_comm_assoc ..)
    | true =>
      have hday : counts lib (dayScope start days) entry = false := by simp_all
      rw [if_pos (hor.mpr (.inl hperiod)), hday, if_pos rfl, List.append_assoc]
      exact ih.append_left _

theorem counted_period_zero (start : ℤ) (entries : List Json) :
    counted lib (periodScope start 0) entries = [] := by
  simp [counted, counts_periodScope_zero]

/-- The days of a period report what the whole period reports. -/
theorem accumulate_days {start : ℤ} {entries : List Json} {results : ℕ → UsageAccumulator} (days : ℕ)
    (h : ∀ d < days, accumulate lib (dayScope start d) entries = some (results d)) :
    ∃ whole, accumulate lib (periodScope start days) entries = some whole ∧
      whole.result.totals = ((List.range days).map fun d => (results d).result.totals).sum := by
  have hsome : (accumulate lib (periodScope start days) entries).isSome ∧
      activity lib (counted lib (periodScope start days) entries) =
        ((List.range days).map fun d => (results d).result.totals).sum := by
    induction days with
    | zero =>
      rw [accumulate_isSome, counted_period_zero]
      exact ⟨rfl, rfl⟩
    | succ days ih =>
      obtain ⟨hbefore, hactivity⟩ := ih fun d hd => h d (Nat.lt_succ_of_lt hd)
      have hday := h days (Nat.lt_succ_self days)
      have hperm := @counted_period_perm lib start days entries
      constructor
      · rw [accumulate_isSome, hperm.all_eq, List.all_append, ← accumulate_isSome,
          ← accumulate_isSome, hbefore, hday]
        rfl
      · rw [List.range_succ, List.map_append, List.sum_append, ← hactivity, List.map_singleton,
          List.sum_singleton, (filled_of_accumulate hday).totals, ← activity_append]
        exact (hperm.map (activityOf lib)).sum_eq
  obtain ⟨whole, hwhole⟩ := Option.isSome_iff_exists.mp hsome.1
  exact ⟨whole, hwhole, (filled_of_accumulate hwhole).totals.trans hsome.2⟩

/-! ## The stored breakdown -/

/-- The categories by bytes, the largest first. -/
def rankedCategories (lib : Lib) (categories : List Json) : List (CategoryKey × Transfer) :=
  breakdown (categoryTable lib categories) false none

/-- The categories that the collector counts on the day that begins at `day`. -/
def dayCategories (lib : Lib) (payload : Json) (day : ℤ) : List Json :=
  counted lib ⟨day, day + dayLength - 1, none, none⟩ (flattenUsageEntries payload)

/-- The categories after the fifteenth have no operations in total. -/
def NothingCutOff (lib : Lib) (payload : Json) (day : ℤ) : Prop :=
  (∀ entry ∈ dayCategories lib payload day, (categoryKey entry).isSome) →
    (((rankedCategories lib (dayCategories lib payload day)).drop 15).map fun entry =>
      entry.2.ops).sum = 0

theorem truthy_key {value : Json} {key : CategoryKey} (h : (value.or (.str "unknown")).key = some key) :
    key.truthy = true := by
  unfold Json.or at h
  split_ifs at h with htruthy
  · cases value with
    | bool value =>
      cases h
      cases value
      · cases htruthy
      · simp [CategoryKey.truthy]
    | int value =>
      cases h
      simpa [CategoryKey.truthy, Json.truthy] using htruthy
    | float value =>
      cases h
      exact htruthy
    | str value =>
      cases h
      exact htruthy
    | null => cases h
    | list => cases h
    | dict => cases h
  · cases h
    rfl

theorem truthy_of_mem_categoryTable {categories : List Json}
    (hkeys : ∀ entry ∈ categories, (categoryKey entry).isSome) {p : CategoryKey × Transfer}
    (h : p ∈ categoryTable lib categories) : p.1.truthy = true := by
  obtain ⟨entry, hentry, hkey⟩ := mem_keys_tableOf (List.mem_map_of_mem h)
  obtain ⟨key, hsome⟩ := Option.isSome_iff_exists.mp (hkeys entry hentry)
  rw [keyOf, hsome, Option.getD_some] at hkey
  exact hkey ▸ truthy_key hsome

/-- Every category has a name, so the collector keeps the whole breakdown. -/
theorem sum_storedBreakdown {categoryBreakdown : List (CategoryKey × Transfer)}
    (h : ∀ p ∈ categoryBreakdown, p.1.truthy = true) :
    (((storedBreakdown categoryBreakdown).getD []).map Prod.snd).sum =
      (categoryBreakdown.map fun p => p.2.ops).sum := by
  have hfilter : (categoryBreakdown.filter fun p => p.1.truthy) = categoryBreakdown :=
    List.filter_eq_self.mpr h
  unfold storedBreakdown
  rw [hfilter]
  dsimp only
  split_ifs with hempty
  · rw [List.map_eq_nil_iff.mp hempty]
    rfl
  · rw [Option.getD_some, List.map_map]
    rfl

/-- `ops` as a homomorphism. -/
def opsHom : Transfer →+ ℤ where
  toFun := Transfer.ops
  map_zero' := rfl
  map_add' _ _ := rfl

theorem sum_rankedCategories (categories : List Json) :
    ((rankedCategories lib categories).map fun p => p.2.ops).sum = (activity lib categories).ops := by
  have hperm : (rankedCategories lib categories).Perm (categoryTable lib categories) :=
    sortedBy_perm _ _
  have hhom := map_list_sum opsHom ((categoryTable lib categories).map Prod.snd)
  rw [sum_categoryTable, List.map_map] at hhom
  rw [(hperm.map fun p => p.2.ops).sum_eq]
  exact hhom.symm

/-- The row of a day is stored when every category counted can be a key. -/
theorem collectUsageSubject_of_keys {payload : Json} {day : ℤ}
    (hkeys : ∀ entry ∈ dayCategories lib payload day, (categoryKey entry).isSome) :
    ∃ row, collectUsageSubject lib payload day = some row := by
  have hsome : (accumulate lib ⟨day, day + dayLength - 1, none, none⟩
      (flattenUsageEntries payload)).isSome := by
    rw [accumulate_isSome]
    exact List.all_eq_true.mpr hkeys
  obtain ⟨accumulator, haccumulator⟩ := Option.isSome_iff_exists.mp hsome
  unfold collectUsageSubject aggregateUsage
  exact ⟨_, congrArg _ (congrArg _ haccumulator)⟩

theorem keys_of_collectUsageSubject {payload : Json} {day : ℤ} {row : UsageRow}
    (h : collectUsageSubject lib payload day = some row) :
    ∀ entry ∈ dayCategories lib payload day, (categoryKey entry).isSome := by
  obtain ⟨aggregation, haggregation, -⟩ := Option.map_eq_some_iff.mp h
  obtain ⟨accumulator, haccumulator, -⟩ := Option.map_eq_some_iff.mp haggregation
  have hsome : (accumulate lib ⟨day, day + dayLength - 1, none, none⟩
      (flattenUsageEntries payload)).isSome :=
    Option.isSome_iff_exists.mpr ⟨accumulator, haccumulator⟩
  rw [accumulate_isSome] at hsome
  exact List.all_eq_true.mp hsome

/-- The stored breakdown misses the operations of the categories that are cut off. -/
theorem breakdown_iff {payload : Json} {day : ℤ} {row : UsageRow}
    (h : collectUsageSubject lib payload day = some row) :
    ((row.opsBreakdown.getD []).map Prod.snd).sum = row.opsTotal ↔
      (((rankedCategories lib (dayCategories lib payload day)).drop 15).map fun entry =>
        entry.2.ops).sum = 0 := by
  obtain ⟨aggregation, haggregation, rfl⟩ := Option.map_eq_some_iff.mp h
  obtain ⟨accumulator, haccumulator, rfl⟩ := Option.map_eq_some_iff.mp haggregation
  replace haccumulator : accumulate lib ⟨day, day + dayLength - 1, none, none⟩
      (flattenUsageEntries payload) = some accumulator := haccumulator
  have hfilled : Filled lib (dayCategories lib payload day) accumulator :=
    filled_of_accumulate haccumulator
  have hkeys := keys_of_collectUsageSubject h
  have hranked : accumulator.result.categoryBreakdown =
      (rankedCategories lib (dayCategories lib payload day)).take 15 := by
    rw [rankedCategories, ← hfilled.categories]
    rfl
  have htruthy : ∀ p ∈ (rankedCategories lib (dayCategories lib payload day)).take 15,
      p.1.truthy = true := by
    intro p hp
    have hmem := (sortedBy_perm _ _).subset (List.mem_of_mem_take hp)
    exact truthy_of_mem_categoryTable hkeys hmem
  have hsplit := List.take_append_drop 15 (rankedCategories lib (dayCategories lib payload day))
  have htotal := @sum_rankedCategories lib (dayCategories lib payload day)
  rw [← hsplit, List.map_append, List.sum_append] at htotal
  simp only [hranked, sum_storedBreakdown htruthy, hfilled.totals]
  omega

/-! ## Usage is conserved -/

structure UsageConserved (lib : Lib) (payload : Json) (day : ℤ) : Prop where
  sums : ∀ scope accumulator,
    accumulate lib scope (flattenUsageEntries payload) = some accumulator → Conserves accumulator
  once : ∀ start days, ∀ entry ∈ flattenUsageEntries payload,
    (List.range days).countP (fun d => counts lib (dayScope start d) entry) =
      (counts lib (periodScope start days) entry).toNat
  days : ∀ start days (results : ℕ → UsageAccumulator),
    (∀ d < days, accumulate lib (dayScope start d) (flattenUsageEntries payload) =
      some (results d)) →
    ∃ whole, accumulate lib (periodScope start days) (flattenUsageEntries payload) = some whole ∧
      whole.result.totals = ((List.range days).map fun d => (results d).result.totals).sum
  breakdown : ∀ row, collectUsageSubject lib payload day = some row →
    ((row.opsBreakdown.getD []).map Prod.snd).sum = row.opsTotal

/-- Usage is conserved up to the row of a day, whose breakdown is cut to fifteen categories. -/
theorem usageConserved_iff (lib : Lib) (payload : Json) (day : ℤ) :
    UsageConserved lib payload day ↔ NothingCutOff lib payload day := by
  constructor
  · intro h hkeys
    obtain ⟨row, hrow⟩ := collectUsageSubject_of_keys hkeys
    exact (breakdown_iff hrow).mp (h.breakdown row hrow)
  · intro h
    refine ⟨fun scope accumulator haccumulator => (filled_of_accumulate haccumulator).conserves,
      fun start days entry _ => countP_days start days entry,
      fun start days results hresults => accumulate_days days hresults, fun row hrow => ?_⟩
    exact (breakdown_iff hrow).mpr (h (keys_of_collectUsageSubject hrow))

/-- Two texts read as the service reads them. -/
def sampleLib : Lib where
  str _ := ""
  int _ := none
  strip text := text
  lower text := text
  strptime format text :=
    if format = "%Y-%m-%d" ∧ text = "2026-01-05" then some 1767571200000000 else none

/-- Sixteen categories with one operation each. -/
def sixteenCategories : Json :=
  .dict [("entries", .list [.dict [("time", .str "2026-01-05"), ("bucket", .str "b"),
    ("user", .str "u"), ("categories", .list (["a", "b", "c", "d", "e", "f", "g", "h", "i", "j", "k",
      "l", "m", "n", "o", "p"].map fun name =>
        .dict [("category", .str name), ("ops", .int 1)]))]])]

theorem sixteenth_category_lost :
    ¬UsageConserved sampleLib sixteenCategories 1767571200000000 := by
  intro h
  have hkeys : ∀ entry ∈ dayCategories sampleLib sixteenCategories 1767571200000000,
      (categoryKey entry).isSome := by decide
  obtain ⟨row, hrow⟩ := collectUsageSubject_of_keys hkeys
  have hlost := (breakdown_iff hrow).mp (h.breakdown row hrow)
  exact absurd hlost (by decide)

end Traffic
end BucketReef

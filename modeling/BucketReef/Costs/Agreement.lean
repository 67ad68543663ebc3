import BucketReef.Costs.EndpointTotals

/-!
# When the cost views agree

The views of a subject always agree, and the concentration is always that of the subjects in the list.
The cost of an endpoint is the sum of theirs when the surplus of their averages is what the rows of
unregistered subjects cost.
-/

namespace BucketReef
namespace Costs

open Lists

variable {ledger : Ledger} {period : CostPeriod} {scope : Option SubjectType}

/-- The views of the subjects agree; the cost of the endpoint, in a summary and in the analytics, is the
sum of what its subjects cost; and the concentration is about that sum. -/
structure CostViewsAgree (ledger : Ledger) (month : ℕ) (scope : Option SubjectType)
    (endpoint : CephEndpoint ledger) : Prop where
  subjects : SubjectViewsAgree ledger month scope
  summary : ∀ cost, (summaryForPeriod ledger (parseCostMonth month) (some endpoint.id) scope).cost =
    some cost →
      cost.totalCost = some (subjectsCost ledger (parseCostMonth month) (some endpoint.id) scope)
  byEndpoint : ∀ filter, ∀ entry ∈ (analytics ledger month filter scope).byEndpoint,
    entry.storageEndpointId = endpoint.id → ∀ cost, entry.cost = some cost →
      cost.totalCost = some (subjectsCost ledger (parseCostMonth month) (some endpoint.id) scope)
  concentration : ∀ filter,
    (analytics ledger month filter scope).concentration.topFiveCost +
        (analytics ledger month filter scope).concentration.otherCost =
      subjectsCost ledger (parseCostMonth month) filter scope
  topFive : ∀ filter, (analytics ledger month filter scope).concentration.topFiveRatio =
    (analytics ledger month filter scope).concentration.topFiveCost /
      subjectsCost ledger (parseCostMonth month) filter scope

/-! ## Concentration -/

theorem subjectSummary_charged_none {endpoint : StorageEndpoint}
    (hmodel : ledger.resolveModel (some endpoint.id) = none) (subject : Subject) :
    (subjectSummary ledger period endpoint subject).charged = 0 := by
  simp [CostSubjectSummary.charged, CostSubjectSummary.total, subjectSummary, hmodel, computeCost]

theorem subjectSummary_charged_some {endpoint : StorageEndpoint} {model : EffectiveCostModel}
    (hmodel : ledger.resolveModel (some endpoint.id) = some model) (subject : Subject) :
    (subjectSummary ledger period endpoint subject).charged =
      model.rates.charge (ledger.usedBy period endpoint.id subject.key)
        (ledger.byteDays period endpoint.id subject.key)
        (ledger.ownDays period endpoint.id subject.key) := by
  rw [CostSubjectSummary.charged, subjectSummary_total hmodel, Option.getD_some]

theorem charged_nonneg {filter : Option ℕ} {item : CostSubjectSummary}
    (h : item ∈ allSubjectSummaries ledger period filter scope) : 0 ≤ item.charged := by
  obtain ⟨endpoint, -, subject, -, -, -, rfl⟩ := mem_allSubjectSummaries.mp h
  cases hmodel : ledger.resolveModel (some endpoint.id) with
  | none => exact (subjectSummary_charged_none hmodel subject).ge
  | some model =>
    rw [subjectSummary_charged_some hmodel]
    exact model.rates.charge_nonneg _ _ _

/-- A subject that is not ranked has no data or no price. -/
theorem charged_of_not_ranked {filter : Option ℕ} {item : CostSubjectSummary}
    (h : item ∈ allSubjectSummaries ledger period filter scope) (hranked : item.isRanked = false) :
    item.charged = 0 := by
  obtain ⟨endpoint, -, subject, -, -, -, rfl⟩ := mem_allSubjectSummaries.mp h
  cases hmodel : ledger.resolveModel (some endpoint.id) with
  | none => exact subjectSummary_charged_none hmodel subject
  | some model =>
    have hfigures : SameFigures (listedTotals ledger period endpoint.id subject.key) _ :=
      listedTotals_figures
    simp only [CostSubjectSummary.isRanked, subjectSummary_total hmodel, Option.isSome_some,
      Bool.true_and, Bool.or_eq_false_iff, decide_eq_false_iff_not, not_lt, Nat.le_zero,
      Option.isSome_eq_false_iff, Option.isNone_iff_eq_none] at hranked
    obtain ⟨⟨⟨havg, hin⟩, hout⟩, hops⟩ := hranked
    have havg : average (ledger.byteDays period endpoint.id subject.key)
        (ledger.storedBy period endpoint.id subject.key).length = none :=
      hfigures.avgStorageBytes.symm.trans havg
    have hin : ((ledger.usedBy period endpoint.id subject.key).map CostUsageDaily.bytesIn).sum = 0 :=
      hfigures.bytesIn.symm.trans hin
    have hout : ((ledger.usedBy period endpoint.id subject.key).map CostUsageDaily.bytesOut).sum = 0 :=
      hfigures.bytesOut.symm.trans hout
    have hops : ((ledger.usedBy period endpoint.id subject.key).map CostUsageDaily.opsTotal).sum = 0 :=
      hfigures.opsTotal.symm.trans hops
    rw [subjectSummary_charged_some hmodel, Rates.charge, Rates.sum_usageCharge, hin, hout, hops,
      Ledger.ownDays, length_days, ← average_getD, havg]
    simp [Rates.storageCharge, bytesToGb]

/-- The ranking leaves out no cost. -/
theorem sum_ranked (filter : Option ℕ) :
    ((rankedAnalyticsSubjects ledger period filter scope).map CostSubjectSummary.charged).sum =
      subjectsCost ledger period filter scope := by
  have hperm := List.filter_append_perm CostSubjectSummary.isRanked
    (allSubjectSummaries ledger period filter scope)
  have hrest : (((allSubjectSummaries ledger period filter scope).filter
      fun item => !item.isRanked).map CostSubjectSummary.charged).sum = 0 := by
    apply List.sum_eq_zero
    intro x hx
    obtain ⟨item, hitem, rfl⟩ := List.mem_map.mp hx
    obtain ⟨hmem, hranked⟩ := List.mem_filter.mp hitem
    exact charged_of_not_ranked hmem (by simpa using hranked)
  rw [subjectsCost, ← (hperm.map CostSubjectSummary.charged).sum_eq, List.map_append,
    List.sum_append, hrest, add_zero]
  exact ((sortedBy_perm _ _).map _).sum_eq

theorem ranked_nonneg {filter : Option ℕ} {items : List CostSubjectSummary}
    (h : ∀ item ∈ items, item ∈ rankedAnalyticsSubjects ledger period filter scope) :
    0 ≤ (items.map CostSubjectSummary.charged).sum := by
  apply List.sum_nonneg
  intro x hx
  obtain ⟨item, hitem, rfl⟩ := List.mem_map.mp hx
  exact charged_nonneg (List.mem_filter.mp (mem_sortedBy.mp (h item hitem))).1

theorem concentration_sum (filter : Option ℕ) :
    (analyticsConcentration (rankedAnalyticsSubjects ledger period filter scope)).topFiveCost +
        (analyticsConcentration (rankedAnalyticsSubjects ledger period filter scope)).otherCost =
      subjectsCost ledger period filter scope := by
  set ranked := rankedAnalyticsSubjects ledger period filter scope with hranked
  have hdrop : 0 ≤ ((ranked.drop 5).map CostSubjectSummary.charged).sum :=
    ranked_nonneg fun item hitem => List.mem_of_mem_drop hitem
  have hsplit : ((ranked.take 5).map CostSubjectSummary.charged).sum +
      ((ranked.drop 5).map CostSubjectSummary.charged).sum =
        (ranked.map CostSubjectSummary.charged).sum := by
    rw [← List.sum_append, ← List.map_append, List.take_append_drop]
  rw [← sum_ranked, ← hranked]
  change ((ranked.take 5).map CostSubjectSummary.charged).sum +
    max ((ranked.map CostSubjectSummary.charged).sum -
      ((ranked.take 5).map CostSubjectSummary.charged).sum) 0 = _
  rw [← hsplit, add_sub_cancel_left, max_eq_left hdrop]

theorem concentration_ratio (filter : Option ℕ) :
    (analyticsConcentration (rankedAnalyticsSubjects ledger period filter scope)).topFiveRatio =
      (analyticsConcentration (rankedAnalyticsSubjects ledger period filter scope)).topFiveCost /
        subjectsCost ledger period filter scope := by
  set ranked := rankedAnalyticsSubjects ledger period filter scope with hranked
  have htotal : 0 ≤ (ranked.map CostSubjectSummary.charged).sum :=
    ranked_nonneg fun item hitem => hitem
  rw [← sum_ranked, ← hranked]
  change (if 0 < (ranked.map CostSubjectSummary.charged).sum then
    ((ranked.take 5).map CostSubjectSummary.charged).sum /
      (ranked.map CostSubjectSummary.charged).sum else 0) = _ /
    (ranked.map CostSubjectSummary.charged).sum
  split_ifs with hpos
  · rfl
  · rw [le_antisymm (not_lt.mp hpos) htotal, div_zero]

/-! ## The cost of the endpoint -/

/-- The analytics cost an endpoint as its summary does. -/
theorem byEndpoint_cost {filter : Option ℕ} {entry : CostAnalyticsEndpoint}
    (h : entry ∈ analyticsByEndpoint ledger period filter scope) :
    entry.cost = (summaryForPeriod ledger period (some entry.storageEndpointId) scope).cost := by
  obtain ⟨endpoint, -, hentry⟩ := List.mem_filterMap.mp (mem_sortedBy.mp h)
  dsimp only at hentry
  split_ifs at hentry
  cases hentry
  rfl

/-- Without a pricing there is no cost; with one, the endpoint costs what its subjects do when the
surplus is the stray cost. -/
theorem summary_cost_iff (endpoint : CephEndpoint ledger) :
    (∀ cost, (summaryForPeriod ledger period (some endpoint.id) scope).cost = some cost →
      cost.totalCost = some (subjectsCost ledger period (some endpoint.id) scope)) ↔
    ∀ model, ledger.resolveModel (some endpoint.id) = some model →
      ledger.surplus period scope endpoint.id model.rates =
        ledger.strayCharge period scope endpoint.id model.rates := by
  change (∀ cost, computeCost (ledger.resolveModel (some endpoint.id))
    (ledger.aggregateTotals period (some endpoint.id) scope) = some cost → _) ↔ _
  cases hmodel : ledger.resolveModel (some endpoint.id) with
  | none => simp [computeCost]
  | some model =>
    have htotal := @aggregateTotals_total ledger period scope model endpoint.id
    have hsum := @subjectsCost_add_strayCharge ledger period scope endpoint model hmodel
    obtain ⟨cost, hcost⟩ : ∃ cost, computeCost (some model)
        (ledger.aggregateTotals period (some endpoint.id) scope) = some cost := ⟨_, rfl⟩
    rw [hcost, Option.bind_some] at htotal
    simp only [hcost, Option.some.injEq, forall_eq', htotal]
    constructor
    · intro heq
      rw [heq] at hsum
      exact (add_left_cancel hsum).symm
    · intro heq
      rw [heq] at hsum
      exact (add_right_cancel hsum).symm

theorem agree_iff (ledger : Ledger) (month : ℕ) (scope : Option SubjectType)
    (endpoint : CephEndpoint ledger) :
    CostViewsAgree ledger month scope endpoint ↔
      ∀ model, ledger.resolveModel (some endpoint.id) = some model →
        ledger.surplus (parseCostMonth month) scope endpoint.id model.rates =
          ledger.strayCharge (parseCostMonth month) scope endpoint.id model.rates := by
  rw [← summary_cost_iff]
  constructor
  · exact CostViewsAgree.summary
  · intro hsummary
    refine ⟨subjectViewsAgree ledger month scope, hsummary, ?_, concentration_sum,
      concentration_ratio⟩
    intro filter entry hentry hid cost hcost
    rw [byEndpoint_cost hentry, hid] at hcost
    exact hsummary cost hcost

/-! ## Without stray rows -/

/-- The subject has a storage row on every day on which any subject of the scope has one. -/
def StoredDaily (ledger : Ledger) (period : CostPeriod) (scope : Option SubjectType)
    (endpointId : ℕ) (key : SubjectKey) : Prop :=
  ∀ row ∈ ledger.storageIn period (some endpointId) scope,
    ∃ own ∈ ledger.storedBy period endpointId key, own.day = row.day

theorem mem_storageDays {endpointId day : ℕ} :
    day ∈ ledger.storageDays period scope endpointId ↔
      ∃ row ∈ ledger.storageIn period (some endpointId) scope, row.day = day := by
  rw [Ledger.storageDays, List.mem_dedup, List.mem_map]

section Days

variable {endpointId : ℕ} {key : SubjectKey} (hscope : key.type ∈ subjectTypes scope)
include hscope

theorem ownDays_subset : ((ledger.storedBy period endpointId key).map fun row => row.day).dedup ⊆
    ledger.storageDays period scope endpointId := by
  intro day hday
  obtain ⟨row, hrow, rfl⟩ := List.mem_map.mp (List.mem_dedup.mp hday)
  rw [← storageIn_filter_key hscope] at hrow
  exact mem_storageDays.mpr ⟨row, (List.mem_filter.mp hrow).1, rfl⟩

theorem ownDays_le : ledger.ownDays period endpointId key ≤
    (ledger.storageDays period scope endpointId).length :=
  (List.subperm_of_subset (List.nodup_dedup _) (ownDays_subset hscope)).length_le

/-- A subject has all the days of the endpoint when it has as many. -/
theorem ownDays_eq_iff : ledger.ownDays period endpointId key =
    (ledger.storageDays period scope endpointId).length ↔
      StoredDaily ledger period scope endpointId key := by
  have hsub := List.subperm_of_subset (List.nodup_dedup _)
    (@ownDays_subset ledger period scope endpointId key hscope)
  constructor
  · intro hlength row hrow
    have hperm := hsub.perm_of_length_le (Nat.le_of_eq hlength.symm)
    have hday := hperm.mem_iff.mpr (mem_storageDays.mpr ⟨row, hrow, rfl⟩)
    exact List.mem_map.mp (List.mem_dedup.mp hday)
  · intro hdaily
    refine ((List.perm_ext_iff_of_nodup (List.nodup_dedup _) (List.nodup_dedup _)).mpr
      fun day => ⟨fun h => ownDays_subset hscope h, fun h => ?_⟩).length_eq
    obtain ⟨row, hrow, rfl⟩ := mem_storageDays.mp h
    exact List.mem_dedup.mpr (List.mem_map.mpr (hdaily row hrow))

end Days

theorem byteDays_eq_zero_iff {endpointId : ℕ} {key : SubjectKey} :
    ledger.byteDays period endpointId key = 0 ↔
      ∀ row ∈ ledger.storedBy period endpointId key, row.totalBytes = 0 := by
  rw [Ledger.byteDays, List.sum_eq_zero_iff, List.forall_mem_map]

/-- A subject with bytes has a day. -/
theorem byteDays_eq_zero_or {endpointId : ℕ} {key : SubjectKey} :
    ledger.byteDays period endpointId key = 0 ∨ 0 < ledger.ownDays period endpointId key := by
  rw [Ledger.ownDays, length_days]
  cases h : ledger.storedBy period endpointId key with
  | nil => exact .inl (by rw [Ledger.byteDays, h]; rfl)
  | cons row rows => exact .inr (Nat.succ_pos _)

theorem surplus_eq_zero_iff (endpointId : ℕ) (rates : Rates) :
    ledger.surplus period scope endpointId rates = 0 ↔
      rates.storageGbMonthPrice = 0 ∨ ∀ key ∈ ledger.registered scope endpointId,
        (∀ row ∈ ledger.storedBy period endpointId key, row.totalBytes = 0) ∨
          StoredDaily ledger period scope endpointId key := by
  have hdays : ∀ key ∈ ledger.registered scope endpointId,
      ledger.byteDays period endpointId key = 0 ∨ 0 < ledger.ownDays period endpointId key ∧
        ledger.ownDays period endpointId key ≤
          (ledger.storageDays period scope endpointId).length := fun key hkey =>
    byteDays_eq_zero_or.imp_right fun hpos => ⟨hpos, ownDays_le (type_of_registered hkey)⟩
  rw [Ledger.surplus, Rates.storageCharge_sum, Rates.storageCharge_eq_zero,
    sum_sub_average_eq_zero_iff hdays]
  refine or_congr_right (forall₂_congr fun key hkey => ?_)
  rw [byteDays_eq_zero_iff, ownDays_eq_iff (type_of_registered hkey)]

theorem strayCharge_eq_zero {endpointId : ℕ} (rates : Rates)
    (husage : ledger.strayUsage period scope endpointId = [])
    (hstorage : ledger.strayStorage period scope endpointId = []) :
    ledger.strayCharge period scope endpointId rates = 0 := by
  rw [Ledger.strayCharge, husage, hstorage]
  simp [Rates.charge, Rates.storageCharge, bytesToGb]

theorem agree_iff_of_no_stray {month : ℕ} {endpoint : CephEndpoint ledger}
    (husage : ledger.strayUsage (parseCostMonth month) scope endpoint.id = [])
    (hstorage : ledger.strayStorage (parseCostMonth month) scope endpoint.id = []) :
    CostViewsAgree ledger month scope endpoint ↔
      ∀ model, ledger.resolveModel (some endpoint.id) = some model →
        model.rates.storageGbMonthPrice = 0 ∨ ∀ key ∈ ledger.registered scope endpoint.id,
          (∀ row ∈ ledger.storedBy (parseCostMonth month) endpoint.id key, row.totalBytes = 0) ∨
            StoredDaily ledger (parseCostMonth month) scope endpoint.id key := by
  rw [agree_iff]
  refine forall₂_congr fun model _ => ?_
  rw [strayCharge_eq_zero model.rates husage hstorage, surplus_eq_zero_iff]

/-- The views agree when the surplus of the subjects' averages is what the stray rows cost; without
stray rows, when storage is free or every subject with bytes is stored daily. -/
theorem costViewsAgree_iff (ledger : Ledger) (month : ℕ) (scope : Option SubjectType)
    (endpoint : CephEndpoint ledger) :
    (CostViewsAgree ledger month scope endpoint ↔
      ∀ model, ledger.resolveModel (some endpoint.id) = some model →
        ledger.surplus (parseCostMonth month) scope endpoint.id model.rates =
          ledger.strayCharge (parseCostMonth month) scope endpoint.id model.rates) ∧
    (ledger.strayUsage (parseCostMonth month) scope endpoint.id = [] →
      ledger.strayStorage (parseCostMonth month) scope endpoint.id = [] →
        (CostViewsAgree ledger month scope endpoint ↔
          ∀ model, ledger.resolveModel (some endpoint.id) = some model →
            model.rates.storageGbMonthPrice = 0 ∨ ∀ key ∈ ledger.registered scope endpoint.id,
              (∀ row ∈ ledger.storedBy (parseCostMonth month) endpoint.id key,
                row.totalBytes = 0) ∨
                StoredDaily ledger (parseCostMonth month) scope endpoint.id key)) :=
  ⟨agree_iff ledger month scope endpoint, agree_iff_of_no_stray⟩

/-- Two accounts at one endpoint, the second with storage on one of the two days only. -/
def unevenLedger : Ledger where
  endpoints := [⟨1, "ceph", true⟩]
  subjects := [⟨⟨.account, 1⟩, 1, "first", "uid1"⟩, ⟨⟨.account, 2⟩, 1, "second", "uid2"⟩]
  usage := []
  storage := [⟨⟨739706, 1, ⟨.account, 1⟩⟩, 1073741824, 10⟩,
    ⟨⟨739707, 1, ⟨.account, 1⟩⟩, 1073741824, 10⟩, ⟨⟨739706, 1, ⟨.account, 2⟩⟩, 1073741824, 10⟩]
  costModel := some ⟨"EUR", ⟨1, 1, 1, 1, by decide, by decide, by decide, by decide⟩⟩
  overrides := []
  endpoints_nodup := by decide
  subjects_nodup := by decide
  usage_nodup := by decide
  storage_nodup := by decide

def unevenEndpoint : CephEndpoint unevenLedger where
  toStorageEndpoint := ⟨1, "ceph", true⟩
  mem := List.mem_singleton_self _
  ceph := rfl

/-- The first account stores a gigabyte on both days and the second on one of them. Each is charged for
a gigabyte, and the endpoint for one and a half. -/
theorem uneven_days_disagree : ¬ ∀ (ledger : Ledger) (month : ℕ) (scope : Option SubjectType)
    (endpoint : CephEndpoint ledger), CostViewsAgree ledger month scope endpoint := by
  intro h
  have hsecond : (⟨.account, 2⟩ : SubjectKey) ∈
      unevenLedger.registered none unevenEndpoint.id := by decide
  rcases (agree_iff_of_no_stray (by decide) (by decide)).mp
    (h unevenLedger 24315 none unevenEndpoint) _ rfl with hfree | hstored
  · exact absurd hfree (by decide)
  · rcases hstored _ hsecond with hempty | hdaily
    · exact absurd (hempty ⟨⟨739706, 1, ⟨.account, 2⟩⟩, 1073741824, 10⟩ (by decide)) (by decide)
    · obtain ⟨own, hown, hday⟩ :=
        hdaily ⟨⟨739707, 1, ⟨.account, 1⟩⟩, 1073741824, 10⟩ (by decide)
      revert own
      decide

end Costs
end BucketReef

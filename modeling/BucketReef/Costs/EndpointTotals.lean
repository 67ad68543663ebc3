import BucketReef.Costs.SubjectViews
import Mathlib.Algebra.Order.BigOperators.Group.List
import Mathlib.Tactic.Positivity
import Mathlib.Tactic.Ring

/-!
# What an endpoint and its subjects cost

The usage of an endpoint is charged as the sum of its rows, and so is that of its subjects. The storage
of a subject is averaged over its own days, that of the endpoint over the days on which any subject has
a row, so the costs of the subjects may add up to more than the cost of the endpoint.
-/

namespace BucketReef
namespace Costs

open Lists

variable {ledger : Ledger} {period : CostPeriod} {scope : Option SubjectType}

/-! ## Averages -/

section Averages

variable {κ : Type*} {total days : κ → ℕ} {whole : ℕ}

/-- Averages over fewer days add up to at least the average over all of them, and to no more only if
every part that counts has all the days. -/
theorem sum_sub_average_eq_zero_iff {parts : List κ}
    (hdays : ∀ k ∈ parts, total k = 0 ∨ 0 < days k ∧ days k ≤ whole) :
    (parts.map fun k => (total k : ℚ) / days k - total k / whole).sum = 0 ↔
      ∀ k ∈ parts, total k = 0 ∨ days k = whole := by
  have hterm : ∀ k ∈ parts, 0 ≤ (total k : ℚ) / days k - total k / whole ∧
      ((total k : ℚ) / days k - total k / whole = 0 ↔ total k = 0 ∨ days k = whole) := by
    intro k hk
    rcases hdays k hk with hzero | ⟨hpos, hle⟩
    · simp [hzero]
    · have hpos' : (0 : ℚ) < days k := by exact_mod_cast hpos
      have hle' : (days k : ℚ) ≤ whole := by exact_mod_cast hle
      have hwhole : (0 : ℚ) < whole := hpos'.trans_le hle'
      refine ⟨sub_nonneg.mpr (div_le_div_of_nonneg_left (Nat.cast_nonneg _) hpos' hle'), ?_⟩
      rw [sub_eq_zero, div_eq_div_iff hpos'.ne' hwhole.ne', mul_eq_mul_left_iff]
      constructor
      · rintro (h | h)
        · exact .inr (by exact_mod_cast h.symm)
        · exact .inl (by exact_mod_cast h)
      · rintro (h | h)
        · exact .inr (by exact_mod_cast h)
        · exact .inl (by exact_mod_cast h.symm)
  induction parts with
  | nil => simp
  | cons k parts ih =>
    have htail : (parts.map fun k => (total k : ℚ) / days k - total k / whole).sum = 0 ↔
        ∀ k ∈ parts, total k = 0 ∨ days k = whole :=
      ih (fun k' hk' => hdays k' (List.mem_cons_of_mem k hk'))
        fun k' hk' => hterm k' (List.mem_cons_of_mem k hk')
    have hrest : 0 ≤ (parts.map fun k => (total k : ℚ) / days k - total k / whole).sum := by
      apply List.sum_nonneg
      intro x hx
      obtain ⟨k', hk', rfl⟩ := List.mem_map.mp hx
      exact (hterm k' (List.mem_cons_of_mem k hk')).1
    obtain ⟨hfirst, hiff⟩ := hterm k List.mem_cons_self
    rw [List.map_cons, List.sum_cons, add_eq_zero_iff_of_nonneg hfirst hrest, hiff, htail,
      List.forall_mem_cons]

theorem sum_map_div (total : κ → ℕ) (n : ℚ) (parts : List κ) :
    (parts.map fun k => (total k : ℚ) / n).sum = ((parts.map total).sum : ℕ) / n := by
  induction parts with
  | nil => simp
  | cons k parts ih =>
    rw [List.map_cons, List.sum_cons, ih, List.map_cons, List.sum_cons, Nat.cast_add, add_div]

theorem sum_map_sub (f g : κ → ℚ) (parts : List κ) :
    (parts.map fun k => f k - g k).sum = (parts.map f).sum - (parts.map g).sum := by
  rw [eq_sub_iff_add_eq, ← List.sum_map_add]
  simp only [sub_add_cancel]

end Averages

/-! ## What a pricing makes of the rows -/

/-- A Ceph endpoint of the ledger. -/
structure CephEndpoint (ledger : Ledger) extends StorageEndpoint where
  mem : toStorageEndpoint ∈ ledger.endpoints
  ceph : isCeph = true

/-- What a day of usage costs. -/
def Rates.usageCharge (rates : Rates) (row : CostUsageDaily) : ℚ :=
  rates.egressGbPrice * bytesToGb row.bytesOut + rates.ingressGbPrice * bytesToGb row.bytesIn +
    rates.requestsPer1000Price * ((row.opsTotal : ℚ) / 1000)

/-- What bytes stored over a month cost. -/
def Rates.storageCharge (rates : Rates) (bytes : ℚ) : ℚ :=
  rates.storageGbMonthPrice * bytesToGb bytes

/-- What these rows cost when the storage is averaged over `days`. -/
def Rates.charge (rates : Rates) (usage : List CostUsageDaily) (bytes days : ℕ) : ℚ :=
  (usage.map rates.usageCharge).sum + rates.storageCharge ((bytes : ℚ) / days)

namespace Rates

variable (rates : Rates)

theorem usageCharge_nonneg (row : CostUsageDaily) : 0 ≤ rates.usageCharge row := by
  have hgb : ∀ bytes : ℕ, 0 ≤ bytesToGb bytes := fun bytes => by
    unfold bytesToGb gigabyte
    positivity
  unfold usageCharge
  have hegress := mul_nonneg rates.egress_nonneg (hgb row.bytesOut)
  have hingress := mul_nonneg rates.ingress_nonneg (hgb row.bytesIn)
  have hrequests := mul_nonneg rates.requests_nonneg
    (by positivity : (0 : ℚ) ≤ row.opsTotal / 1000)
  exact add_nonneg (add_nonneg hegress hingress) hrequests

theorem charge_nonneg (usage : List CostUsageDaily) (bytes days : ℕ) :
    0 ≤ rates.charge usage bytes days := by
  have husage : 0 ≤ (usage.map rates.usageCharge).sum := by
    apply List.sum_nonneg
    intro x hx
    obtain ⟨row, -, rfl⟩ := List.mem_map.mp hx
    exact rates.usageCharge_nonneg row
  have hstorage : 0 ≤ rates.storageCharge ((bytes : ℚ) / days) := by
    apply mul_nonneg rates.storage_nonneg
    unfold bytesToGb gigabyte
    positivity
  exact add_nonneg husage hstorage

theorem storageCharge_sub (a b : ℚ) :
    rates.storageCharge (a - b) = rates.storageCharge a - rates.storageCharge b := by
  unfold storageCharge bytesToGb
  ring

theorem storageCharge_add (a b : ℚ) :
    rates.storageCharge (a + b) = rates.storageCharge a + rates.storageCharge b := by
  unfold storageCharge bytesToGb
  ring

theorem storageCharge_sum {κ : Type*} (f : κ → ℚ) (l : List κ) :
    (l.map fun k => rates.storageCharge (f k)).sum = rates.storageCharge (l.map f).sum := by
  induction l with
  | nil => simp [storageCharge, bytesToGb]
  | cons k l ih => rw [List.map_cons, List.sum_cons, ih, List.map_cons, List.sum_cons,
      storageCharge_add]

theorem storageCharge_eq_zero {bytes : ℚ} :
    rates.storageCharge bytes = 0 ↔ rates.storageGbMonthPrice = 0 ∨ bytes = 0 := by
  unfold storageCharge bytesToGb gigabyte
  simp

/-- The charge of the sums is the sum of the charges. -/
theorem sum_usageCharge (usage : List CostUsageDaily) : (usage.map rates.usageCharge).sum =
    rates.egressGbPrice * bytesToGb (usage.map CostUsageDaily.bytesOut).sum +
      rates.ingressGbPrice * bytesToGb (usage.map CostUsageDaily.bytesIn).sum +
      rates.requestsPer1000Price * (((usage.map CostUsageDaily.opsTotal).sum : ℕ) / 1000) := by
  induction usage with
  | nil => simp [bytesToGb]
  | cons row usage ih =>
    simp only [List.map_cons, List.sum_cons, ih, usageCharge, bytesToGb, Nat.cast_add]
    ring

end Rates

theorem average_getD (total days : ℕ) : (average total days).getD 0 = (total : ℚ) / days := by
  unfold average
  split_ifs with h
  · simp [h]
  · rfl

/-- The total of a cost charges the rows from which the totals were added up. -/
theorem totalCost_computeCost (model : EffectiveCostModel) {totals : CostTotals}
    {usage : List CostUsageDaily} {bytes days : ℕ}
    (hin : totals.bytesIn = (usage.map CostUsageDaily.bytesIn).sum)
    (hout : totals.bytesOut = (usage.map CostUsageDaily.bytesOut).sum)
    (hops : totals.opsTotal = (usage.map CostUsageDaily.opsTotal).sum)
    (havg : totals.avgStorageGbMonth = (average bytes days).map bytesToGb) :
    (computeCost (some model) totals).bind CostBreakdown.totalCost =
      some (model.rates.charge usage bytes days) := by
  rw [Rates.charge, Rates.sum_usageCharge, ← average_getD]
  unfold computeCost Rates.storageCharge
  rw [hin, hout, hops, havg]
  cases average bytes days with
  | none =>
    simp [sumKnown, bytesToGb]
    ring
  | some avg =>
    simp [sumKnown]
    ring

/-! ## The subjects of an endpoint -/

namespace Ledger

variable (ledger) (period) (scope)

/-- The subjects of a scope that are registered at an endpoint, in the order of the list. -/
def subjectsAt (endpointId : ℕ) : List Subject :=
  (subjectTypes scope).flatMap (ledger.loadSubjects endpointId)

def registered (endpointId : ℕ) : List SubjectKey :=
  (ledger.subjectsAt scope endpointId).map Subject.key

/-- The bytes of a subject, summed over its days. -/
def byteDays (endpointId : ℕ) (key : SubjectKey) : ℕ :=
  ((ledger.storedBy period endpointId key).map CostStorageDaily.totalBytes).sum

/-- The number of days on which a subject has a storage row. -/
def ownDays (endpointId : ℕ) (key : SubjectKey) : ℕ :=
  ((ledger.storedBy period endpointId key).map fun row => row.day).dedup.length

/-- The days on which any subject of the scope has a storage row. -/
def storageDays (endpointId : ℕ) : List ℕ :=
  ((ledger.storageIn period (some endpointId) scope).map fun row => row.day).dedup

/-- Usage of a subject that is not, or no longer, registered at the endpoint. -/
def strayUsage (endpointId : ℕ) : List CostUsageDaily :=
  (ledger.usageIn period (some endpointId) scope).filter fun row =>
    row.subject ∉ ledger.registered scope endpointId

/-- Storage of a subject that is not, or no longer, registered at the endpoint. -/
def strayStorage (endpointId : ℕ) : List CostStorageDaily :=
  (ledger.storageIn period (some endpointId) scope).filter fun row =>
    row.subject ∉ ledger.registered scope endpointId

/-- What the averages of the subjects, each over its own days, charge more than averages over the days
of the endpoint would. -/
def surplus (endpointId : ℕ) (rates : Rates) : ℚ :=
  ((ledger.registered scope endpointId).map fun key => rates.storageCharge
    ((ledger.byteDays period endpointId key : ℚ) / ledger.ownDays period endpointId key -
      ledger.byteDays period endpointId key / (ledger.storageDays period scope endpointId).length)).sum

/-- What the rows of unregistered subjects cost. -/
def strayCharge (endpointId : ℕ) (rates : Rates) : ℚ :=
  rates.charge (ledger.strayUsage period scope endpointId)
    ((ledger.strayStorage period scope endpointId).map CostStorageDaily.totalBytes).sum
    (ledger.storageDays period scope endpointId).length

end Ledger

theorem mem_subjectTypes_type {type : SubjectType} {endpointId : ℕ} {subject : Subject}
    (h : subject ∈ ledger.loadSubjects endpointId type) : subject.key.type = type :=
  (mem_loadSubjects.mp h).2.2

/-- No subject is listed twice. -/
theorem registered_nodup (endpointId : ℕ) : (ledger.registered scope endpointId).Nodup := by
  have hload : ∀ type, ((ledger.loadSubjects endpointId type).map Subject.key).Nodup := fun type =>
    (((sortedBy_perm Subject.name _).map Subject.key).nodup_iff).mpr
      (ledger.subjects_nodup.sublist (List.filter_sublist.map _))
  have hdistinct : (subjectTypes scope).Nodup := by
    cases scope with
    | none => decide
    | some type => exact List.nodup_singleton type
  unfold Ledger.registered Ledger.subjectsAt
  rw [List.map_flatMap, List.nodup_flatMap]
  refine ⟨fun type _ => hload type, hdistinct.imp fun {type type'} hne => ?_⟩
  intro key hkey hkey'
  obtain ⟨subject, hsubject, rfl⟩ := List.mem_map.mp hkey
  obtain ⟨subject', hsubject', heq⟩ := List.mem_map.mp hkey'
  rw [← mem_subjectTypes_type hsubject, ← mem_subjectTypes_type hsubject', heq] at hne
  exact hne rfl

theorem type_of_registered {endpointId : ℕ} {key : SubjectKey}
    (h : key ∈ ledger.registered scope endpointId) : key.type ∈ subjectTypes scope := by
  obtain ⟨subject, hsubject, rfl⟩ := List.mem_map.mp h
  obtain ⟨type, htype, hload⟩ := List.mem_flatMap.mp hsubject
  rwa [mem_subjectTypes_type hload]

theorem usageIn_filter_key {endpointId : ℕ} {key : SubjectKey}
    (h : key.type ∈ subjectTypes scope) : (ledger.usageIn period (some endpointId) scope).filter
      (fun row => row.subject = key) = ledger.usedBy period endpointId key := by
  rw [Ledger.usageIn, List.filter_filter, Ledger.usedBy]
  exact List.filter_congr fun row _ => (ofSubject_eq h row.toDailyRow).symm

theorem storageIn_filter_key {endpointId : ℕ} {key : SubjectKey}
    (h : key.type ∈ subjectTypes scope) : (ledger.storageIn period (some endpointId) scope).filter
      (fun row => row.subject = key) = ledger.storedBy period endpointId key := by
  rw [Ledger.storageIn, List.filter_filter, Ledger.storedBy]
  exact List.filter_congr fun row _ => (ofSubject_eq h row.toDailyRow).symm

/-- The usage of the endpoint is that of its subjects and the stray rows. -/
theorem sum_usage (weight : CostUsageDaily → ℚ) (endpointId : ℕ) :
    ((ledger.registered scope endpointId).map fun key =>
        ((ledger.usedBy period endpointId key).map weight).sum).sum +
      ((ledger.strayUsage period scope endpointId).map weight).sum =
      ((ledger.usageIn period (some endpointId) scope).map weight).sum := by
  have htally : ∀ key ∈ ledger.registered scope endpointId,
      ((ledger.usedBy period endpointId key).map weight).sum = tally (fun row => row.subject) weight
        (ledger.usageIn period (some endpointId) scope) key := fun key hkey => by
    rw [tally, usageIn_filter_key (type_of_registered hkey)]
  rw [List.map_congr_left htally]
  exact sum_tally_add_others _ weight (registered_nodup endpointId) _

/-- The bytes of the endpoint are those of its subjects and of the stray rows. -/
theorem sum_byteDays (endpointId : ℕ) :
    ((ledger.registered scope endpointId).map (ledger.byteDays period endpointId)).sum +
      ((ledger.strayStorage period scope endpointId).map CostStorageDaily.totalBytes).sum =
      ((ledger.storageIn period (some endpointId) scope).map CostStorageDaily.totalBytes).sum := by
  have htally : ∀ key ∈ ledger.registered scope endpointId, ledger.byteDays period endpointId key =
      tally (fun row => row.subject) CostStorageDaily.totalBytes
        (ledger.storageIn period (some endpointId) scope) key := fun key hkey => by
    rw [tally, storageIn_filter_key (type_of_registered hkey), Ledger.byteDays]
  rw [List.map_congr_left htally]
  exact sum_tally_add_others _ _ (registered_nodup endpointId) _

/-! ## The cost of the subjects -/

/-- What an item is charged; without a pricing it is charged nothing. -/
def CostSubjectSummary.charged (item : CostSubjectSummary) : ℚ := item.total.getD 0

/-- The costs of the subjects in the list, added up. -/
def subjectsCost (ledger : Ledger) (period : CostPeriod) (filter : Option ℕ)
    (scope : Option SubjectType) : ℚ :=
  ((allSubjectSummaries ledger period filter scope).map CostSubjectSummary.charged).sum

theorem subjectSummary_total {endpoint : StorageEndpoint} {model : EffectiveCostModel}
    (hmodel : ledger.resolveModel (some endpoint.id) = some model) (subject : Subject) :
    (subjectSummary ledger period endpoint subject).total =
      some (model.rates.charge (ledger.usedBy period endpoint.id subject.key)
        (ledger.byteDays period endpoint.id subject.key)
        (ledger.ownDays period endpoint.id subject.key)) := by
  have hfigures : SameFigures (listedTotals ledger period endpoint.id subject.key) _ :=
    listedTotals_figures
  change (computeCost (ledger.resolveModel (some endpoint.id))
    (listedTotals ledger period endpoint.id subject.key)).bind CostBreakdown.totalCost = _
  rw [hmodel]
  refine totalCost_computeCost model hfigures.bytesIn hfigures.bytesOut hfigures.opsTotal ?_
  rw [hfigures.avgStorageGbMonth, Ledger.ownDays, length_days]
  rfl

theorem aggregateTotals_total (model : EffectiveCostModel) (endpointId : ℕ) :
    (computeCost (some model) (ledger.aggregateTotals period (some endpointId) scope)).bind
        CostBreakdown.totalCost =
      some (model.rates.charge (ledger.usageIn period (some endpointId) scope)
        ((ledger.storageIn period (some endpointId) scope).map CostStorageDaily.totalBytes).sum
        (ledger.storageDays period scope endpointId).length) :=
  totalCost_computeCost model rfl rfl rfl rfl

theorem cephEndpoints_eq (endpoint : CephEndpoint ledger) :
    ledger.cephEndpoints (some endpoint.id) = [endpoint.toStorageEndpoint] := by
  have hnodup : ledger.endpoints.Nodup := ledger.endpoints_nodup.of_map _
  apply List.perm_singleton.mp
  refine (sortedBy_perm _ _).trans ((List.perm_ext_iff_of_nodup (hnodup.filter _)
    (List.nodup_singleton _)).mpr fun other => ?_)
  rw [List.mem_filter, List.mem_singleton]
  constructor
  · rintro ⟨hother, hid⟩
    simp only [Bool.and_eq_true, Bool.or_eq_true, decide_eq_true_eq, Option.some.injEq,
      reduceCtorEq, false_or] at hid
    exact List.inj_on_of_nodup_map ledger.endpoints_nodup hother endpoint.mem hid.2.symm
  · rintro rfl
    exact ⟨endpoint.mem, by simp [endpoint.ceph]⟩

theorem allSubjectSummaries_eq (endpoint : CephEndpoint ledger) :
    allSubjectSummaries ledger period (some endpoint.id) scope =
      (ledger.subjectsAt scope endpoint.id).map
        (subjectSummary ledger period endpoint.toStorageEndpoint) := by
  unfold allSubjectSummaries subjectSummaries Ledger.subjectsAt
  rw [cephEndpoints_eq, List.flatMap_singleton, List.map_flatMap]

theorem subjectsCost_eq {endpoint : CephEndpoint ledger} {model : EffectiveCostModel}
    (hmodel : ledger.resolveModel (some endpoint.id) = some model) :
    subjectsCost ledger period (some endpoint.id) scope =
      ((ledger.registered scope endpoint.id).map fun key => model.rates.charge
        (ledger.usedBy period endpoint.id key) (ledger.byteDays period endpoint.id key)
        (ledger.ownDays period endpoint.id key)).sum := by
  unfold subjectsCost Ledger.registered
  rw [allSubjectSummaries_eq, List.map_map, List.map_map]
  refine congrArg List.sum (List.map_congr_left fun subject _ => ?_)
  rw [Function.comp_apply, Function.comp_apply, CostSubjectSummary.charged,
    subjectSummary_total hmodel, Option.getD_some]

/-- The subjects cost more than their endpoint by the surplus of their averages, and less by what the
stray rows cost. -/
theorem subjectsCost_add_strayCharge {endpoint : CephEndpoint ledger} {model : EffectiveCostModel}
    (hmodel : ledger.resolveModel (some endpoint.id) = some model) :
    subjectsCost ledger period (some endpoint.id) scope +
        ledger.strayCharge period scope endpoint.id model.rates =
      model.rates.charge (ledger.usageIn period (some endpoint.id) scope)
          ((ledger.storageIn period (some endpoint.id) scope).map CostStorageDaily.totalBytes).sum
          (ledger.storageDays period scope endpoint.id).length +
        ledger.surplus period scope endpoint.id model.rates := by
  have husage := @sum_usage ledger period scope model.rates.usageCharge endpoint.id
  have hbytes := @sum_byteDays ledger period scope endpoint.id
  have hsubjects : subjectsCost ledger period (some endpoint.id) scope =
      ((ledger.registered scope endpoint.id).map fun key =>
        ((ledger.usedBy period endpoint.id key).map model.rates.usageCharge).sum).sum +
      model.rates.storageCharge ((ledger.registered scope endpoint.id).map fun key =>
        (ledger.byteDays period endpoint.id key : ℚ) / ledger.ownDays period endpoint.id key).sum := by
    rw [subjectsCost_eq hmodel, ← Rates.storageCharge_sum, ← List.sum_map_add]
    rfl
  have hsurplus : ledger.surplus period scope endpoint.id model.rates =
      model.rates.storageCharge ((ledger.registered scope endpoint.id).map fun key =>
        (ledger.byteDays period endpoint.id key : ℚ) / ledger.ownDays period endpoint.id key).sum -
      model.rates.storageCharge ((((ledger.registered scope endpoint.id).map
        (ledger.byteDays period endpoint.id)).sum : ℕ) /
          (ledger.storageDays period scope endpoint.id).length) := by
    rw [Ledger.surplus, Rates.storageCharge_sum, sum_map_sub, sum_map_div, Rates.storageCharge_sub]
  rw [hsubjects, hsurplus, Ledger.strayCharge, Rates.charge, Rates.charge, ← husage, ← hbytes,
    Nat.cast_add, add_div, Rates.storageCharge_add]
  ring

end Costs
end BucketReef

import BucketReef.Lists.Sorted
import BucketReef.Lists.Table
import Mathlib.Algebra.Order.Field.Rat
import Mathlib.Data.List.Dedup

/-!
# Cost calculations

Daily usage and storage rows, the totals of a period, and what a pricing makes of them. Amounts and
averages are exact rationals. A month is counted from the year zero and a day from the first of the
calendar.
-/

namespace BucketReef
namespace Costs

/-! ## The ledger -/

inductive SubjectType
  | account | s3User
  deriving DecidableEq, Repr

/-- The one of `s3_account_id` and `s3_user_id` that a row carries. -/
structure SubjectKey where
  type : SubjectType
  id : ℕ
  deriving DecidableEq, Repr

structure DailyRow where
  day : ℕ
  endpointId : ℕ
  subject : SubjectKey
  deriving DecidableEq, Repr

structure CostUsageDaily extends DailyRow where
  bytesIn : ℕ
  bytesOut : ℕ
  opsTotal : ℕ
  opsBreakdown : Option (List (String × ℤ))
  deriving DecidableEq, Repr

structure CostStorageDaily extends DailyRow where
  totalBytes : ℕ
  totalObjects : ℕ
  deriving DecidableEq, Repr

/-- An account or a user. -/
structure Subject where
  key : SubjectKey
  endpointId : ℕ
  name : String
  rgwUserUid : String
  deriving DecidableEq, Repr

structure StorageEndpoint where
  id : ℕ
  name : String
  isCeph : Bool
  deriving DecidableEq, Repr

/-- Prices are not negative. -/
structure Rates where
  storageGbMonthPrice : ℚ
  egressGbPrice : ℚ
  ingressGbPrice : ℚ
  requestsPer1000Price : ℚ
  storage_nonneg : 0 ≤ storageGbMonthPrice
  egress_nonneg : 0 ≤ egressGbPrice
  ingress_nonneg : 0 ≤ ingressGbPrice
  requests_nonneg : 0 ≤ requestsPer1000Price

structure CostModel where
  currency : String
  rates : Rates

/-- The rows of the database: one for each endpoint, subject and day. -/
structure Ledger where
  endpoints : List StorageEndpoint
  subjects : List Subject
  usage : List CostUsageDaily
  storage : List CostStorageDaily
  costModel : Option CostModel
  overrides : List (ℕ × Rates)
  endpoints_nodup : (endpoints.map StorageEndpoint.id).Nodup
  subjects_nodup : (subjects.map Subject.key).Nodup
  usage_nodup : (usage.map CostUsageDaily.toDailyRow).Nodup
  storage_nodup : (storage.map CostStorageDaily.toDailyRow).Nodup

/-! ## Periods -/

def isLeapYear (year : ℕ) : Bool := year % 4 = 0 && (year % 100 ≠ 0 || year % 400 = 0)

/-- The days of a year before each of its months. -/
def daysBeforeMonth (year month : ℕ) : ℕ :=
  let days := [0, 31, 59, 90, 120, 151, 181, 212, 243, 273, 304, 334].getD month 0
  if 2 ≤ month ∧ isLeapYear year then days + 1 else days

def monthStart (month : ℕ) : ℕ :=
  let year := month / 12
  365 * (year - 1) + (year - 1) / 4 - (year - 1) / 100 + (year - 1) / 400 +
    daysBeforeMonth year (month % 12)

structure CostPeriod where
  month : ℕ
  start : ℕ
  stop : ℕ
  daysInMonth : ℕ
  deriving DecidableEq, Repr

def parseCostMonth (month : ℕ) : CostPeriod where
  month := month
  start := monthStart month
  stop := monthStart (month + 1)
  daysInMonth := monthStart (month + 1) - monthStart month

def CostPeriod.contains (period : CostPeriod) (day : ℕ) : Bool :=
  period.start ≤ day && day < period.stop

/-- The last months, the selected one at the end. -/
def historyPeriods (period : CostPeriod) (months : ℕ) : List CostPeriod :=
  (List.range months).map fun i => parseCostMonth (period.month + 1 + i - months)

/-! ## Totals and costs -/

structure CostTotals where
  bytesIn : ℕ
  bytesOut : ℕ
  opsTotal : ℕ
  opsBreakdown : Option (List (String × ℤ))
  avgStorageBytes : Option ℚ
  avgStorageGbMonth : Option ℚ
  totalObjects : Option ℕ
  daysWithData : ℕ
  storageDaysWithData : ℕ := 0
  usageDaysWithData : ℕ := 0
  deriving DecidableEq, Repr

inductive PricingSource
  | endpointOverride | global | mixed
  deriving DecidableEq, Repr

structure EffectiveCostModel where
  currency : String
  rates : Rates
  pricingSource : PricingSource

structure CostBreakdown where
  currency : String
  storageCost : Option ℚ
  egressCost : Option ℚ
  ingressCost : Option ℚ
  requestsCost : Option ℚ
  totalCost : Option ℚ
  pricingSource : PricingSource
  deriving DecidableEq, Repr

structure CostCoverage where
  daysCollected : ℕ
  daysInMonth : ℕ
  coverageRatio : ℚ
  storageDaysCollected : ℕ
  usageDaysCollected : ℕ
  deriving DecidableEq, Repr

structure CostUsageTotals where
  bytesIn : ℕ
  bytesOut : ℕ
  opsTotal : ℕ
  opsBreakdown : Option (List (String × ℤ))
  deriving DecidableEq, Repr

structure CostStorageTotals where
  avgBytes : Option ℚ
  avgGbMonth : Option ℚ
  totalObjects : Option ℕ
  deriving DecidableEq, Repr

def gigabyte : ℚ := 1024 ^ 3

def bytesToGb (value : ℚ) : ℚ := value / gigabyte

/-- The sum of the values that are there, if any is. -/
def sumKnown (values : List (Option ℚ)) : Option ℚ :=
  let known := values.filterMap id
  if known = [] then none else some known.sum

def computeCost (model : Option EffectiveCostModel) (totals : CostTotals) : Option CostBreakdown :=
  model.map fun model =>
    let storageCost := totals.avgStorageGbMonth.map fun storage =>
      model.rates.storageGbMonthPrice * storage
    let egressCost := some (model.rates.egressGbPrice * bytesToGb totals.bytesOut)
    let ingressCost := some (model.rates.ingressGbPrice * bytesToGb totals.bytesIn)
    let requestsCost := some (model.rates.requestsPer1000Price * ((totals.opsTotal : ℚ) / 1000))
    { currency := model.currency
      storageCost := storageCost
      egressCost := egressCost
      ingressCost := ingressCost
      requestsCost := requestsCost
      totalCost := sumKnown [storageCost, egressCost, ingressCost, requestsCost]
      pricingSource := model.pricingSource }

def buildUsageTotals (totals : CostTotals) : CostUsageTotals :=
  ⟨totals.bytesIn, totals.bytesOut, totals.opsTotal, totals.opsBreakdown⟩

def buildStorageTotals (totals : CostTotals) : CostStorageTotals :=
  ⟨totals.avgStorageBytes, totals.avgStorageGbMonth, totals.totalObjects⟩

def coverageForPeriod (period : CostPeriod) (totals : CostTotals) : CostCoverage where
  daysCollected := totals.daysWithData
  daysInMonth := period.daysInMonth
  coverageRatio := totals.daysWithData / period.daysInMonth
  storageDaysCollected := totals.storageDaysWithData
  usageDaysCollected := totals.usageDaysWithData

def sumCosts (costs : List CostBreakdown) : Option CostBreakdown :=
  match costs with
  | [] => none
  | first :: _ => some {
      currency := first.currency
      storageCost := sumKnown (costs.map CostBreakdown.storageCost)
      egressCost := sumKnown (costs.map CostBreakdown.egressCost)
      ingressCost := sumKnown (costs.map CostBreakdown.ingressCost)
      requestsCost := sumKnown (costs.map CostBreakdown.requestsCost)
      totalCost := sumKnown (costs.map CostBreakdown.totalCost)
      pricingSource := if costs.all fun cost => cost.pricingSource = first.pricingSource then
        first.pricingSource else .mixed }

def mergeOpsBreakdown (rows : List CostUsageDaily) : List (String × ℤ) :=
  rows.foldl (fun merged row => (row.opsBreakdown.getD []).foldl
    (fun merged entry => Lists.addAt entry.1 entry.2 merged) merged) []

/-- The average over the days with data; `none` without any. -/
def average (total days : ℕ) : Option ℚ := if days = 0 then none else some (total / days)

end Costs
end BucketReef

import BucketReef.Costs.Calculations
import Mathlib.Data.List.Infix
import Mathlib.Data.String.Basic

/-!
# Cost views

The queries over the ledger, and the summary, the subject list, the subject detail with its history,
the CSV export and the analytics that are built from them.
-/

namespace BucketReef
namespace Costs

/-! ## Queries -/

namespace Ledger

variable (ledger : Ledger)

def resolveModel (endpointId : Option ℕ) : Option EffectiveCostModel :=
  ledger.costModel.map fun model =>
    match endpointId.bind fun id => ledger.overrides.lookup id with
    | some rates => ⟨model.currency, rates, .endpointOverride⟩
    | none => ⟨model.currency, model.rates, .global⟩

def cephEndpoints (endpointId : Option ℕ) : List StorageEndpoint :=
  Lists.sortedBy (fun endpoint => toLex (endpoint.name, endpoint.id)) <|
    ledger.endpoints.filter fun endpoint =>
      endpoint.isCeph && (endpointId = none || endpointId = some endpoint.id)

def loadSubjects (endpointId : ℕ) (type : SubjectType) : List Subject :=
  Lists.sortedBy Subject.name <|
    ledger.subjects.filter fun subject => subject.endpointId = endpointId && subject.key.type = type

/-- The rows of a period: of one endpoint or of all Ceph endpoints, of one type or of all subjects. -/
def inScope (period : CostPeriod) (endpointId : Option ℕ) (scope : Option SubjectType)
    (row : DailyRow) : Bool :=
  period.contains row.day &&
    (match endpointId with
      | some id => decide (row.endpointId = id)
      | none => ledger.endpoints.any fun endpoint => endpoint.id = row.endpointId && endpoint.isCeph) &&
    (match scope with
      | none => true
      | some type => decide (row.subject.type = type))

def usageIn (period : CostPeriod) (endpointId : Option ℕ) (scope : Option SubjectType) :
    List CostUsageDaily :=
  ledger.usage.filter fun row => ledger.inScope period endpointId scope row.toDailyRow

def storageIn (period : CostPeriod) (endpointId : Option ℕ) (scope : Option SubjectType) :
    List CostStorageDaily :=
  ledger.storage.filter fun row => ledger.inScope period endpointId scope row.toDailyRow

/-- The endpoints that any row of the period belongs to. -/
def endpointIdsWithData (period : CostPeriod) (scope : Option SubjectType) : List ℕ :=
  Lists.sortedBy id <| ((ledger.usageIn period none scope).map (fun row => row.endpointId) ++
    (ledger.storageIn period none scope).map fun row => row.endpointId).dedup

def aggregateTotals (period : CostPeriod) (endpointId : Option ℕ) (scope : Option SubjectType) :
    CostTotals :=
  let usage := ledger.usageIn period endpointId scope
  let storage := ledger.storageIn period endpointId scope
  let daysWithUsage := (usage.map fun row => row.day).dedup.length
  let daysWithStorage := (storage.map fun row => row.day).dedup.length
  let avgStorageBytes := average (storage.map CostStorageDaily.totalBytes).sum daysWithStorage
  { bytesIn := (usage.map CostUsageDaily.bytesIn).sum
    bytesOut := (usage.map CostUsageDaily.bytesOut).sum
    opsTotal := (usage.map CostUsageDaily.opsTotal).sum
    opsBreakdown := none
    avgStorageBytes := avgStorageBytes
    avgStorageGbMonth := avgStorageBytes.map bytesToGb
    totalObjects := if storage = [] then none else
      some (storage.map CostStorageDaily.totalObjects).sum
    daysWithData := max daysWithStorage daysWithUsage
    storageDaysWithData := daysWithStorage
    usageDaysWithData := daysWithUsage }

/-- Bytes in, bytes out and operations of each subject that has a row. -/
def usageTotalsBySubject (period : CostPeriod) (endpointId : ℕ) (type : SubjectType) :
    List (ℕ × ℕ × ℕ × ℕ) :=
  Lists.groupsOf (fun row => row.subject.id) (fun own => ((own.map CostUsageDaily.bytesIn).sum,
      (own.map CostUsageDaily.bytesOut).sum, (own.map CostUsageDaily.opsTotal).sum)) <|
    ledger.usageIn period (some endpointId) (some type)

/-- Average bytes, objects and days of each subject that has a row. -/
def storageTotalsBySubject (period : CostPeriod) (endpointId : ℕ) (type : SubjectType) :
    List (ℕ × Option ℚ × Option ℕ × ℕ) :=
  Lists.groupsOf (fun row => row.subject.id) (fun own =>
      let days := (own.map fun row => row.day).dedup.length
      (average (own.map CostStorageDaily.totalBytes).sum days,
        some (own.map CostStorageDaily.totalObjects).sum, days)) <|
    ledger.storageIn period (some endpointId) (some type)

def ofSubject (period : CostPeriod) (endpointId : ℕ) (key : SubjectKey) (row : DailyRow) : Bool :=
  row.endpointId = endpointId && period.contains row.day && row.subject = key

def usageRowsForSubject (period : CostPeriod) (endpointId : ℕ) (key : SubjectKey) :
    List CostUsageDaily :=
  Lists.sortedBy (fun row => row.day) <|
    ledger.usage.filter fun row => ofSubject period endpointId key row.toDailyRow

def storageRowsForSubject (period : CostPeriod) (endpointId : ℕ) (key : SubjectKey) :
    List CostStorageDaily :=
  Lists.sortedBy (fun row => row.day) <|
    ledger.storage.filter fun row => ofSubject period endpointId key row.toDailyRow

end Ledger

/-! ## The summary -/

structure CostSummary where
  month : ℕ
  storageEndpointId : Option ℕ
  usage : CostUsageTotals
  storage : CostStorageTotals
  coverage : CostCoverage
  cost : Option CostBreakdown
  deriving DecidableEq, Repr

def summaryForPeriod (ledger : Ledger) (period : CostPeriod) (endpointId : Option ℕ)
    (scope : Option SubjectType) : CostSummary :=
  let totals := ledger.aggregateTotals period endpointId scope
  let cost :=
    match endpointId with
    | some id => computeCost (ledger.resolveModel (some id)) totals
    | none =>
      match ledger.endpointIdsWithData period scope with
      | [] => computeCost (ledger.resolveModel none) totals
      | ids => sumCosts <| ids.filterMap fun id =>
          computeCost (ledger.resolveModel (some id)) (ledger.aggregateTotals period (some id) scope)
  { month := period.month
    storageEndpointId := endpointId
    usage := buildUsageTotals totals
    storage := buildStorageTotals totals
    coverage := coverageForPeriod period totals
    cost := cost }

/-! ## The subject list -/

structure CostSubjectSummary where
  storageEndpointId : ℕ
  storageEndpointName : String
  subject : SubjectKey
  name : String
  rgwIdentifier : String
  storage : CostStorageTotals
  usage : CostUsageTotals
  cost : Option CostBreakdown
  deriving DecidableEq, Repr

/-- The cost of an entry, or nothing. -/
def CostSubjectSummary.total (entry : CostSubjectSummary) : Option ℚ :=
  entry.cost.bind CostBreakdown.totalCost

def subjectSummary (ledger : Ledger) (period : CostPeriod) (endpoint : StorageEndpoint)
    (subject : Subject) : CostSubjectSummary :=
  let type := subject.key.type
  let usage := ((ledger.usageTotalsBySubject period endpoint.id type).lookup subject.key.id).getD
    (0, 0, 0)
  let storage := ((ledger.storageTotalsBySubject period endpoint.id type).lookup
    subject.key.id).getD (none, none, 0)
  let totals : CostTotals := {
    bytesIn := usage.1
    bytesOut := usage.2.1
    opsTotal := usage.2.2
    opsBreakdown := none
    avgStorageBytes := storage.1
    avgStorageGbMonth := storage.1.map bytesToGb
    totalObjects := storage.2.1
    daysWithData := storage.2.2 }
  { storageEndpointId := endpoint.id
    storageEndpointName := endpoint.name
    subject := subject.key
    name := subject.name
    rgwIdentifier := subject.rgwUserUid
    storage := buildStorageTotals totals
    usage := buildUsageTotals totals
    cost := computeCost (ledger.resolveModel (some endpoint.id)) totals }

def subjectSummaries (ledger : Ledger) (period : CostPeriod) (endpoint : StorageEndpoint)
    (type : SubjectType) : List CostSubjectSummary :=
  (ledger.loadSubjects endpoint.id type).map (subjectSummary ledger period endpoint)

def subjectTypes : Option SubjectType → List SubjectType
  | none => [.account, .s3User]
  | some type => [type]

def allSubjectSummaries (ledger : Ledger) (period : CostPeriod) (endpointId : Option ℕ)
    (scope : Option SubjectType) : List CostSubjectSummary :=
  (ledger.cephEndpoints endpointId).flatMap fun endpoint =>
    (subjectTypes scope).flatMap (subjectSummaries ledger period endpoint)

inductive SortBy
  | cost | egress | ingress | storage | requests | endpoint | name
  deriving DecidableEq, Repr

/-- Numbers come before texts; one request sorts by one of them. -/
def subjectSortValue (casefold : String → String) (sortBy : SortBy) (entry : CostSubjectSummary) :
    ℚ ×ₗ String :=
  match sortBy with
  | .cost => toLex (entry.total.getD (-1), "")
  | .egress => toLex (entry.usage.bytesOut, "")
  | .ingress => toLex (entry.usage.bytesIn, "")
  | .storage => toLex (entry.storage.avgBytes.getD 0, "")
  | .requests => toLex (entry.usage.opsTotal, "")
  | .endpoint => toLex (0, casefold entry.storageEndpointName)
  | .name => toLex (0, casefold entry.name)

def subjectMatchesSearch (casefold : String → String) (search : String)
    (entry : CostSubjectSummary) : Bool :=
  [entry.name, entry.rgwIdentifier, entry.storageEndpointName].any fun candidate =>
    decide (search.toList <:+: (casefold candidate).toList)

structure CostSubjectsResponse where
  items : List CostSubjectSummary
  total : ℕ
  page : ℕ
  pageSize : ℕ
  hasNext : Bool
  deriving DecidableEq, Repr

/-- `search` is the folded search text, empty without one. -/
def listSubjects (casefold : String → String) (ledger : Ledger) (month : ℕ) (endpointId : Option ℕ)
    (scope : Option SubjectType) (page pageSize : ℕ) (sortBy : SortBy) (descending : Bool)
    (search : String) : CostSubjectsResponse :=
  let found := (allSubjectSummaries ledger (parseCostMonth month) endpointId scope).filter fun entry =>
    search = "" || subjectMatchesSearch casefold search entry
  let items :=
    if descending then Lists.sortedBy (fun entry =>
      OrderDual.toDual (subjectSortValue casefold sortBy entry)) found
    else Lists.sortedBy (subjectSortValue casefold sortBy) found
  let start := (page - 1) * pageSize
  { items := (items.drop start).take pageSize
    total := items.length
    page := page
    pageSize := pageSize
    hasNext := start + pageSize < items.length }

/-! ## One subject -/

def subjectTotalsFromRows (usage : List CostUsageDaily) (storage : List CostStorageDaily) :
    CostTotals :=
  let daysWithStorage := storage.length
  let avgStorageBytes := average (storage.map CostStorageDaily.totalBytes).sum daysWithStorage
  let usageDays := (usage.map fun row => row.day).dedup.length
  { bytesIn := (usage.map CostUsageDaily.bytesIn).sum
    bytesOut := (usage.map CostUsageDaily.bytesOut).sum
    opsTotal := (usage.map CostUsageDaily.opsTotal).sum
    opsBreakdown := if usage = [] then none else some (mergeOpsBreakdown usage)
    avgStorageBytes := avgStorageBytes
    avgStorageGbMonth := avgStorageBytes.map bytesToGb
    totalObjects := if storage = [] then none else
      some (storage.map CostStorageDaily.totalObjects).sum
    daysWithData := max daysWithStorage usageDays
    storageDaysWithData := daysWithStorage
    usageDaysWithData := usageDays }

structure CostDailySeriesPoint where
  day : ℕ
  storageBytes : Option ℕ
  bytesIn : Option ℕ
  bytesOut : Option ℕ
  opsTotal : Option ℕ
  deriving DecidableEq, Repr

/-- The last row of a day wins. -/
def subjectDailySeries (usage : List CostUsageDaily) (storage : List CostStorageDaily) :
    List CostDailySeriesPoint :=
  let days := (storage.map (fun row => row.day) ++ usage.map fun row => row.day).dedup
  (Lists.sortedBy id days).map fun day =>
    let stored := storage.reverse.find? fun row => row.day = day
    let used := usage.reverse.find? fun row => row.day = day
    { day := day
      storageBytes := stored.map CostStorageDaily.totalBytes
      bytesIn := used.map CostUsageDaily.bytesIn
      bytesOut := used.map CostUsageDaily.bytesOut
      opsTotal := used.map CostUsageDaily.opsTotal }

structure CostSubjectDetail where
  month : ℕ
  storageEndpointId : ℕ
  subject : SubjectKey
  name : String
  rgwIdentifier : String
  daily : List CostDailySeriesPoint
  usage : CostUsageTotals
  storage : CostStorageTotals
  coverage : CostCoverage
  cost : Option CostBreakdown
  deriving DecidableEq, Repr

/-- `none` when the endpoint has no such subject. -/
def subjectDetail (ledger : Ledger) (month endpointId : ℕ) (key : SubjectKey) :
    Option CostSubjectDetail :=
  let period := parseCostMonth month
  (ledger.subjects.find? fun subject => subject.key = key && subject.endpointId = endpointId).map
    fun subject =>
      let usage := ledger.usageRowsForSubject period endpointId key
      let storage := ledger.storageRowsForSubject period endpointId key
      let totals := subjectTotalsFromRows usage storage
      { month := period.month
        storageEndpointId := endpointId
        subject := key
        name := subject.name
        rgwIdentifier := subject.rgwUserUid
        daily := subjectDailySeries usage storage
        usage := buildUsageTotals totals
        storage := buildStorageTotals totals
        coverage := coverageForPeriod period totals
        cost := computeCost (ledger.resolveModel (some endpointId)) totals }

structure CostHistoryPoint where
  month : ℕ
  coverage : CostCoverage
  cost : Option CostBreakdown
  deriving DecidableEq, Repr

def subjectHistory (ledger : Ledger) (month endpointId : ℕ) (key : SubjectKey) (months : ℕ) :
    List CostHistoryPoint :=
  (historyPeriods (parseCostMonth month) months).map fun period =>
    let totals := subjectTotalsFromRows (ledger.usageRowsForSubject period endpointId key)
      (ledger.storageRowsForSubject period endpointId key)
    { month := period.month
      coverage := coverageForPeriod period totals
      cost := computeCost (ledger.resolveModel (some endpointId)) totals }

/-! ## CSV -/

/-- A line of the export; numbers are written with six decimals. -/
structure CsvRow where
  storageEndpointId : ℕ
  storageEndpointName : String
  subject : SubjectKey
  name : String
  rgwIdentifier : String
  avgStorageGbMonth : Option ℚ
  egressGb : ℚ
  ingressGb : ℚ
  requestsK : ℚ
  totalCost : Option ℚ
  currency : Option String
  deriving DecidableEq, Repr

def csvRow (item : CostSubjectSummary) : CsvRow where
  storageEndpointId := item.storageEndpointId
  storageEndpointName := item.storageEndpointName
  subject := item.subject
  name := item.name
  rgwIdentifier := item.rgwIdentifier
  avgStorageGbMonth := item.storage.avgGbMonth
  egressGb := bytesToGb item.usage.bytesOut
  ingressGb := bytesToGb item.usage.bytesIn
  requestsK := item.usage.opsTotal / 1000
  totalCost := item.total
  currency := item.cost.map CostBreakdown.currency

def exportCsv (ledger : Ledger) (month : ℕ) (endpointId : Option ℕ) (scope : Option SubjectType) :
    List CsvRow :=
  (allSubjectSummaries ledger (parseCostMonth month) endpointId scope).map csvRow

/-! ## Analytics -/

structure CostAnalyticsEndpoint where
  storageEndpointId : ℕ
  storageEndpointName : String
  coverage : CostCoverage
  cost : Option CostBreakdown
  deriving DecidableEq, Repr

/-- The most expensive endpoints first. -/
def analyticsByEndpoint (ledger : Ledger) (period : CostPeriod) (endpointId : Option ℕ)
    (scope : Option SubjectType) : List CostAnalyticsEndpoint :=
  Lists.sortedBy (fun entry => OrderDual.toDual ((entry.cost.bind CostBreakdown.totalCost).getD (-1))) <|
    (ledger.cephEndpoints endpointId).filterMap fun endpoint =>
      let totals := ledger.aggregateTotals period (some endpoint.id) scope
      if totals.daysWithData = 0 then none
      else some {
        storageEndpointId := endpoint.id
        storageEndpointName := endpoint.name
        coverage := coverageForPeriod period totals
        cost := computeCost (ledger.resolveModel (some endpoint.id)) totals }

/-- The subject has a cost and some data. -/
def CostSubjectSummary.isRanked (item : CostSubjectSummary) : Bool :=
  item.total.isSome && (item.storage.avgBytes.isSome || decide (0 < item.usage.bytesIn) ||
    decide (0 < item.usage.bytesOut) || decide (0 < item.usage.opsTotal))

def rankedAnalyticsSubjects (ledger : Ledger) (period : CostPeriod) (endpointId : Option ℕ)
    (scope : Option SubjectType) : List CostSubjectSummary :=
  Lists.sortedBy (fun item => OrderDual.toDual (item.total.getD (-1))) <|
    (allSubjectSummaries ledger period endpointId scope).filter CostSubjectSummary.isRanked

structure CostAnalyticsConcentration where
  topFiveCost : ℚ
  otherCost : ℚ
  topFiveRatio : ℚ
  deriving DecidableEq, Repr

def analyticsConcentration (ranked : List CostSubjectSummary) : CostAnalyticsConcentration :=
  let subjectTotalCost := (ranked.map fun item => item.total.getD 0).sum
  let topFiveCost := ((ranked.take 5).map fun item => item.total.getD 0).sum
  { topFiveCost := topFiveCost
    otherCost := max (subjectTotalCost - topFiveCost) 0
    topFiveRatio := if 0 < subjectTotalCost then topFiveCost / subjectTotalCost else 0 }

structure CostAnalyticsResponse where
  month : ℕ
  storageEndpointId : Option ℕ
  scope : Option SubjectType
  summary : CostSummary
  byEndpoint : List CostAnalyticsEndpoint
  topSubjects : List CostSubjectSummary
  concentration : CostAnalyticsConcentration
  history : List CostHistoryPoint
  deriving DecidableEq, Repr

def analytics (ledger : Ledger) (month : ℕ) (endpointId : Option ℕ) (scope : Option SubjectType) :
    CostAnalyticsResponse :=
  let period := parseCostMonth month
  let ranked := rankedAnalyticsSubjects ledger period endpointId scope
  { month := period.month
    storageEndpointId := endpointId
    scope := scope
    summary := summaryForPeriod ledger period endpointId scope
    byEndpoint := analyticsByEndpoint ledger period endpointId scope
    topSubjects := ranked.take 10
    concentration := analyticsConcentration ranked
    history := (historyPeriods period 12).map fun period =>
      let summary := summaryForPeriod ledger period endpointId scope
      ⟨period.month, summary.coverage, summary.cost⟩ }

end Costs
end BucketReef

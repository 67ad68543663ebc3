import BucketReef.Costs.Views

/-!
# The views of a subject

The list groups the rows of an endpoint by subject, the detail and its history load the rows of one
subject. Both add up the same rows, and a subject has at most one row a day, so both divide by the same
number of days.
-/

namespace BucketReef
namespace Costs

open Lists

variable {ledger : Ledger} {period : CostPeriod} {endpointId : ℕ} {key : SubjectKey}

/-! ## The rows of a subject -/

namespace Ledger

variable (ledger)

def usedBy (period : CostPeriod) (endpointId : ℕ) (key : SubjectKey) : List CostUsageDaily :=
  ledger.usage.filter fun row => ofSubject period endpointId key row.toDailyRow

def storedBy (period : CostPeriod) (endpointId : ℕ) (key : SubjectKey) : List CostStorageDaily :=
  ledger.storage.filter fun row => ofSubject period endpointId key row.toDailyRow

end Ledger

theorem ofSubject_iff {row : DailyRow} : Ledger.ofSubject period endpointId key row = true ↔
    row.endpointId = endpointId ∧ period.contains row.day = true ∧ row.subject = key := by
  simp [Ledger.ofSubject, and_assoc]

theorem inScope_iff {scope : Option SubjectType} {row : DailyRow} :
    ledger.inScope period (some endpointId) scope row = true ↔
      period.contains row.day = true ∧ row.endpointId = endpointId ∧
        row.subject.type ∈ subjectTypes scope := by
  cases scope with
  | none => cases h : row.subject.type <;> simp [Ledger.inScope, subjectTypes]
  | some type => simp [Ledger.inScope, subjectTypes, and_assoc]

/-- The rows of a subject are those in a scope of its type that carry its key. -/
theorem ofSubject_eq {scope : Option SubjectType} (hscope : key.type ∈ subjectTypes scope)
    (row : DailyRow) : Ledger.ofSubject period endpointId key row =
      (decide (row.subject = key) && ledger.inScope period (some endpointId) scope row) := by
  rw [Bool.eq_iff_iff, Bool.and_eq_true, decide_eq_true_iff, ofSubject_iff, inScope_iff]
  constructor
  · rintro ⟨hendpoint, hday, rfl⟩
    exact ⟨rfl, hday, hendpoint, hscope⟩
  · rintro ⟨rfl, hday, hendpoint, -⟩
    exact ⟨hendpoint, hday, rfl⟩

/-- Within its type a subject is told by its number. -/
theorem ofSubject_eq_id (row : DailyRow) : Ledger.ofSubject period endpointId key row =
    (decide (row.subject.id = key.id) &&
      ledger.inScope period (some endpointId) (some key.type) row) := by
  rw [Bool.eq_iff_iff, Bool.and_eq_true, decide_eq_true_iff, ofSubject_iff, inScope_iff]
  constructor
  · rintro ⟨hendpoint, hday, rfl⟩
    exact ⟨rfl, hday, hendpoint, List.mem_singleton_self _⟩
  · rintro ⟨hid, hday, hendpoint, htype⟩
    have hkey : row.subject = key := by
      cases hrow : row.subject with
      | mk type id =>
        rw [hrow] at hid htype
        cases hid
        cases List.mem_singleton.mp htype
        rfl
    exact ⟨hendpoint, hday, hkey⟩

theorem usageIn_filter_id : (ledger.usageIn period (some endpointId) (some key.type)).filter
    (fun row => row.subject.id = key.id) = ledger.usedBy period endpointId key := by
  rw [Ledger.usageIn, List.filter_filter, Ledger.usedBy]
  exact List.filter_congr fun row _ => (ofSubject_eq_id row.toDailyRow).symm

theorem storageIn_filter_id : (ledger.storageIn period (some endpointId) (some key.type)).filter
    (fun row => row.subject.id = key.id) = ledger.storedBy period endpointId key := by
  rw [Ledger.storageIn, List.filter_filter, Ledger.storedBy]
  exact List.filter_congr fun row _ => (ofSubject_eq_id row.toDailyRow).symm

/-- A subject has one storage row a day. -/
theorem days_nodup : ((ledger.storedBy period endpointId key).map fun row => row.day).Nodup := by
  have hrows : ((ledger.storedBy period endpointId key).map CostStorageDaily.toDailyRow).Nodup :=
    ledger.storage_nodup.sublist (List.filter_sublist.map _)
  have hdays : ((ledger.storedBy period endpointId key).map fun row => row.day) =
      ((ledger.storedBy period endpointId key).map CostStorageDaily.toDailyRow).map DailyRow.day := by
    rw [List.map_map]
    rfl
  rw [hdays]
  refine hrows.map_on fun row hrow row' hrow' hday => ?_
  obtain ⟨stored, hstored, rfl⟩ := List.mem_map.mp hrow
  obtain ⟨stored', hstored', rfl⟩ := List.mem_map.mp hrow'
  obtain ⟨hendpoint, -, hsubject⟩ := ofSubject_iff.mp (List.mem_filter.mp hstored).2
  obtain ⟨hendpoint', -, hsubject'⟩ := ofSubject_iff.mp (List.mem_filter.mp hstored').2
  have hext : ∀ a b : DailyRow, a.day = b.day → a.endpointId = b.endpointId →
      a.subject = b.subject → a = b := by
    rintro ⟨⟩ ⟨⟩ rfl rfl rfl
    rfl
  exact hext _ _ hday (hendpoint.trans hendpoint'.symm) (hsubject.trans hsubject'.symm)

theorem length_days : ((ledger.storedBy period endpointId key).map fun row => row.day).dedup.length =
    (ledger.storedBy period endpointId key).length := by
  rw [days_nodup.dedup, List.length_map]

/-! ## The totals of a subject -/

/-- The totals agree in everything that is reported and charged. -/
structure SameFigures (a b : CostTotals) : Prop where
  bytesIn : a.bytesIn = b.bytesIn
  bytesOut : a.bytesOut = b.bytesOut
  opsTotal : a.opsTotal = b.opsTotal
  avgStorageBytes : a.avgStorageBytes = b.avgStorageBytes
  avgStorageGbMonth : a.avgStorageGbMonth = b.avgStorageGbMonth
  totalObjects : a.totalObjects = b.totalObjects

namespace SameFigures

variable {a b c : CostTotals}

theorem symm (h : SameFigures a b) : SameFigures b a :=
  ⟨h.bytesIn.symm, h.bytesOut.symm, h.opsTotal.symm, h.avgStorageBytes.symm,
    h.avgStorageGbMonth.symm, h.totalObjects.symm⟩

theorem trans (h : SameFigures a b) (h' : SameFigures b c) : SameFigures a c :=
  ⟨h.bytesIn.trans h'.bytesIn, h.bytesOut.trans h'.bytesOut, h.opsTotal.trans h'.opsTotal,
    h.avgStorageBytes.trans h'.avgStorageBytes, h.avgStorageGbMonth.trans h'.avgStorageGbMonth,
    h.totalObjects.trans h'.totalObjects⟩

theorem computeCost_eq (h : SameFigures a b) (model : Option EffectiveCostModel) :
    computeCost model a = computeCost model b := by
  unfold computeCost
  rw [h.bytesIn, h.bytesOut, h.opsTotal, h.avgStorageGbMonth]

theorem buildStorageTotals_eq (h : SameFigures a b) :
    buildStorageTotals a = buildStorageTotals b := by
  unfold buildStorageTotals
  rw [h.avgStorageBytes, h.avgStorageGbMonth, h.totalObjects]

end SameFigures

/-- The totals from which the list reports a subject. -/
def listedTotals (ledger : Ledger) (period : CostPeriod) (endpointId : ℕ) (key : SubjectKey) :
    CostTotals :=
  let usage := ((ledger.usageTotalsBySubject period endpointId key.type).lookup key.id).getD (0, 0, 0)
  let storage := ((ledger.storageTotalsBySubject period endpointId key.type).lookup key.id).getD
    (none, none, 0)
  { bytesIn := usage.1
    bytesOut := usage.2.1
    opsTotal := usage.2.2
    opsBreakdown := none
    avgStorageBytes := storage.1
    avgStorageGbMonth := storage.1.map bytesToGb
    totalObjects := storage.2.1
    daysWithData := storage.2.2 }

/-- The totals from which the detail and the history report a subject. -/
def detailTotals (ledger : Ledger) (period : CostPeriod) (endpointId : ℕ) (key : SubjectKey) :
    CostTotals :=
  subjectTotalsFromRows (ledger.usageRowsForSubject period endpointId key)
    (ledger.storageRowsForSubject period endpointId key)

/-- The order in which the rows are read does not matter. -/
theorem subjectTotalsFromRows_perm {usage usage' : List CostUsageDaily}
    {storage storage' : List CostStorageDaily} (husage : usage.Perm usage')
    (hstorage : storage.Perm storage') :
    SameFigures (subjectTotalsFromRows usage storage) (subjectTotalsFromRows usage' storage') := by
  have havg : average (storage.map CostStorageDaily.totalBytes).sum storage.length =
      average (storage'.map CostStorageDaily.totalBytes).sum storage'.length := by
    rw [(hstorage.map _).sum_eq, hstorage.length_eq]
  refine ⟨(husage.map _).sum_eq, (husage.map _).sum_eq, (husage.map _).sum_eq, havg,
    congrArg (Option.map bytesToGb) havg, ?_⟩
  have hobjects : (storage.map CostStorageDaily.totalObjects).sum =
      (storage'.map CostStorageDaily.totalObjects).sum := (hstorage.map _).sum_eq
  have hnil : storage = [] ↔ storage' = [] :=
    ⟨fun h => (h ▸ hstorage).symm.eq_nil, fun h => (h ▸ hstorage).eq_nil⟩
  simp only [subjectTotalsFromRows, hobjects, hnil]

theorem detailTotals_figures : SameFigures (detailTotals ledger period endpointId key)
    (subjectTotalsFromRows (ledger.usedBy period endpointId key)
      (ledger.storedBy period endpointId key)) :=
  subjectTotalsFromRows_perm (sortedBy_perm ..) (sortedBy_perm ..)

theorem usageTotals_lookup :
    ((ledger.usageTotalsBySubject period endpointId key.type).lookup key.id).getD (0, 0, 0) =
      (((ledger.usedBy period endpointId key).map CostUsageDaily.bytesIn).sum,
        ((ledger.usedBy period endpointId key).map CostUsageDaily.bytesOut).sum,
        ((ledger.usedBy period endpointId key).map CostUsageDaily.opsTotal).sum) := by
  rw [Ledger.usageTotalsBySubject, lookup_groupsOf, usageIn_filter_id]
  by_cases h : ledger.usedBy period endpointId key = []
  · simp [h]
  · simp [h]

theorem storageTotals_lookup :
    ((ledger.storageTotalsBySubject period endpointId key.type).lookup key.id).getD
        (none, none, 0) =
      (average ((ledger.storedBy period endpointId key).map CostStorageDaily.totalBytes).sum
          (ledger.storedBy period endpointId key).length,
        (if ledger.storedBy period endpointId key = [] then none else
          some ((ledger.storedBy period endpointId key).map CostStorageDaily.totalObjects).sum),
        (ledger.storedBy period endpointId key).length) := by
  rw [Ledger.storageTotalsBySubject, lookup_groupsOf, storageIn_filter_id]
  by_cases h : ledger.storedBy period endpointId key = []
  · simp [h, average]
  · rw [if_neg h, if_neg h, Option.getD_some, length_days]

theorem listedTotals_figures : SameFigures (listedTotals ledger period endpointId key)
    (subjectTotalsFromRows (ledger.usedBy period endpointId key)
      (ledger.storedBy period endpointId key)) := by
  unfold listedTotals
  rw [usageTotals_lookup, storageTotals_lookup]
  exact ⟨rfl, rfl, rfl, rfl, rfl, rfl⟩

/-- The list and the detail add up a subject to the same figures. -/
theorem listed_sameFigures_detail : SameFigures (listedTotals ledger period endpointId key)
    (detailTotals ledger period endpointId key) :=
  listedTotals_figures.trans detailTotals_figures.symm

/-! ## The views -/

/-- A line of the list reports what the detail does; it has no breakdown of the operations. -/
structure CostSubjectSummary.Reports (item : CostSubjectSummary) (detail : CostSubjectDetail) :
    Prop where
  endpoint : item.storageEndpointId = detail.storageEndpointId
  subject : item.subject = detail.subject
  name : item.name = detail.name ∧ item.rgwIdentifier = detail.rgwIdentifier
  usage : item.usage = { detail.usage with opsBreakdown := none }
  storage : item.storage = detail.storage
  cost : item.cost = detail.cost

/-- A line of the export reports, in its units, what the detail does. -/
structure CsvRow.Reports (row : CsvRow) (detail : CostSubjectDetail) : Prop where
  endpoint : row.storageEndpointId = detail.storageEndpointId
  subject : row.subject = detail.subject
  name : row.name = detail.name ∧ row.rgwIdentifier = detail.rgwIdentifier
  usage : row.ingressGb = bytesToGb detail.usage.bytesIn ∧
    row.egressGb = bytesToGb detail.usage.bytesOut ∧
    row.requestsK = detail.usage.opsTotal / 1000
  storage : row.avgStorageGbMonth = detail.storage.avgGbMonth
  cost : row.totalCost = detail.cost.bind CostBreakdown.totalCost ∧
    row.currency = detail.cost.map CostBreakdown.currency

theorem CostSubjectSummary.Reports.csvRow {item : CostSubjectSummary} {detail : CostSubjectDetail}
    (h : item.Reports detail) : (csvRow item).Reports detail where
  endpoint := h.endpoint
  subject := h.subject
  name := h.name
  usage := by
    unfold Costs.csvRow
    rw [h.usage]
    exact ⟨rfl, rfl, rfl⟩
  storage := congrArg CostStorageTotals.avgGbMonth h.storage
  cost := by
    unfold Costs.csvRow CostSubjectSummary.total
    rw [h.cost]
    exact ⟨rfl, rfl⟩

/-- The list, the export, the detail and the last point of the history report the same of a subject,
whichever endpoints the list is asked for, and the list leaves no subject out. -/
structure SubjectViewsAgree (ledger : Ledger) (month : ℕ) (scope : Option SubjectType) : Prop where
  listed : ∀ filter, ∀ item ∈ allSubjectSummaries ledger (parseCostMonth month) filter scope,
    ∃ detail, subjectDetail ledger month item.storageEndpointId item.subject = some detail ∧
      item.Reports detail
  paged : ∀ casefold filter page pageSize sortBy descending search,
    ∀ item ∈ (listSubjects casefold ledger month filter scope page pageSize sortBy descending
      search).items, item ∈ allSubjectSummaries ledger (parseCostMonth month) filter scope
  exported : ∀ filter, ∀ row ∈ exportCsv ledger month filter scope,
    ∃ detail, subjectDetail ledger month row.storageEndpointId row.subject = some detail ∧
      row.Reports detail
  complete : ∀ filter, ∀ endpoint ∈ ledger.cephEndpoints filter, ∀ key detail,
    subjectDetail ledger month endpoint.id key = some detail → key.type ∈ subjectTypes scope →
      ∃ item ∈ allSubjectSummaries ledger (parseCostMonth month) filter scope, item.Reports detail
  history : ∀ endpointId key detail months, subjectDetail ledger month endpointId key = some detail →
    1 ≤ months → ∃ point, (subjectHistory ledger month endpointId key months).getLast? = some point ∧
      point.month = detail.month ∧ point.coverage = detail.coverage ∧ point.cost = detail.cost

theorem mem_loadSubjects {type : SubjectType} {subject : Subject} :
    subject ∈ ledger.loadSubjects endpointId type ↔
      subject ∈ ledger.subjects ∧ subject.endpointId = endpointId ∧ subject.key.type = type := by
  simp [Ledger.loadSubjects]

/-- The items of the list are the subjects of its endpoints. -/
theorem mem_allSubjectSummaries {filter : Option ℕ} {scope : Option SubjectType}
    {item : CostSubjectSummary} : item ∈ allSubjectSummaries ledger period filter scope ↔
      ∃ endpoint ∈ ledger.cephEndpoints filter, ∃ subject ∈ ledger.subjects,
        subject.endpointId = endpoint.id ∧ subject.key.type ∈ subjectTypes scope ∧
          subjectSummary ledger period endpoint subject = item := by
  simp only [allSubjectSummaries, subjectSummaries, List.mem_flatMap, List.mem_map,
    mem_loadSubjects]
  constructor
  · rintro ⟨endpoint, hendpoint, type, htype, subject, ⟨hsubject, hat, rfl⟩, rfl⟩
    exact ⟨endpoint, hendpoint, subject, hsubject, hat, htype, rfl⟩
  · rintro ⟨endpoint, hendpoint, subject, hsubject, hat, htype, rfl⟩
    exact ⟨endpoint, hendpoint, _, htype, subject, ⟨hsubject, hat, rfl⟩, rfl⟩

/-- What the detail says of a subject. -/
def detailOf (ledger : Ledger) (month endpointId : ℕ) (subject : Subject) : CostSubjectDetail :=
  let period := parseCostMonth month
  let usage := ledger.usageRowsForSubject period endpointId subject.key
  let storage := ledger.storageRowsForSubject period endpointId subject.key
  let totals := detailTotals ledger period endpointId subject.key
  { month := period.month
    storageEndpointId := endpointId
    subject := subject.key
    name := subject.name
    rgwIdentifier := subject.rgwUserUid
    daily := subjectDailySeries usage storage
    usage := buildUsageTotals totals
    storage := buildStorageTotals totals
    coverage := coverageForPeriod period totals
    cost := computeCost (ledger.resolveModel (some endpointId)) totals }

/-- A subject has a detail at its endpoint and at no other. -/
theorem subjectDetail_eq_some {month : ℕ} {detail : CostSubjectDetail} :
    subjectDetail ledger month endpointId key = some detail ↔
      ∃ subject ∈ ledger.subjects, subject.key = key ∧ subject.endpointId = endpointId ∧
        detailOf ledger month endpointId subject = detail := by
  unfold subjectDetail
  rw [Option.map_eq_some_iff]
  constructor
  · rintro ⟨subject, hfind, rfl⟩
    have hprop := List.find?_some hfind
    simp only [Bool.and_eq_true, decide_eq_true_eq] at hprop
    obtain ⟨rfl, hat⟩ := hprop
    exact ⟨subject, List.mem_of_find?_eq_some hfind, rfl, hat, rfl⟩
  · rintro ⟨subject, hmem, rfl, rfl, rfl⟩
    cases hfind : ledger.subjects.find? fun other =>
        other.key = subject.key && other.endpointId = subject.endpointId with
    | none => exact absurd (List.find?_eq_none.mp hfind subject hmem) (by simp)
    | some found =>
      have hprop := List.find?_some hfind
      simp only [Bool.and_eq_true, decide_eq_true_eq] at hprop
      have heq : found = subject := List.inj_on_of_nodup_map ledger.subjects_nodup
        (List.mem_of_find?_eq_some hfind) hmem hprop.1
      exact ⟨found, rfl, by rw [heq]; rfl⟩

theorem summary_reports (month : ℕ) (endpoint : StorageEndpoint) (subject : Subject) :
    (subjectSummary ledger (parseCostMonth month) endpoint subject).Reports
      (detailOf ledger month endpoint.id subject) := by
  have hfigures : SameFigures
      (listedTotals ledger (parseCostMonth month) endpoint.id subject.key)
      (detailTotals ledger (parseCostMonth month) endpoint.id subject.key) :=
    listed_sameFigures_detail
  refine ⟨rfl, rfl, ⟨rfl, rfl⟩, ?_, hfigures.buildStorageTotals_eq, hfigures.computeCost_eq _⟩
  change buildUsageTotals (listedTotals ledger (parseCostMonth month) endpoint.id subject.key) = _
  unfold buildUsageTotals
  rw [hfigures.bytesIn, hfigures.bytesOut, hfigures.opsTotal]
  rfl

theorem exists_detail {month : ℕ} {filter : Option ℕ} {scope : Option SubjectType}
    {item : CostSubjectSummary}
    (h : item ∈ allSubjectSummaries ledger (parseCostMonth month) filter scope) :
    ∃ detail, subjectDetail ledger month item.storageEndpointId item.subject = some detail ∧
      item.Reports detail := by
  obtain ⟨endpoint, -, subject, hsubject, hat, -, rfl⟩ := mem_allSubjectSummaries.mp h
  exact ⟨_, subjectDetail_eq_some.mpr ⟨subject, hsubject, rfl, hat, rfl⟩,
    summary_reports month endpoint subject⟩

theorem getLast?_historyPeriods {months : ℕ} (h : 1 ≤ months) (month : ℕ) :
    (historyPeriods (parseCostMonth month) months).getLast? = some (parseCostMonth month) := by
  have hmonth : month + 1 + (months - 1) - months = month := by omega
  unfold historyPeriods
  rw [List.getLast?_map, List.getLast?_range, if_neg (by omega), Option.map_some]
  change some (parseCostMonth (month + 1 + (months - 1) - months)) = _
  rw [hmonth]

/-- Nothing is assumed of the days on which the subjects have rows. -/
theorem subjectViewsAgree (ledger : Ledger) (month : ℕ) (scope : Option SubjectType) :
    SubjectViewsAgree ledger month scope where
  listed _ _ hitem := exists_detail hitem
  paged casefold filter page pageSize sortBy descending search item hitem := by
    have hfound := List.mem_of_mem_drop (List.mem_of_mem_take hitem)
    split_ifs at hfound with hdescending
    · exact (List.mem_filter.mp (mem_sortedBy.mp hfound)).1
    · exact (List.mem_filter.mp (mem_sortedBy.mp hfound)).1
  exported filter row hrow := by
    obtain ⟨item, hitem, rfl⟩ := List.mem_map.mp hrow
    obtain ⟨detail, hdetail, hreports⟩ := exists_detail hitem
    exact ⟨detail, hdetail, hreports.csvRow⟩
  complete filter endpoint hendpoint key detail hdetail htype := by
    obtain ⟨subject, hsubject, rfl, hat, rfl⟩ := subjectDetail_eq_some.mp hdetail
    exact ⟨_, mem_allSubjectSummaries.mpr ⟨endpoint, hendpoint, subject, hsubject, hat, htype, rfl⟩,
      summary_reports month endpoint subject⟩
  history endpointId key detail months hdetail hmonths := by
    obtain ⟨subject, -, rfl, -, rfl⟩ := subjectDetail_eq_some.mp hdetail
    unfold subjectHistory
    rw [List.getLast?_map, getLast?_historyPeriods hmonths, Option.map_some]
    exact ⟨_, rfl, rfl, rfl, rfl⟩

end Costs
end BucketReef

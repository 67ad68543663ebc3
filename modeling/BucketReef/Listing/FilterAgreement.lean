import BucketReef.Listing.PlainFilter

/-!
# The optimised filter and the plain one

They keep the same buckets but for two kinds: buckets whose name is spelled otherwise than an exact
rule has it, and buckets whose parameters cannot be read.
-/

namespace BucketReef.CephAdmin

/-! ## The whole filter -/

section Filter

variable {Usage : Type} (listing : Listing Usage) (request : CephAdminBucketListingRequest)
  {query : BucketFilterQuery} (usage : Option Usage)

/-- Candidates that are filtered after their enrichment could have been filtered before it. -/
theorem map_listed_filter {f : Bucket → Bucket} (hf : ∀ bucket, (f bucket).listed = bucket.listed)
    (p : Bucket → Bool) (buckets : List Bucket) :
    ((buckets.map f).filter p).map BucketListingSummary.listed =
      (buckets.filter fun bucket => p (f bucket)).map BucketListingSummary.listed := by
  rw [List.filter_map, List.map_map]
  exact List.map_congr_left fun bucket _ => hf bucket

/-- What is decided early and what is decided late make up what is decided. -/
theorem filter_or_perm {α : Type} (early late : α → Bool) (l : List α) :
    (l.filter early ++ (l.filter fun a => !early a).filter late).Perm
      (l.filter fun a => early a || late a) := by
  have hsplit := List.filter_append_perm early (l.filter fun a => early a || late a)
  refine List.Perm.trans (List.Perm.of_eq ?_) hsplit
  rw [List.filter_filter, List.filter_filter, List.filter_filter]
  congr 1
  · refine List.filter_congr fun a _ => ?_
    cases early a <;> rfl
  · refine List.filter_congr fun a _ => ?_
    cases early a <;> cases late a <;> rfl

/-- A query without expensive rules has no rules but the cheap ones. -/
theorem candidateMatches_of_not_expensive {plan : CephAdminAdvancedFilterPlan}
    (h : plan.hasExpensiveRules = false) (enriched : Bucket) :
    candidateMatches listing plan enriched = decide (plan.query.matching = .all) := by
  simp only [CephAdminAdvancedFilterPlan.hasExpensiveRules, Bool.not_eq_false',
    Bool.and_eq_true, List.isEmpty_iff] at h
  obtain ⟨⟨hexpensive, hstate⟩, hparam⟩ := h
  rw [candidateMatches, hparam, List.isEmpty_nil, if_pos rfl, matchesNonparamCandidate, hexpensive,
    hstate]
  split <;> simp [*]

theorem cheap_of_not_expensive (hvalid : ∀ rule ∈ query.rules, rule.valid = true)
    (h : (CephAdminAdvancedFilterPlan.fromQuery query).hasExpensiveRules = false)
    (hrules : query.rules ≠ []) :
    (CephAdminAdvancedFilterPlan.fromQuery query).featureParamRules.isEmpty = true ∧
      (CephAdminAdvancedFilterPlan.fromQuery query).cheapFieldRules.isEmpty = false := by
  simp only [CephAdminAdvancedFilterPlan.hasExpensiveRules, Bool.not_eq_false',
    Bool.and_eq_true, List.isEmpty_iff] at h
  obtain ⟨⟨hexpensive, hstate⟩, hparam⟩ := h
  refine ⟨List.isEmpty_iff.mpr hparam, ?_⟩
  obtain ⟨rule, hin⟩ := List.exists_mem_of_ne_nil _ hrules
  have hnot_param : ¬ rule ∈ (CephAdminAdvancedFilterPlan.fromQuery query).featureParamRules := by
    simp [hparam]
  have hsingle : rule ∈ singleRules query := by
    refine List.mem_filter.mpr ⟨hin, ?_⟩
    have hrule := hvalid rule hin
    unfold BucketFilterRule.valid at hrule
    cases hp : rule.param with
    | none => rfl
    | some param =>
      refine absurd (List.mem_filter.mpr ⟨hin, ?_⟩) hnot_param
      cases hfield : rule.field <;> cases hfeature : rule.feature <;> simp_all
  rcases (mem_singleRules hvalid).mp hsingle with hfield | hin
  · rcases mem_fieldRules.mp hfield with hcheap | hin
    · exact List.isEmpty_eq_false_iff_exists_mem.mpr ⟨rule, hcheap⟩
    · rw [hexpensive] at hin
      cases hin
  · rw [hstate] at hin
    cases hin

/-- The cheap filter keeps every bucket when its rules are not decisive. -/
theorem applyCheapFieldRules_eq (plan : CephAdminAdvancedFilterPlan) (buckets : List Bucket) :
    applyCheapFieldRules listing.helpers plan buckets =
      if plan.query.matching = .all then
        buckets.filter fun bucket =>
          plan.cheapFieldRules.all (listing.helpers.matchBucketFieldRule bucket)
      else if plan.hasExpensiveRules || plan.cheapFieldRules.isEmpty then buckets
      else buckets.filter fun bucket =>
        plan.cheapFieldRules.any (listing.helpers.matchBucketFieldRule bucket) := by
  unfold applyCheapFieldRules
  cases hcheap : plan.cheapFieldRules with
  | nil => simp
  | cons rule rules => simp [hcheap]

/-- The builder's split: what cheap rules of `any` decide, and the rest. -/
theorem applyExpensiveRules_eq (plan : CephAdminAdvancedFilterPlan) (buckets : List Bucket) :
    applyExpensiveRules listing.lib.fold listing.helpers listing.rgw request plan usage buckets =
      if plan.featureParamRules.isEmpty && decide (plan.query.matching = .any) then
        buckets.filter (fun bucket =>
            plan.cheapFieldRules.any (listing.helpers.matchBucketFieldRule bucket)) ++
          ((buckets.filter fun bucket =>
            !plan.cheapFieldRules.any (listing.helpers.matchBucketFieldRule bucket)).map
              (fullyEnriched listing request plan usage)).filter (candidateMatches listing plan)
      else (buckets.map (fullyEnriched listing request plan usage)).filter
        (candidateMatches listing plan) := by
  have hcandidate (enriched : List Bucket) : enriched.filter (candidateMatches listing plan) =
      if plan.featureParamRules.isEmpty then
        enriched.filter (matchesNonparamCandidate listing.helpers plan)
      else enriched.filter (matchesFeatureParamCandidate listing.helpers listing.rgw plan) := by
    unfold candidateMatches
    cases plan.featureParamRules.isEmpty <;> rfl
  unfold applyExpensiveRules
  simp only [enrichExpensiveCandidates_eq, hcandidate]
  cases hparams : plan.featureParamRules.isEmpty with
  | false => simp
  | true =>
    cases hcheap : plan.cheapFieldRules with
    | nil => simp
    | cons rule rules => by_cases hany : plan.query.matching = .any <;> simp [hany]

/-- The expensive rules, after the cheap ones. -/
theorem applyExpensiveRules_perm (hexpensive :
      (CephAdminAdvancedFilterPlan.fromQuery query).hasExpensiveRules = true)
    (buckets : List Bucket) :
    ((applyExpensiveRules listing.lib.fold listing.helpers listing.rgw request
        (CephAdminAdvancedFilterPlan.fromQuery query) usage
        (applyCheapFieldRules listing.helpers (CephAdminAdvancedFilterPlan.fromQuery query)
          buckets)).map BucketListingSummary.listed).Perm
      ((buckets.filter fun bucket => kept listing request usage bucket query).map
        BucketListingSummary.listed) := by
  have hlisted := fullyEnriched_listed listing request
    (CephAdminAdvancedFilterPlan.fromQuery query) usage
  have hplan : (CephAdminAdvancedFilterPlan.fromQuery query).query.matching = query.matching := rfl
  rw [applyExpensiveRules_eq, applyCheapFieldRules_eq, hplan, hexpensive, Bool.true_or, if_pos rfl]
  unfold kept
  cases hmatching : query.matching with
  | all =>
    simp only [reduceCtorEq, decide_false, Bool.and_false, Bool.false_eq_true, if_false, if_true]
    rw [map_listed_filter hlisted, List.filter_filter]
    refine List.Perm.of_eq (congrArg _ (List.filter_congr fun bucket _ => ?_))
    exact Bool.and_comm _ _
  | any =>
    simp only [reduceCtorEq, decide_true, Bool.and_true, if_false]
    cases (CephAdminAdvancedFilterPlan.fromQuery query).featureParamRules.isEmpty with
    | false =>
      simp only [Bool.false_eq_true, if_false, Bool.false_and, Bool.false_or]
      rw [map_listed_filter hlisted]
    | true =>
      simp only [if_true, Bool.true_and]
      rw [List.map_append, map_listed_filter hlisted, ← List.map_append]
      exact (filter_or_perm _ _ _).map _

/-- The advanced filter keeps the buckets that the plain one keeps and whose parameters can be read. -/
theorem applyAdvancedFilter_perm (hvalid : ∀ query, request.advancedFilter = some query →
      ∀ rule ∈ query.rules, rule.valid = true) (buckets : List Bucket) :
    ((applyAdvancedFilter listing.lib.fold listing.helpers listing.rgw request usage buckets).map
        BucketListingSummary.listed).Perm
      (((plainRows listing request usage buckets).filter (paramsReadable listing request)).map
        BucketListingSummary.listed) := by
  cases hquery : request.advancedFilter with
  | none =>
    have hall (bucket : Bucket) : paramsReadable listing request bucket = true := by
      rw [paramsReadable, hquery]
      rfl
    simp [applyAdvancedFilter, plainRows, hquery, List.filter_eq_self.mpr fun bucket _ => hall bucket]
  | some query =>
    cases hrules : query.rules with
    | nil =>
      have hall (bucket : Bucket) : paramsReadable listing request bucket = true := by
        rw [paramsReadable, hquery]
        simp [CephAdminAdvancedFilterPlan.fromQuery, hrules]
      simp [applyAdvancedFilter, plainRows, hquery, hrules,
        List.filter_eq_self.mpr fun bucket _ => hall bucket]
    | cons first rest =>
      have hkept (bucket : Bucket) : (plainMatch listing request query usage bucket &&
          paramsReadable listing request bucket) = kept listing request usage bucket query := by
        rw [Bool.eq_iff_iff, Bool.and_eq_true, kept_iff listing request usage bucket (hvalid query hquery)]
        simp [paramsReadable, planReadable, hquery]
      have hplain : (plainRows listing request usage buckets).filter (paramsReadable listing request) =
          buckets.filter fun bucket => kept listing request usage bucket query := by
        simp only [plainRows, hquery, hrules, List.isEmpty_cons, Bool.false_eq_true, if_false]
        rw [List.filter_filter]
        refine List.filter_congr fun bucket _ => ?_
        rw [← hkept, Bool.and_comm]
      rw [hplain]
      simp only [applyAdvancedFilter, hquery, hrules, List.isEmpty_cons, Bool.false_eq_true, if_false]
      cases hexpensive : (CephAdminAdvancedFilterPlan.fromQuery query).hasExpensiveRules with
      | true =>
        rw [if_pos rfl, List.map_map]
        exact applyExpensiveRules_perm listing request usage hexpensive buckets
      | false =>
        rw [if_neg Bool.false_ne_true]
        refine List.Perm.of_eq (congrArg _ ?_)
        have hplan : (CephAdminAdvancedFilterPlan.fromQuery query).query.matching =
            query.matching := rfl
        obtain ⟨hparams, hcheap⟩ := cheap_of_not_expensive (hvalid query hquery) hexpensive
          (List.ne_nil_of_mem (hrules ▸ List.mem_cons_self : first ∈ query.rules))
        rw [applyCheapFieldRules_eq, hexpensive, Bool.false_or, hplan, hcheap]
        unfold kept
        simp only [candidateMatches_of_not_expensive listing hexpensive, hplan, hparams]
        cases query.matching <;> simp

end Filter

/-! ## The snapshot -/

section Snapshot

variable {Usage : Type} (listing : Listing Usage) (request : CephAdminBucketListingRequest)

/-- Only the usage of the owners depends on the usage computed from the listing. -/
theorem fullyEnriched_usage {plan : CephAdminAdvancedFilterPlan}
    (h : "usage" ∉ plan.ownerAttributes) (usage usage' : Option Usage) :
    fullyEnriched listing request plan usage = fullyEnriched listing request plan usage' := by
  have hdetails : listing.attributes.ownerDetails plan.ownerAttributes usage =
      listing.attributes.ownerDetails plan.ownerAttributes usage' := by
    funext bucket
    rw [OwnerAttributes.ownerDetails, OwnerAttributes.ownerDetails, if_neg h, if_neg h]
  have howners : listing.rgw.applyOwnerEnrichment plan.ownerAttributes usage =
      listing.rgw.applyOwnerEnrichment plan.ownerAttributes usage' := by
    show (fun buckets : List Bucket => buckets.map fun bucket =>
      { bucket with ownerDetails :=
          listing.attributes.ownerDetails plan.ownerAttributes usage bucket }) = _
    rw [hdetails]
    rfl
  funext bucket
  rw [fullyEnriched, fullyEnriched, enrichExpensiveCandidates, enrichExpensiveCandidates, howners]

theorem usage_not_looked_up {query : BucketFilterQuery}
    (h : filterRequiresOwnerUsage (some query) = false) :
    "usage" ∉ (CephAdminAdvancedFilterPlan.fromQuery query).ownerAttributes := by
  have hlooks : (CephAdminAdvancedFilterPlan.fromQuery query).looksUp
      (ownerUsageFields ++ ownerUsagePercentFields) = false := by
    rw [CephAdminAdvancedFilterPlan.looksUp, List.any_eq_false]
    intro rule hrule
    rw [filterRequiresOwnerUsage, Option.any_some, List.any_eq_false] at h
    exact h rule (List.mem_of_mem_filter (List.mem_of_mem_filter hrule))
  unfold CephAdminAdvancedFilterPlan.ownerAttributes
  rw [hlooks]
  split <;> split <;> decide

/-- Where the filter does not ask for the usage of owners, the rows do not depend on it. -/
theorem plainRows_usage (h : filterRequiresOwnerUsage request.advancedFilter = false)
    (usage usage' : Option Usage) (buckets : List Bucket) :
    plainRows listing request usage buckets = plainRows listing request usage' buckets := by
  unfold plainRows
  cases hquery : request.advancedFilter with
  | none => rfl
  | some query =>
    rw [hquery] at h
    have hmatch : plainMatch listing request query usage = plainMatch listing request query usage' := by
      funext bucket
      simp only [plainMatch, fullyEnriched_usage listing request (usage_not_looked_up h) usage usage']
    simp only [hmatch]

theorem plainRows_filter (usage : Option Usage) (p : Bucket → Bool) (buckets : List Bucket) :
    plainRows listing request usage (buckets.filter p) =
      (plainRows listing request usage buckets).filter p := by
  unfold plainRows
  cases request.advancedFilter with
  | none => rfl
  | some query =>
    simp only
    split
    · rfl
    · rw [List.filter_comm]

/-- The rows that are filtered, from the entries that are loaded. -/
def listedRows (loaded : LoadedBucketEntries BucketDetails) : List Bucket :=
  backfillOwnerMetadata listing.helpers listing.rgw request (buildSummaries loaded)

/-- The entries whose names are among the candidates. -/
def narrowed (names : List String) (loaded : LoadedBucketEntries BucketDetails) :
    LoadedBucketEntries BucketDetails :=
  { loaded with entries := loaded.entries.filter fun bucket => bucket.name ∈ names }

theorem filter_map_name {g : Bucket → Bucket} (hg : ∀ bucket, (g bucket).name = bucket.name)
    (names : List String) (buckets : List Bucket) :
    (buckets.filter fun bucket => bucket.name ∈ names).map g =
      (buckets.map g).filter fun bucket => bucket.name ∈ names := by
  rw [List.filter_map]
  refine congrArg _ (List.filter_congr fun bucket _ => ?_)
  rw [Function.comp_apply, hg]

/-- Narrowing by name before the owners are filled in is narrowing after it. -/
theorem listedRows_narrowed (names : List String) (loaded : LoadedBucketEntries BucketDetails) :
    listedRows listing request (narrowed names loaded) =
      (listedRows listing request loaded).filter fun bucket => bucket.name ∈ names := by
  have hsummaries : buildSummaries (narrowed names loaded) =
      (buildSummaries loaded).filter fun bucket => bucket.name ∈ names := by
    unfold buildSummaries narrowed
    simp only
    split
    · rfl
    · exact filter_map_name (by exact fun _ => rfl) names loaded.entries
  rw [listedRows, listedRows, hsummaries, backfillOwnerMetadata, backfillOwnerMetadata]
  split
  · rfl
  · refine filter_map_name (fun bucket => ?_) names _
    split
    · split <;> rfl
    · rfl

/-- Loading the candidates alone leaves what loading everything leaves of them. -/
theorem loadEntries_narrowed {loaded : LoadedBucketEntries BucketDetails}
    (h : loadEntries { listing.helpers with extractNameCandidates := fun _ => none } listing.rgw
      request = .ok loaded) {names : List String}
    (hnames : nameCandidates listing request = some names) :
    ∃ found, loadEntries listing.helpers listing.rgw request = .ok found ∧
      listedRows listing request found = listedRows listing request (narrowed names loaded) := by
  have hcandidates : (if request.ownerUsageRequired then none
      else listing.helpers.extractNameCandidates request.advancedFilter) = some names := hnames
  unfold loadEntries at h ⊢
  simp only [ite_self] at h
  rw [hcandidates]
  cases names with
  | nil =>
    refine ⟨⟨[], request.withStats, true⟩, rfl, ?_⟩
    have hempty : (narrowed [] loaded).entries = [] := by simp [narrowed]
    simp [listedRows, buildSummaries, hempty, backfillOwnerMetadata, backfillBucketOwnerMetadata]
  | cons name names =>
    simp only [fetchEntries] at h ⊢
    cases hfirst : listing.rgw.allBuckets request.withStats with
    | ok entries =>
      rw [hfirst] at h
      cases h
      exact ⟨_, rfl, rfl⟩
    | error error =>
      rw [hfirst] at h
      simp only [Except.map] at h ⊢
      split_ifs at h with hfatal hrequired
      rw [if_neg hfatal, if_neg hrequired]
      cases hsecond : listing.rgw.allBuckets false with
      | error error =>
        rw [hsecond] at h
        cases h
      | ok entries =>
        rw [hsecond] at h
        cases h
        exact ⟨_, rfl, rfl⟩

theorem loadEntries_all (hnames : nameCandidates listing request = none) :
    loadEntries listing.helpers listing.rgw request =
      loadEntries { listing.helpers with extractNameCandidates := fun _ => none } listing.rgw
        request := by
  have hcandidates : (if request.ownerUsageRequired then none
      else listing.helpers.extractNameCandidates request.advancedFilter) = none := hnames
  unfold loadEntries
  simp only [hcandidates, ite_self]

/-- The usage that is computed from the rows, where the sizes of the buckets are there. -/
def ownerUsage (loaded : LoadedBucketEntries BucketDetails) : Option Usage :=
  if loaded.effectiveWithStats && !(listedRows listing request loaded).isEmpty then
    some (listing.helpers.computeBucketOwnerUsage (listedRows listing request loaded))
  else none

theorem snapshot_of_load {loaded : LoadedBucketEntries BucketDetails}
    (h : loadEntries listing.helpers listing.rgw request = .ok loaded) :
    ∃ snapshot, listing.snapshot request = .ok snapshot ∧ snapshot.items.Perm
      (applyAdvancedFilter listing.lib.fold listing.helpers listing.rgw request
        (ownerUsage listing request loaded) (listedRows listing request loaded)) := by
  refine ⟨_, by rw [Listing.snapshot, build, h], ?_⟩
  show (sortResults listing.helpers request _).Perm _
  unfold sortResults
  split
  · exact Lists.sortedBy_perm _ _
  · exact Lists.sortedBy_perm _ _

end Snapshot

/-- The snapshot of a request holds the buckets that the plain filter keeps and that the builder
reaches, each as often as it is listed. So the two filters agree exactly when every bucket the plain one
keeps is among the candidates of the name and has its parameters readable. -/
theorem snapshot_agrees_iff {Usage : Type} (listing : Listing Usage) (parameters : ListingParameters)
    (hvalid : ∀ query, parameters.advancedFilter = some query →
      ∀ rule ∈ query.rules, rule.valid = true) {plain : List Bucket}
    (hplain : plainSnapshot listing (parameters.parse listing.lib.fold) = .ok plain) :
    ∃ snapshot, listing.snapshot (parameters.parse listing.lib.fold) = .ok snapshot ∧
      (snapshot.items.map BucketListingSummary.listed).Perm
        ((plain.filter (reached listing (parameters.parse listing.lib.fold))).map
          BucketListingSummary.listed) ∧
      ((snapshot.items.map BucketListingSummary.listed).Perm
          (plain.map BucketListingSummary.listed) ↔
        ∀ bucket ∈ plain, reached listing (parameters.parse listing.lib.fold) bucket = true) := by
  set request := parameters.parse listing.lib.fold with hrequest
  suffices hrows : ∃ snapshot, listing.snapshot request = .ok snapshot ∧
      (snapshot.items.map BucketListingSummary.listed).Perm
        ((plain.filter (reached listing request)).map BucketListingSummary.listed) by
    obtain ⟨snapshot, hsnapshot, hperm⟩ := hrows
    refine ⟨snapshot, hsnapshot, hperm, fun hagree => ?_, fun hreached => ?_⟩
    · have hlength := hperm.symm.trans hagree |>.length_eq
      rw [List.length_map, List.length_map] at hlength
      exact List.filter_eq_self.mp (List.filter_sublist.eq_of_length hlength)
    · rwa [List.filter_eq_self.mpr hreached] at hperm
  obtain ⟨loaded, hload, rfl⟩ : ∃ loaded, loadEntries
      { listing.helpers with extractNameCandidates := fun _ => none } listing.rgw request =
        .ok loaded ∧
      plainRows listing request (ownerUsage listing request loaded)
        (listedRows listing request loaded) = plain := by
    unfold plainSnapshot at hplain
    split at hplain
    · cases hplain
    · next loaded hload => exact ⟨loaded, hload, by injection hplain⟩
  cases hnames : nameCandidates listing request with
  | none =>
    have hfull := (loadEntries_all listing request hnames).trans hload
    obtain ⟨snapshot, hsnapshot, hitems⟩ := snapshot_of_load listing request hfull
    refine ⟨snapshot, hsnapshot, (hitems.map _).trans ?_⟩
    refine (applyAdvancedFilter_perm listing request _ hvalid _).trans (List.Perm.of_eq ?_)
    refine congrArg _ (List.filter_congr fun bucket _ => ?_)
    rw [reached, hnames, Option.all_none, Bool.true_and]
  | some names =>
    obtain ⟨found, hfound, hrows⟩ := loadEntries_narrowed listing request hload hnames
    obtain ⟨snapshot, hsnapshot, hitems⟩ := snapshot_of_load listing request hfound
    -- without candidates of the name the usage of the owners would be computed from all entries
    have husage : filterRequiresOwnerUsage request.advancedFilter = false := by
      cases hrequires : request.ownerUsageRequired with
      | true =>
        rw [nameCandidates, hrequires, if_pos rfl] at hnames
        cases hnames
      | false => exact (Bool.or_eq_false_iff.mp hrequires).2
    refine ⟨snapshot, hsnapshot, (hitems.map _).trans ?_⟩
    refine (applyAdvancedFilter_perm listing request _ hvalid _).trans (List.Perm.of_eq ?_)
    rw [hrows, listedRows_narrowed, plainRows_filter,
      plainRows_usage listing request husage _ (ownerUsage listing request loaded), List.filter_filter]
    refine congrArg _ (List.filter_congr fun bucket _ => ?_)
    rw [reached, hnames, Option.all_some, Bool.and_comm]

/-! ## A name in capitals

The rule asks for the name `Logs`, which matches the bucket `logs` but does not name it. -/

def logsRule : BucketFilterRule := ⟨some "name", some "eq", .text "Logs", none, none, none, none⟩

def logsParameters : ListingParameters where
  simpleFilter := none
  advancedFilter := some ⟨.all, [logsRule]⟩
  sortBy := "name"
  sortDir := "asc"
  includeSet := []
  withStats := false
  uiTagIds := []
  uiTagMatch := "any"
  withUiTags := false

def logsBucket : Bucket where
  name := "logs"
  tenant := none
  tenantMetadataResolved := false
  owner := some "ops"
  ownerName := none
  usedBytes := none
  objectCount := none
  quotaMaxSizeBytes := none
  quotaMaxObjects := none
  ownerDetails := []
  details := none

def logsLib : RuleLib where
  strip := id
  lower := fun text => if text = "Logs" then "logs" else text
  contains := fun _ _ => false
  startsWith := fun _ _ => false
  endsWith := fun _ _ => false
  orEmpty := fun _ => ""
  spelled := fun _ => ""
  otherItems := fun _ => none
  fold := id
  matchBooleanRule := fun _ _ => false
  matchNumericRule := fun _ _ => false

def logsListing : Listing Unit where
  lib := logsLib
  underscored := id
  matchTagRule := fun _ _ => false
  matchBucketFeatureParamRules := fun _ _ _ => false
  ownerKindFromOwner := fun _ => .user
  computeBucketOwnerUsage := fun _ => ()
  attributes := ⟨fun _ => [], fun _ => [], fun _ _ => []⟩
  params := fun _ _ => none
  allBuckets := fun _ => .ok [logsBucket]
  bucketInfo := fun _ => none
  ownerName := fun _ _ _ => none
  remote := fun _ => ⟨fun _ => none, fun _ => unavailableFeatureStatus, fun _ _ => "", []⟩

theorem snapshot_agrees_iff_logs :
    ∃ snapshot, logsListing.snapshot (logsParameters.parse logsLib.fold) = .ok snapshot ∧
      ¬ (snapshot.items.map BucketListingSummary.listed).Perm
        ([logsBucket].map BucketListingSummary.listed) := by
  have hplain : plainSnapshot logsListing (logsParameters.parse logsListing.lib.fold) =
      .ok [logsBucket] := rfl
  obtain ⟨snapshot, hsnapshot, -, hagree⟩ := snapshot_agrees_iff logsListing logsParameters
    (by rintro _ ⟨⟩ rule hrule; rw [List.mem_singleton.mp hrule]; rfl) hplain
  refine ⟨snapshot, hsnapshot, fun hperm => ?_⟩
  exact absurd (hagree.mp hperm logsBucket (List.mem_singleton.mpr rfl)) (by decide)

end BucketReef.CephAdmin

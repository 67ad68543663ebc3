import BucketReef.Listing.FilterRules
import BucketReef.Listing.SameBucket

/-!
# The plain filter

The builder narrows the entries by exact names, matches cheap rules before it looks anything up, and
splits what they have decided from what they have not. The plain filter enriches every bucket and
evaluates every rule on it. What the builder decides of one bucket is what the plain filter decides,
unless the parameters of the bucket cannot be read.
-/

namespace BucketReef.CephAdmin

/-- A rule is about a field, or about the state or a parameter of a feature. -/
def BucketFilterRule.valid (rule : BucketFilterRule) : Bool :=
  if rule.field.isSome then rule.feature.isNone && rule.state.isNone && rule.param.isNone
  else rule.feature.isSome && (rule.state.isSome != rule.param.isSome)

/-- The columns that RGW lists, without what filters and pages look up. -/
def BucketListingSummary.listed {Details : Type} (bucket : BucketListingSummary Details) :
    BucketListingSummary Details :=
  { bucket with ownerName := none, ownerDetails := [], details := none }

/-! ## The plain filter -/

section Plain

variable {Usage : Type} (listing : Listing Usage) (request : CephAdminBucketListingRequest)

/-- The bucket with all that the plan looks up. -/
def fullyEnriched (plan : CephAdminAdvancedFilterPlan) (usage : Option Usage) (bucket : Bucket) :
    Bucket :=
  (enrichExpensiveCandidates listing.lib.fold listing.helpers listing.rgw request plan usage
    [bucket]).headD bucket

def evaluates (bucket : Bucket) (rule : BucketFilterRule) : Bool :=
  if rule.field.isSome then listing.helpers.matchBucketFieldRule bucket rule
  else listing.helpers.matchBucketFeatureRule bucket rule

/-- The rules that are evaluated one by one. -/
def singleRules (query : BucketFilterQuery) : List BucketFilterRule :=
  query.rules.filter fun rule => rule.param.isNone

/-- Parameters that cannot be read match nothing. -/
def paramsMatch (plan : CephAdminAdvancedFilterPlan) (bucket : Bucket) : Bool :=
  (listing.rgw.featureParams plan.featureParamRules bucket).any
    (listing.helpers.matchBucketFeatureParamRules plan.featureParamRules plan.query.matching)

def plainMatch (query : BucketFilterQuery) (usage : Option Usage) (bucket : Bucket) : Bool :=
  let plan := CephAdminAdvancedFilterPlan.fromQuery query
  let bucket := fullyEnriched listing request plan usage bucket
  match query.matching with
  | .all => (singleRules query).all (evaluates listing bucket) &&
      (plan.featureParamRules.isEmpty || paramsMatch listing plan bucket)
  | .any => (singleRules query).any (evaluates listing bucket) ||
      (!plan.featureParamRules.isEmpty && paramsMatch listing plan bucket)

def plainRows (usage : Option Usage) (buckets : List Bucket) : List Bucket :=
  match request.advancedFilter with
  | none => buckets
  | some query =>
    if query.rules.isEmpty then buckets
    else buckets.filter (plainMatch listing request query usage)

/-- Every entry is loaded. -/
def plainSnapshot : Except BuildError (List Bucket) :=
  match loadEntries { listing.helpers with extractNameCandidates := fun _ => none } listing.rgw
    request with
  | .error error => .error error
  | .ok loaded =>
    let results := backfillOwnerMetadata listing.helpers listing.rgw request (buildSummaries loaded)
    let ownerUsageByKey :=
      if loaded.effectiveWithStats && !results.isEmpty then
        some (listing.helpers.computeBucketOwnerUsage results)
      else none
    .ok (plainRows listing request ownerUsageByKey results)

def nameCandidates : Option (List String) :=
  if request.ownerUsageRequired then none
  else listing.helpers.extractNameCandidates request.advancedFilter

/-- The parameters the rules ask for can be read. -/
def paramsReadable (bucket : Bucket) : Bool :=
  request.advancedFilter.all fun query =>
    let plan := CephAdminAdvancedFilterPlan.fromQuery query
    plan.featureParamRules.isEmpty ||
      (listing.rgw.featureParams plan.featureParamRules bucket).isSome

/-- The bucket is among the candidates of the name, and its parameters can be read. -/
def reached (bucket : Bucket) : Bool :=
  (nameCandidates listing request).all (fun names => bucket.name ∈ names) &&
    paramsReadable listing request bucket

end Plain

/-! ## What the enrichment leaves alone -/

/-- A stage that works on each bucket on its own and keeps what RGW has listed. -/
def Enriches (stage : List Bucket → List Bucket) : Prop :=
  ∃ f : Bucket → Bucket, (∀ buckets, stage buckets = buckets.map f) ∧
    ∀ bucket, (f bucket).listed = bucket.listed

theorem Enriches.id : Enriches fun buckets => buckets :=
  ⟨fun bucket => bucket, fun _ => (List.map_id' _).symm, fun _ => rfl⟩

theorem Enriches.comp {first second : List Bucket → List Bucket} (hfirst : Enriches first)
    (hsecond : Enriches second) : Enriches fun buckets => second (first buckets) := by
  obtain ⟨f, hf, hkeep⟩ := hfirst
  obtain ⟨g, hg, hkeep'⟩ := hsecond
  refine ⟨g ∘ f, fun buckets => ?_, fun bucket => (hkeep' _).trans (hkeep bucket)⟩
  show second (first buckets) = _
  rw [hf, hg, List.map_map]

theorem Enriches.ite {c : Prop} [Decidable c] {first second : List Bucket → List Bucket}
    (hfirst : Enriches first) (hsecond : Enriches second) :
    Enriches fun buckets => if c then first buckets else second buckets := by
  by_cases h : c
  · simpa only [if_pos h] using hfirst
  · simpa only [if_neg h] using hsecond

section Enriched

variable {Usage : Type} (listing : Listing Usage) (request : CephAdminBucketListingRequest)

theorem enriches_expensive (plan : CephAdminAdvancedFilterPlan) (usage : Option Usage) :
    Enriches (enrichExpensiveCandidates listing.lib.fold listing.helpers listing.rgw request plan
      usage) := by
  have hnames : Enriches (enrichOwnerNames listing.lib.fold listing.helpers listing.rgw request) :=
    ⟨_, fun _ => rfl, fun _ => rfl⟩
  have howners : Enriches (listing.rgw.applyOwnerEnrichment plan.ownerAttributes usage) :=
    ⟨_, fun _ => rfl, fun _ => rfl⟩
  have hdetails (features : List String) (tags : Bool) :
      Enriches (listing.rgw.enrichBuckets features tags) := by
    refine Enriches.ite .id ⟨_, fun _ => rfl, fun bucket => ?_⟩
    obtain ⟨details, heq⟩ := exists_enrich_eq listing.remote (s3BucketName listing.lib.strip)
      features tags bucket
    rw [heq]
    rfl
  have hnamed : Enriches fun buckets => if plan.requiresOwnerNameLookup then
      enrichOwnerNames listing.lib.fold listing.helpers listing.rgw request buckets else buckets :=
    hnames.ite .id
  have howned : Enriches fun buckets => if plan.ownerAttributes.isEmpty then buckets else
      listing.rgw.applyOwnerEnrichment plan.ownerAttributes usage buckets :=
    Enriches.id.ite howners
  exact (hnamed.comp howned).comp (Enriches.id.ite (hdetails _ _))

/-- The candidates are enriched one by one. -/
theorem enrichExpensiveCandidates_eq (plan : CephAdminAdvancedFilterPlan) (usage : Option Usage)
    (buckets : List Bucket) :
    enrichExpensiveCandidates listing.lib.fold listing.helpers listing.rgw request plan usage
      buckets = buckets.map (fullyEnriched listing request plan usage) := by
  obtain ⟨f, hf, -⟩ := enriches_expensive listing request plan usage
  rw [hf]
  refine List.map_congr_left fun bucket _ => ?_
  rw [fullyEnriched, hf]
  rfl

theorem fullyEnriched_listed (plan : CephAdminAdvancedFilterPlan) (usage : Option Usage)
    (bucket : Bucket) : (fullyEnriched listing request plan usage bucket).listed = bucket.listed := by
  obtain ⟨f, hf, hkeep⟩ := enriches_expensive listing request plan usage
  rw [fullyEnriched, hf]
  exact hkeep bucket

/-- A field that is not expensive is a column that RGW lists, or none. -/
theorem bucketFieldValue_congr {bucket bucket' : Bucket} (h : bucket.listed = bucket'.listed)
    {field : String} (hcheap : field ∉ expensiveFieldRules) :
    bucketFieldValue listing.ownerKindFromOwner bucket field =
      bucketFieldValue listing.ownerKindFromOwner bucket' field := by
  have hname : bucket.name = bucket'.name := (congrArg BucketListingSummary.name h :)
  have htenant : bucket.tenant = bucket'.tenant := (congrArg BucketListingSummary.tenant h :)
  have howner : bucket.owner = bucket'.owner := (congrArg BucketListingSummary.owner h :)
  have hused : bucket.usedBytes = bucket'.usedBytes :=
    (congrArg BucketListingSummary.usedBytes h :)
  have hcount : bucket.objectCount = bucket'.objectCount :=
    (congrArg BucketListingSummary.objectCount h :)
  have hsize : bucket.quotaMaxSizeBytes = bucket'.quotaMaxSizeBytes :=
    (congrArg BucketListingSummary.quotaMaxSizeBytes h :)
  have hobjects : bucket.quotaMaxObjects = bucket'.quotaMaxObjects :=
    (congrArg BucketListingSummary.quotaMaxObjects h :)
  have hne (expensive : String) (hin : expensive ∈ expensiveFieldRules) : ¬ field = expensive := by
    rintro rfl
    exact hcheap hin
  have hnone : field ∉ ownerStatusFields ++ ownerQuotaFields ++ ownerUsageFields := by
    intro hin
    refine hcheap (List.mem_cons_of_mem _ (List.mem_cons_of_mem _ ?_))
    exact List.mem_append_left _ hin
  unfold bucketFieldValue
  simp only [if_neg (hne "owner_name" (by decide)), if_neg hnone,
    if_neg (hne "owner_quota_usage_size_percent" (by decide)),
    if_neg (hne "owner_quota_usage_object_percent" (by decide)), hname, htenant, howner, hused,
    hcount, hsize, hobjects]

/-- A rule that is not expensive reads only what RGW has listed. -/
theorem cheap_match_congr {bucket bucket' : Bucket} (h : bucket.listed = bucket'.listed)
    {rule : BucketFilterRule} (hcheap : rule.about expensiveFieldRules = false) :
    listing.helpers.matchBucketFieldRule bucket rule =
      listing.helpers.matchBucketFieldRule bucket' rule := by
  have htag : ¬ rule.field = some "tag" := by
    intro htag
    rw [BucketFilterRule.about, htag] at hcheap
    revert hcheap
    decide
  show (if rule.field = some "tag" then _ else _) = (if rule.field = some "tag" then _ else _)
  rw [if_neg htag, if_neg htag]
  show matchBucketFieldRule listing.lib listing.ownerKindFromOwner bucket rule =
    matchBucketFieldRule listing.lib listing.ownerKindFromOwner bucket' rule
  unfold matchBucketFieldRule
  cases hfield : rule.field with
  | none => rfl
  | some field =>
    rw [BucketFilterRule.about, hfield, Option.any_some, decide_eq_false_iff_not] at hcheap
    simp only [bucketFieldValue_congr listing h hcheap]

end Enriched

/-! ## The rules of a query -/

section Rules

variable {query : BucketFilterQuery}

/-- The rules evaluated one by one are those on fields and those on states. -/
theorem mem_singleRules (hvalid : ∀ rule ∈ query.rules, rule.valid = true)
    {rule : BucketFilterRule} :
    rule ∈ singleRules query ↔
      rule ∈ (CephAdminAdvancedFilterPlan.fromQuery query).fieldRules ∨
        rule ∈ (CephAdminAdvancedFilterPlan.fromQuery query).featureStateRules := by
  simp only [singleRules, CephAdminAdvancedFilterPlan.fromQuery, List.mem_filter, ← and_or_left]
  refine and_congr_right fun hin => ?_
  have hrule := hvalid rule hin
  unfold BucketFilterRule.valid at hrule
  cases hfield : rule.field <;> cases hfeature : rule.feature <;> cases hstate : rule.state <;>
    cases hparam : rule.param <;> simp_all

theorem mem_fieldRules {rule : BucketFilterRule} :
    rule ∈ (CephAdminAdvancedFilterPlan.fromQuery query).fieldRules ↔
      rule ∈ (CephAdminAdvancedFilterPlan.fromQuery query).cheapFieldRules ∨
        rule ∈ (CephAdminAdvancedFilterPlan.fromQuery query).expensiveFieldRules := by
  simp only [CephAdminAdvancedFilterPlan.fromQuery, List.mem_filter, ← and_or_left]
  cases rule.about expensiveFieldRules <;> simp

theorem field_of_mem_fieldRules {rule : BucketFilterRule}
    (h : rule ∈ (CephAdminAdvancedFilterPlan.fromQuery query).fieldRules) :
    rule.field.isSome = true := (List.mem_filter.mp h).2

theorem not_field_of_mem_state_rules (hvalid : ∀ rule ∈ query.rules, rule.valid = true)
    {rule : BucketFilterRule}
    (h : rule ∈ (CephAdminAdvancedFilterPlan.fromQuery query).featureStateRules) :
    rule.field.isSome = false := by
  obtain ⟨hin, hstate⟩ := List.mem_filter.mp h
  have hrule := hvalid rule hin
  unfold BucketFilterRule.valid at hrule
  cases hfield : rule.field with
  | none => rfl
  | some field =>
    rw [hfield] at hrule
    cases hfeature : rule.feature <;> simp_all

end Rules

/-! ## One bucket -/

section Kept

variable {Usage : Type} (listing : Listing Usage) (request : CephAdminBucketListingRequest)
  {query : BucketFilterQuery} (usage : Option Usage) (bucket : Bucket)

/-- The parameters are read by the name and the tenant. -/
theorem featureParams_congr {bucket bucket' : Bucket} (h : bucket.listed = bucket'.listed)
    (rules : List BucketFilterRule) :
    listing.rgw.featureParams rules bucket = listing.rgw.featureParams rules bucket' := by
  have hname : s3BucketName listing.lib.strip bucket = s3BucketName listing.lib.strip bucket' :=
    s3BucketName_congr listing.lib.strip (congrArg BucketListingSummary.name h :)
      (congrArg BucketListingSummary.tenant h :)
  show listing.params rules (listing.remote (s3BucketName listing.lib.strip bucket)) = _
  rw [hname]
  rfl

/-- Every rule evaluated one by one holds when the cheap ones hold of the listed bucket and the others
of the enriched one. -/
theorem all_singleRules_iff (hvalid : ∀ rule ∈ query.rules, rule.valid = true) {enriched : Bucket}
    (hlisted : enriched.listed = bucket.listed) :
    (singleRules query).all (evaluates listing enriched) = true ↔
      (∀ rule ∈ (CephAdminAdvancedFilterPlan.fromQuery query).cheapFieldRules,
        listing.helpers.matchBucketFieldRule bucket rule = true) ∧
      (∀ rule ∈ (CephAdminAdvancedFilterPlan.fromQuery query).expensiveFieldRules,
        listing.helpers.matchBucketFieldRule enriched rule = true) ∧
      ∀ rule ∈ (CephAdminAdvancedFilterPlan.fromQuery query).featureStateRules,
        listing.helpers.matchBucketFeatureRule enriched rule = true := by
  rw [List.all_eq_true]
  constructor
  · intro h
    refine ⟨fun rule hrule => ?_, fun rule hrule => ?_, fun rule hrule => ?_⟩
    · have hfield := mem_fieldRules.mpr (.inl hrule)
      have heval := h rule ((mem_singleRules hvalid).mpr (.inl hfield))
      rw [evaluates, if_pos (field_of_mem_fieldRules hfield)] at heval
      rw [← cheap_match_congr listing hlisted (by simpa using (List.mem_filter.mp hrule).2)]
      exact heval
    · have hfield := mem_fieldRules.mpr (.inr hrule)
      have heval := h rule ((mem_singleRules hvalid).mpr (.inl hfield))
      rwa [evaluates, if_pos (field_of_mem_fieldRules hfield)] at heval
    · have heval := h rule ((mem_singleRules hvalid).mpr (.inr hrule))
      rwa [evaluates, not_field_of_mem_state_rules hvalid hrule, if_neg Bool.false_ne_true] at heval
  · rintro ⟨hcheap, hexpensive, hstate⟩ rule hrule
    rcases (mem_singleRules hvalid).mp hrule with hfield | hin
    · rw [evaluates, if_pos (field_of_mem_fieldRules hfield)]
      rcases mem_fieldRules.mp hfield with hin | hin
      · rw [cheap_match_congr listing hlisted (by simpa using (List.mem_filter.mp hin).2)]
        exact hcheap rule hin
      · exact hexpensive rule hin
    · rw [evaluates, not_field_of_mem_state_rules hvalid hin, if_neg Bool.false_ne_true]
      exact hstate rule hin

/-- Some rule evaluated one by one holds when a cheap one holds of the listed bucket or another of the
enriched one. -/
theorem any_singleRules_iff (hvalid : ∀ rule ∈ query.rules, rule.valid = true) {enriched : Bucket}
    (hlisted : enriched.listed = bucket.listed) :
    (singleRules query).any (evaluates listing enriched) = true ↔
      (∃ rule ∈ (CephAdminAdvancedFilterPlan.fromQuery query).cheapFieldRules,
        listing.helpers.matchBucketFieldRule bucket rule = true) ∨
      (∃ rule ∈ (CephAdminAdvancedFilterPlan.fromQuery query).expensiveFieldRules,
        listing.helpers.matchBucketFieldRule enriched rule = true) ∨
      ∃ rule ∈ (CephAdminAdvancedFilterPlan.fromQuery query).featureStateRules,
        listing.helpers.matchBucketFeatureRule enriched rule = true := by
  rw [List.any_eq_true]
  constructor
  · rintro ⟨rule, hrule, heval⟩
    rcases (mem_singleRules hvalid).mp hrule with hfield | hin
    · rw [evaluates, if_pos (field_of_mem_fieldRules hfield)] at heval
      rcases mem_fieldRules.mp hfield with hin | hin
      · rw [cheap_match_congr listing hlisted (by simpa using (List.mem_filter.mp hin).2)] at heval
        exact .inl ⟨rule, hin, heval⟩
      · exact .inr (.inl ⟨rule, hin, heval⟩)
    · rw [evaluates, not_field_of_mem_state_rules hvalid hin, if_neg Bool.false_ne_true] at heval
      exact .inr (.inr ⟨rule, hin, heval⟩)
  · rintro (⟨rule, hin, hmatch⟩ | ⟨rule, hin, hmatch⟩ | ⟨rule, hin, hmatch⟩)
    · have hfield := mem_fieldRules.mpr (.inl hin)
      refine ⟨rule, (mem_singleRules hvalid).mpr (.inl hfield), ?_⟩
      rw [evaluates, if_pos (field_of_mem_fieldRules hfield),
        cheap_match_congr listing hlisted (by simpa using (List.mem_filter.mp hin).2)]
      exact hmatch
    · have hfield := mem_fieldRules.mpr (.inr hin)
      refine ⟨rule, (mem_singleRules hvalid).mpr (.inl hfield), ?_⟩
      rw [evaluates, if_pos (field_of_mem_fieldRules hfield)]
      exact hmatch
    · refine ⟨rule, (mem_singleRules hvalid).mpr (.inr hin), ?_⟩
      rw [evaluates, not_field_of_mem_state_rules hvalid hin, if_neg Bool.false_ne_true]
      exact hmatch

/-- What is asked of a candidate once it is enriched. -/
def candidateMatches (plan : CephAdminAdvancedFilterPlan) (enriched : Bucket) : Bool :=
  if plan.featureParamRules.isEmpty then matchesNonparamCandidate listing.helpers plan enriched
  else matchesFeatureParamCandidate listing.helpers listing.rgw plan enriched

/-- The parameters a plan asks for can be read. -/
def planReadable (plan : CephAdminAdvancedFilterPlan) : Bool :=
  plan.featureParamRules.isEmpty ||
    (listing.rgw.featureParams plan.featureParamRules bucket).isSome

theorem candidateMatches_all_iff {plan : CephAdminAdvancedFilterPlan} {enriched : Bucket}
    (hall : plan.query.matching = .all) :
    candidateMatches listing plan enriched = true ↔
      ((if plan.featureParamRules.isEmpty then plan.expensiveFieldRules else plan.fieldRules).all
          (listing.helpers.matchBucketFieldRule enriched) = true ∧
        plan.featureStateRules.all (listing.helpers.matchBucketFeatureRule enriched) = true) ∧
      (plan.featureParamRules.isEmpty = true ∨ paramsMatch listing plan enriched = true) := by
  unfold candidateMatches paramsMatch
  cases hparams : plan.featureParamRules.isEmpty with
  | true => simp [matchesNonparamCandidate, hall]
  | false =>
    unfold matchesFeatureParamCandidate
    cases listing.rgw.featureParams plan.featureParamRules enriched with
    | none => simp
    | some snapshot => simp [hall, and_assoc]

theorem candidateMatches_any_iff {plan : CephAdminAdvancedFilterPlan} {enriched : Bucket}
    (hany : plan.query.matching = .any) :
    candidateMatches listing plan enriched = true ↔
      ((if plan.featureParamRules.isEmpty then plan.expensiveFieldRules else plan.fieldRules).any
          (listing.helpers.matchBucketFieldRule enriched) = true ∨
        plan.featureStateRules.any (listing.helpers.matchBucketFeatureRule enriched) = true ∨
        plan.featureParamRules.isEmpty = false ∧ paramsMatch listing plan enriched = true) ∧
      planReadable listing enriched plan = true := by
  unfold candidateMatches paramsMatch planReadable
  cases hparams : plan.featureParamRules.isEmpty with
  | true => simp [matchesNonparamCandidate, hany]
  | false =>
    unfold matchesFeatureParamCandidate
    cases listing.rgw.featureParams plan.featureParamRules enriched with
    | none => simp
    | some snapshot => simp [hany, or_assoc]

/-- Whichever rules on fields are asked of the enriched bucket, all of them are. -/
theorem all_checked_iff {enriched : Bucket} (hlisted : enriched.listed = bucket.listed) (c : Bool) :
    ((CephAdminAdvancedFilterPlan.fromQuery query).cheapFieldRules.all
        (listing.helpers.matchBucketFieldRule bucket) = true ∧
      (if c then (CephAdminAdvancedFilterPlan.fromQuery query).expensiveFieldRules
        else (CephAdminAdvancedFilterPlan.fromQuery query).fieldRules).all
          (listing.helpers.matchBucketFieldRule enriched) = true) ↔
      (∀ rule ∈ (CephAdminAdvancedFilterPlan.fromQuery query).cheapFieldRules,
        listing.helpers.matchBucketFieldRule bucket rule = true) ∧
      ∀ rule ∈ (CephAdminAdvancedFilterPlan.fromQuery query).expensiveFieldRules,
        listing.helpers.matchBucketFieldRule enriched rule = true := by
  rw [List.all_eq_true, List.all_eq_true]
  refine and_congr_right fun hcheap => ?_
  cases c with
  | true => rfl
  | false =>
    refine ⟨fun h rule hrule => h rule (mem_fieldRules.mpr (.inr hrule)), fun h rule hrule => ?_⟩
    rcases mem_fieldRules.mp hrule with hin | hin
    · rw [cheap_match_congr listing hlisted (by simpa using (List.mem_filter.mp hin).2)]
      exact hcheap rule hin
    · exact h rule hin

theorem any_checked_iff {enriched : Bucket} (hlisted : enriched.listed = bucket.listed) (c : Bool) :
    ((c = true ∧ (CephAdminAdvancedFilterPlan.fromQuery query).cheapFieldRules.any
        (listing.helpers.matchBucketFieldRule bucket) = true) ∨
      (if c then (CephAdminAdvancedFilterPlan.fromQuery query).expensiveFieldRules
        else (CephAdminAdvancedFilterPlan.fromQuery query).fieldRules).any
          (listing.helpers.matchBucketFieldRule enriched) = true) ↔
      (∃ rule ∈ (CephAdminAdvancedFilterPlan.fromQuery query).cheapFieldRules,
        listing.helpers.matchBucketFieldRule bucket rule = true) ∨
      ∃ rule ∈ (CephAdminAdvancedFilterPlan.fromQuery query).expensiveFieldRules,
        listing.helpers.matchBucketFieldRule enriched rule = true := by
  rw [List.any_eq_true, List.any_eq_true]
  cases c with
  | true => simp
  | false =>
    simp only [Bool.false_eq_true, false_and, if_false, false_or]
    constructor
    · rintro ⟨rule, hrule, hmatch⟩
      rcases mem_fieldRules.mp hrule with hin | hin
      · rw [cheap_match_congr listing hlisted (by simpa using (List.mem_filter.mp hin).2)] at hmatch
        exact .inl ⟨rule, hin, hmatch⟩
      · exact .inr ⟨rule, hin, hmatch⟩
    · rintro (⟨rule, hin, hmatch⟩ | ⟨rule, hin, hmatch⟩)
      · refine ⟨rule, mem_fieldRules.mpr (.inl hin), ?_⟩
        rw [cheap_match_congr listing hlisted (by simpa using (List.mem_filter.mp hin).2)]
        exact hmatch
      · exact ⟨rule, mem_fieldRules.mpr (.inr hin), hmatch⟩

/-- What the builder decides of one bucket. -/
def kept (query : BucketFilterQuery) : Bool :=
  let plan := CephAdminAdvancedFilterPlan.fromQuery query
  let candidate := candidateMatches listing plan (fullyEnriched listing request plan usage bucket)
  match query.matching with
  | .all => plan.cheapFieldRules.all (listing.helpers.matchBucketFieldRule bucket) && candidate
  | .any => (plan.featureParamRules.isEmpty &&
      plan.cheapFieldRules.any (listing.helpers.matchBucketFieldRule bucket)) || candidate

theorem planReadable_congr {bucket bucket' : Bucket} (h : bucket.listed = bucket'.listed)
    (plan : CephAdminAdvancedFilterPlan) :
    planReadable listing bucket plan = planReadable listing bucket' plan := by
  rw [planReadable, planReadable, featureParams_congr listing h]

theorem planReadable_of_paramsMatch {plan : CephAdminAdvancedFilterPlan}
    (h : plan.featureParamRules.isEmpty = true ∨ paramsMatch listing plan bucket = true) :
    planReadable listing bucket plan = true := by
  unfold planReadable
  rcases h with hparams | hmatch
  · rw [hparams, Bool.true_or]
  · unfold paramsMatch at hmatch
    cases hread : listing.rgw.featureParams plan.featureParamRules bucket with
    | none =>
      rw [hread] at hmatch
      cases hmatch
    | some snapshot => exact Bool.or_true _

/-- The builder keeps a bucket that the plain filter keeps and whose parameters can be read. -/
theorem kept_iff (hvalid : ∀ rule ∈ query.rules, rule.valid = true) :
    kept listing request usage bucket query = true ↔
      plainMatch listing request query usage bucket = true ∧
        planReadable listing bucket (CephAdminAdvancedFilterPlan.fromQuery query) = true := by
  have hlisted := fullyEnriched_listed listing request
    (CephAdminAdvancedFilterPlan.fromQuery query) usage bucket
  have hreadable := planReadable_congr listing hlisted (CephAdminAdvancedFilterPlan.fromQuery query)
  rw [← hreadable]
  have hread := @planReadable_of_paramsMatch _ listing (fullyEnriched listing request
    (CephAdminAdvancedFilterPlan.fromQuery query) usage bucket)
    (CephAdminAdvancedFilterPlan.fromQuery query)
  unfold kept plainMatch
  cases hmatching : query.matching with
  | all =>
    have hmatch : (CephAdminAdvancedFilterPlan.fromQuery query).query.matching = .all := hmatching
    have hchecked := @all_checked_iff _ listing query bucket _ hlisted
      (CephAdminAdvancedFilterPlan.fromQuery query).featureParamRules.isEmpty
    simp only [Bool.and_eq_true, Bool.or_eq_true]
    rw [candidateMatches_all_iff listing hmatch, all_singleRules_iff listing bucket hvalid hlisted]
    constructor
    · rintro ⟨hcheap, ⟨hfields, hstates⟩, hparams⟩
      obtain ⟨hcheap, hexpensive⟩ := hchecked.mp ⟨hcheap, hfields⟩
      exact ⟨⟨⟨hcheap, hexpensive, List.all_eq_true.mp hstates⟩, hparams⟩, hread hparams⟩
    · rintro ⟨⟨⟨hcheap, hexpensive, hstates⟩, hparams⟩, -⟩
      obtain ⟨hcheap, hfields⟩ := hchecked.mpr ⟨hcheap, hexpensive⟩
      exact ⟨hcheap, ⟨hfields, List.all_eq_true.mpr hstates⟩, hparams⟩
  | any =>
    have hmatch : (CephAdminAdvancedFilterPlan.fromQuery query).query.matching = .any := hmatching
    have hchecked := @any_checked_iff _ listing query bucket _ hlisted
      (CephAdminAdvancedFilterPlan.fromQuery query).featureParamRules.isEmpty
    simp only [Bool.and_eq_true, Bool.or_eq_true, Bool.not_eq_true']
    rw [candidateMatches_any_iff listing hmatch, any_singleRules_iff listing bucket hvalid hlisted]
    constructor
    · rintro (hcheap | ⟨hfields | hstates | hparams, hreads⟩)
      · exact ⟨.inl ((hchecked.mp (.inl hcheap)).imp_right .inl), hread (.inl hcheap.1)⟩
      · exact ⟨.inl ((hchecked.mp (.inr hfields)).imp_right .inl), hreads⟩
      · exact ⟨.inl (.inr (.inr (List.any_eq_true.mp hstates))), hreads⟩
      · exact ⟨.inr hparams, hreads⟩
    · rintro ⟨(hcheap | hexpensive | hstates) | hparams, hreads⟩
      · exact (hchecked.mpr (.inl hcheap)).imp_right fun hfields => ⟨.inl hfields, hreads⟩
      · exact (hchecked.mpr (.inr hexpensive)).imp_right fun hfields => ⟨.inl hfields, hreads⟩
      · exact .inr ⟨.inr (.inl (List.any_eq_true.mpr hstates)), hreads⟩
      · exact .inr ⟨.inr (.inr hparams), hreads⟩

end Kept

end BucketReef.CephAdmin

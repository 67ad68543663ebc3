import BucketReef.Listing.PhysicalReads
import BucketReef.Lists.Text

/-!
# Filtered and displayed details

A bucket that passes a match-all filter satisfies its rules by what its physical name holds. The page
displays what the plain name holds, which is the same bucket exactly when there is no tenant.
-/

namespace BucketReef.CephAdmin

theorem lookup_map_pair {β : Type} (g : String → β) (keys : List String) (key : String) :
    (keys.map fun k => (k, g k)).lookup key = if key ∈ keys then some (g key) else none := by
  induction keys with
  | nil => rfl
  | cons k keys ih =>
    rw [List.map_cons, List.lookup_cons, ih]
    by_cases h : key = k
    · subst h
      simp
    · rw [beq_false_of_ne h]
      simp [h]

/-! ## Enrichment -/

section Enrichment

variable (remote : RemoteState) (resolver : Bucket → String) (requested : List String)
  (includeTags : Bool)

/-- Only the details of a bucket change. -/
theorem exists_enrich_eq (bucket : Bucket) : ∃ details,
    enrich remote resolver requested includeTags bucket = { bucket with details := details } := by
  unfold enrich
  simp only
  split
  · exact ⟨bucket.details, rfl⟩
  · exact ⟨_, rfl⟩

theorem enrich_name (bucket : Bucket) :
    (enrich remote resolver requested includeTags bucket).name = bucket.name := by
  obtain ⟨details, h⟩ := exists_enrich_eq remote resolver requested includeTags bucket
  rw [h]

theorem enrich_tenant (bucket : Bucket) :
    (enrich remote resolver requested includeTags bucket).tenant = bucket.tenant := by
  obtain ⟨details, h⟩ := exists_enrich_eq remote resolver requested includeTags bucket
  rw [h]

/-- A requested feature shows what the read name holds. -/
theorem enrich_status_requested (bucket : Bucket) {feature : String}
    (hincluded : feature ∈ bucketFeatureIncludes) (hrequested : feature ∈ requested) :
    (enrich remote resolver requested includeTags bucket).status feature =
      some ((remote (resolver bucket)).feature requested feature) := by
  have hmem : feature ∈ bucketFeatureIncludes.filter fun key => key ∈ requested := by
    simp [hincluded, hrequested]
  have hlookup := lookup_map_pair ((remote (resolver bucket)).feature requested)
    (bucketFeatureIncludes.filter fun key => key ∈ requested) feature
  rw [if_pos hmem] at hlookup
  have hmap : ((bucketFeatureIncludes.filter fun key => key ∈ requested).map fun key =>
      (key, (remote (resolver bucket)).feature requested key)).isEmpty = false := by
    rw [List.isEmpty_map, List.isEmpty_eq_false_iff_exists_mem]
    exact ⟨feature, hmem⟩
  unfold enrich Bucket.status
  simp only [hmap, Bool.false_and, Bool.false_eq_true, if_false, Option.bind_some]
  exact hlookup

/-- Without stored details only requested features are shown. -/
theorem requested_of_enrich_status {bucket : Bucket} (hdetails : bucket.details = none)
    {feature : String} {status : BucketFeatureStatus}
    (h : (enrich remote resolver requested includeTags bucket).status feature = some status) :
    feature ∈ bucketFeatureIncludes ∧ feature ∈ requested := by
  have hlookup := lookup_map_pair ((remote (resolver bucket)).feature requested)
    (bucketFeatureIncludes.filter fun key => key ∈ requested) feature
  unfold enrich Bucket.status at h
  simp only at h
  split at h
  · rw [hdetails] at h
    cases h
  · simp only [hdetails, Option.getD_none, Option.bind_some] at h
    split at h
    · cases h
    · rw [hlookup] at h
      split_ifs at h with hmem
      simpa using hmem

theorem enrich_tags (bucket : Bucket) :
    (enrich remote resolver requested true bucket).tags = (remote (resolver bucket)).tags := by
  unfold enrich Bucket.tags
  simp

/-- Without stored details tags are shown only when they are asked for. -/
theorem includeTags_of_enrich_tags {bucket : Bucket} (hdetails : bucket.details = none)
    (h : ((enrich remote resolver requested includeTags bucket).details.bind
      BucketDetails.tags).isSome) : includeTags = true := by
  rcases includeTags with - | -
  · unfold enrich at h
    simp only at h
    split at h
    · simp [hdetails] at h
    · simp [hdetails] at h
  · rfl

end Enrichment

/-! ## Names -/

section Names

variable (strip : String → String)

/-- The bucket has no tenant. -/
def Untenanted (bucket : Bucket) : Prop := strip (bucket.tenant.getD "") = ""

theorem s3BucketName_eq_name_iff (bucket : Bucket) :
    s3BucketName strip bucket = bucket.name ↔ Untenanted strip bucket := by
  unfold s3BucketName Untenanted
  simp only
  split_ifs with h
  · simp [h]
  · refine ⟨fun heq => ?_, fun h' => absurd h' h⟩
    have hlength := congrArg String.length heq
    rw [String.length_append, String.length_append] at hlength
    have hcolon : (":" : String).length = 1 := by decide
    omega

theorem s3BucketName_congr {bucket bucket' : Bucket} (hname : bucket.name = bucket'.name)
    (htenant : bucket.tenant = bucket'.tenant) :
    s3BucketName strip bucket = s3BucketName strip bucket' := by
  unfold s3BucketName
  rw [hname, htenant]

/-- Each read is of the physical bucket. -/
def Physical (reads : List (Bucket × String)) : Prop :=
  ∀ read ∈ reads, read.2 = s3BucketName strip read.1

theorem detailReads_physical (requested : List String) (includeTags : Bool)
    (buckets : List Bucket) :
    Physical strip (detailReads (s3BucketName strip) requested includeTags buckets) := by
  intro read hread
  unfold detailReads at hread
  split_ifs at hread
  · cases hread
  · obtain ⟨bucket, -, rfl⟩ := List.mem_map.mp hread
    rfl

theorem filterReads_physical (plan : CephAdminAdvancedFilterPlan) (candidates : List Bucket) :
    Physical strip (filterReads strip plan candidates) := by
  intro read hread
  unfold filterReads at hread
  rcases List.mem_append.mp hread with h | h
  · split_ifs at h
    · cases h
    · exact detailReads_physical strip _ _ _ read h
  · split_ifs at h
    · cases h
    · obtain ⟨bucket, -, rfl⟩ := List.mem_map.mp h
      rfl

/-- The page asks for no details. -/
def AsksNothing (request : CephAdminBucketListingRequest) : Prop :=
  requestedDetails request = [] ∧ request.includeTags = false

theorem pageReads_physical_iff (request : CephAdminBucketListingRequest) (rows : List Bucket) :
    Physical strip (pageReads request rows) ↔
      AsksNothing request ∨ ∀ item ∈ rows, Untenanted strip item := by
  unfold Physical pageReads detailReads AsksNothing
  split_ifs with h
  · simp only [Bool.and_eq_true, List.isEmpty_iff, Bool.not_eq_true'] at h
    simp [h]
  · simp only [Bool.and_eq_true, List.isEmpty_iff, Bool.not_eq_true'] at h
    simp only [h, false_or, List.mem_map, forall_exists_index, and_imp,
      forall_apply_eq_imp_iff₂]
    refine forall₂_congr fun item _ => ?_
    rw [← s3BucketName_eq_name_iff, eq_comm]

end Names

/-! ## Filtering -/

section Filtering

variable {Usage : Type} (matchers : DetailMatchers Usage) (query : BucketFilterQuery)

/-- The rule is about a feature's state or about tags. -/
def DetailRule (rule : BucketFilterRule) : Prop :=
  (rule.feature.isSome ∧ rule.state.isSome) ∨ rule.field = some "tag"

/-- What is held, with its features read as requested, satisfies each rule on features and tags. -/
def S3Config.Satisfies (config : S3Config) (requested : List String) : Prop :=
  ∀ rule ∈ query.rules,
    (∀ feature ∈ bucketFeatureIncludes, rule.feature = some feature → rule.state.isSome →
      matchers.featureState rule (some (config.feature requested feature)) = true) ∧
    (rule.field = some "tag" → matchers.tag rule config.tags = true)

/-- What is displayed satisfies each rule on features and tags. -/
def Shows (bucket : Bucket) : Prop :=
  ∀ rule ∈ query.rules,
    (∀ feature status, rule.feature = some feature → rule.state.isSome →
      bucket.status feature = some status → matchers.featureState rule (some status) = true) ∧
    (rule.field = some "tag" → (bucket.details.bind BucketDetails.tags).isSome →
      matchers.tag rule bucket.tags = true)

/-- The features that the filter pass asks for. -/
def filterRequested : List String :=
  (CephAdminAdvancedFilterPlan.fromQuery query).filterFeatures.filter fun feature =>
    feature ≠ "tags"

theorem satisfies_of_no_rule (config : S3Config) (requested : List String)
    (h : ∀ rule ∈ query.rules, ¬DetailRule rule) : config.Satisfies matchers query requested := by
  intro rule hrule
  constructor
  · intro feature _ hfeature hstate
    exact absurd (.inl ⟨by rw [hfeature]; rfl, hstate⟩) (h rule hrule)
  · intro hfield
    exact absurd (.inr hfield) (h rule hrule)

theorem tags_not_included : "tags" ∉ bucketFeatureIncludes := by decide

variable (strip : String → String) (remote : RemoteState) (base : Rgw BucketDetails Usage)

/-- A candidate carries what its physical name holds. -/
theorem candidate_details (fold : String → String) (helpers : Helpers BucketDetails Usage)
    (request : CephAdminBucketListingRequest) (usage : Option Usage) {candidates : List Bucket}
    {plan : CephAdminAdvancedFilterPlan} {bucket : Bucket}
    (h : bucket ∈ enrichExpensiveCandidates fold helpers (detailRgw strip matchers remote base)
      request plan usage candidates) :
    (∀ feature ∈ bucketFeatureIncludes, feature ∈ plan.filterFeatures →
      bucket.status feature = some ((remote (s3BucketName strip bucket)).feature
        (plan.filterFeatures.filter fun feature => feature ≠ "tags") feature)) ∧
    (plan.requiresTagLookup = true →
      bucket.tags = (remote (s3BucketName strip bucket)).tags) := by
  unfold enrichExpensiveCandidates at h
  simp only at h
  have hrequested : ∀ feature ∈ bucketFeatureIncludes, feature ∈ plan.filterFeatures →
      feature ∈ plan.filterFeatures.filter fun feature => feature ≠ "tags" := by
    intro feature hincluded hfeature
    rw [List.mem_filter, decide_eq_true_eq]
    exact ⟨hfeature, fun heq => tags_not_included (heq ▸ hincluded)⟩
  split at h
  next hnone =>
    simp only [Bool.and_eq_true, List.isEmpty_iff, Bool.not_eq_true'] at hnone
    simp [hnone]
  next =>
    revert h
    generalize (if plan.ownerAttributes.isEmpty = true then _ else _ : List Bucket) = enriched
    intro h
    replace h : bucket ∈ enrichBuckets remote (s3BucketName strip)
      (plan.filterFeatures.filter fun feature => feature ≠ "tags")
      (plan.requiresTagLookup || decide ("tags" ∈ plan.filterFeatures)) enriched := h
    unfold enrichBuckets at h
    split at h
    next hnone =>
      simp only [Bool.and_eq_true, List.isEmpty_iff, Bool.not_eq_true', Bool.or_eq_false_iff] at hnone
      obtain ⟨hempty, htag, -⟩ := hnone
      constructor
      · intro feature hincluded hfeature
        have hmem := hrequested feature hincluded hfeature
        rw [hempty] at hmem
        cases hmem
      · rw [htag]
        rintro ⟨⟩
    next =>
      obtain ⟨candidate, -, rfl⟩ := List.mem_map.mp h
      rw [s3BucketName_congr strip (enrich_name remote (s3BucketName strip) _ _ candidate)
        (enrich_tenant remote (s3BucketName strip) _ _ candidate)]
      constructor
      · intro feature hincluded hfeature
        exact enrich_status_requested _ _ _ _ _ hincluded (hrequested feature hincluded hfeature)
      · intro htag
        rw [htag, Bool.true_or]
        exact enrich_tags _ _ _ _

/-- A bucket that passes the expensive rules of a match-all query matched each of them. -/
theorem matched_of_mem_expensive {Details : Type} (fold : String → String)
    (helpers : Helpers Details Usage) (rgw : Rgw Details Usage)
    (request : CephAdminBucketListingRequest) (usage : Option Usage)
    {results : List (BucketListingSummary Details)} {bucket : BucketListingSummary Details}
    (hall : query.matching = .all)
    (h : bucket ∈ applyExpensiveRules fold helpers rgw request
      (CephAdminAdvancedFilterPlan.fromQuery query) usage results) :
    bucket ∈ enrichExpensiveCandidates fold helpers rgw request
        (CephAdminAdvancedFilterPlan.fromQuery query) usage results ∧
      (∀ rule ∈ (CephAdminAdvancedFilterPlan.fromQuery query).featureStateRules,
        helpers.matchBucketFeatureRule bucket rule = true) ∧
      ∀ rule ∈ (CephAdminAdvancedFilterPlan.fromQuery query).expensiveFieldRules,
        helpers.matchBucketFieldRule bucket rule = true := by
  have hquery : (CephAdminAdvancedFilterPlan.fromQuery query).query.matching = .all := hall
  unfold applyExpensiveRules at h
  simp only [hquery, reduceCtorEq, decide_false, Bool.and_false, Bool.false_and,
    Bool.false_eq_true, if_false, List.nil_append] at h
  split at h
  · obtain ⟨hmem, hmatch⟩ := List.mem_filter.mp h
    unfold matchesNonparamCandidate at hmatch
    rw [if_pos hquery, Bool.and_eq_true, List.all_eq_true, List.all_eq_true] at hmatch
    exact ⟨hmem, hmatch.2, hmatch.1⟩
  · obtain ⟨hmem, hmatch⟩ := List.mem_filter.mp h
    unfold matchesFeatureParamCandidate at hmatch
    split at hmatch
    · cases hmatch
    · rw [if_pos hquery, Bool.and_eq_true, Bool.and_eq_true, List.all_eq_true,
        List.all_eq_true] at hmatch
      refine ⟨hmem, hmatch.1.2, fun rule hrule => hmatch.1.1 rule ?_⟩
      exact (List.mem_filter.mp hrule).1

/-- So what the physical name of such a bucket holds satisfies the query. -/
theorem satisfies_of_mem_expensive (fold : String → String) (helpers : Helpers BucketDetails Usage)
    (request : CephAdminBucketListingRequest) (usage : Option Usage) {results : List Bucket}
    {bucket : Bucket} (hall : query.matching = .all)
    (h : bucket ∈ applyExpensiveRules fold (detailHelpers matchers helpers)
      (detailRgw strip matchers remote base) request
      (CephAdminAdvancedFilterPlan.fromQuery query) usage results) :
    (remote (s3BucketName strip bucket)).Satisfies matchers query (filterRequested query) := by
  obtain ⟨hmem, hfeatures, hfields⟩ := matched_of_mem_expensive query fold _ _ request usage hall h
  obtain ⟨hstatus, htags⟩ := candidate_details matchers strip remote base fold _ request usage hmem
  intro rule hrule
  constructor
  · intro feature hincluded hfeature hstate
    have hrules : rule ∈ (CephAdminAdvancedFilterPlan.fromQuery query).featureStateRules :=
      List.mem_filter.mpr ⟨hrule, by rw [hfeature, hstate]; rfl⟩
    have hasked : feature ∈ (CephAdminAdvancedFilterPlan.fromQuery query).filterFeatures :=
      List.mem_filterMap.mpr ⟨rule, hrules, hfeature⟩
    have hmatch : matchers.featureState rule (rule.feature.bind bucket.status) = true :=
      hfeatures rule hrules
    rw [hfeature, Option.bind_some, hstatus feature hincluded hasked] at hmatch
    exact hmatch
  · intro hfield
    have hrules : rule ∈ (CephAdminAdvancedFilterPlan.fromQuery query).expensiveFieldRules := by
      refine List.mem_filter.mpr ⟨List.mem_filter.mpr ⟨hrule, by rw [hfield]; rfl⟩, ?_⟩
      unfold BucketFilterRule.about
      rw [hfield]
      decide
    have hasked : (CephAdminAdvancedFilterPlan.fromQuery query).requiresTagLookup = true := by
      refine List.any_eq_true.mpr ⟨rule, hrules, ?_⟩
      unfold BucketFilterRule.about
      rw [hfield]
      decide
    have hmatch := hfields rule hrules
    unfold detailHelpers at hmatch
    simp only [if_pos hfield] at hmatch
    rw [htags hasked] at hmatch
    exact hmatch

end Filtering

/-! ## The snapshot and the page -/

section Snapshot

variable {Usage : Type} (matchers : DetailMatchers Usage) (strip : String → String)
  (remote : RemoteState) (base : Rgw BucketDetails Usage) (fold : String → String)
  (helpers : Helpers BucketDetails Usage) (request : CephAdminBucketListingRequest)
  {query : BucketFilterQuery}

/-- The physical bucket satisfies the rules, and no details are kept when there is one on details. -/
def Filtered (query : BucketFilterQuery) (bucket : Bucket) : Prop :=
  (remote (s3BucketName strip bucket)).Satisfies matchers query (filterRequested query) ∧
    ((∃ rule ∈ query.rules, DetailRule rule) → bucket.details = none)

theorem detailRule_expensive {rule : BucketFilterRule} (hrule : rule ∈ query.rules)
    (hdetail : DetailRule rule) :
    (CephAdminAdvancedFilterPlan.fromQuery query).hasExpensiveRules = true := by
  unfold CephAdminAdvancedFilterPlan.hasExpensiveRules
  rw [Bool.not_eq_true', Bool.and_eq_false_iff, Bool.and_eq_false_iff]
  left
  rcases hdetail with ⟨hfeature, hstate⟩ | hfield
  · right
    rw [List.isEmpty_eq_false_iff_exists_mem]
    exact ⟨rule, List.mem_filter.mpr ⟨hrule, by rw [hfeature, hstate]; rfl⟩⟩
  · left
    rw [List.isEmpty_eq_false_iff_exists_mem]
    refine ⟨rule, List.mem_filter.mpr ⟨List.mem_filter.mpr ⟨hrule, by rw [hfield]; rfl⟩, ?_⟩⟩
    unfold BucketFilterRule.about
    rw [hfield]
    decide

theorem filtered_of_no_rule {bucket : Bucket} (h : ∀ rule ∈ query.rules, ¬DetailRule rule) :
    Filtered matchers strip remote query bucket := by
  refine ⟨satisfies_of_no_rule matchers query _ _ h, ?_⟩
  rintro ⟨rule, hrule, hdetail⟩
  exact absurd hdetail (h rule hrule)

theorem filtered_of_mem_advanced (hquery : request.advancedFilter = some query)
    (hall : query.matching = .all) (usage : Option Usage) {results : List Bucket} {bucket : Bucket}
    (h : bucket ∈ applyAdvancedFilter fold (detailHelpers matchers helpers)
      (detailRgw strip matchers remote base) request usage results) :
    Filtered matchers strip remote query bucket := by
  unfold applyAdvancedFilter at h
  rw [hquery] at h
  simp only at h
  split at h
  next hempty =>
    rw [List.isEmpty_iff] at hempty
    exact filtered_of_no_rule matchers strip remote (by simp [hempty])
  next =>
    split at h
    next =>
      obtain ⟨matched, hmatched, rfl⟩ := List.mem_map.mp h
      have hsatisfies := satisfies_of_mem_expensive matchers query strip remote base fold helpers
        request usage hall hmatched
      exact ⟨hsatisfies, fun _ => rfl⟩
    next hcheap =>
      refine filtered_of_no_rule matchers strip remote fun rule hrule hdetail => hcheap ?_
      exact detailRule_expensive hrule hdetail

theorem mem_of_mem_sortResults {Details : Type} {helpers : Helpers Details Usage}
    {results : List (BucketListingSummary Details)} {bucket : BucketListingSummary Details}
    (h : bucket ∈ sortResults helpers request results) : bucket ∈ results := by
  unfold sortResults at h
  split at h
  · exact Lists.mem_sortedBy.mp h
  · exact Lists.mem_sortedBy.mp h

theorem filtered_of_build (hquery : request.advancedFilter = some query)
    (hall : query.matching = .all) {snapshot : CephAdminBucketListingSnapshot BucketDetails Usage}
    (hbuild : build fold (detailHelpers matchers helpers) (detailRgw strip matchers remote base)
      request = .ok snapshot) :
    ∀ bucket ∈ snapshot.items, Filtered matchers strip remote query bucket := by
  intro bucket hbucket
  unfold build at hbuild
  split at hbuild
  · cases hbuild
  · cases hbuild
    exact filtered_of_mem_advanced matchers strip remote base fold helpers request hquery hall _
      (mem_of_mem_sortResults request hbucket)

end Snapshot

section Page

variable {Usage : Type} (helpers : Helpers BucketDetails Usage) (rgw : Rgw BucketDetails Usage)
  (contains : String → String → Bool) (tagFilter : Bucket → Bool)
  (request : CephAdminBucketListingRequest)

/-- A tenant is filled in only where there is none. -/
theorem backfill_keeps (includeTenant : Bool) {buckets : List Bucket} {item : Bucket}
    (h : item ∈ backfillBucketOwnerMetadata helpers rgw includeTenant buckets) :
    ∃ bucket ∈ buckets, item.name = bucket.name ∧ item.details = bucket.details ∧
      (item.tenant = bucket.tenant ∨ bucket.tenant = none) := by
  obtain ⟨bucket, hbucket, rfl⟩ := List.mem_map.mp h
  refine ⟨bucket, hbucket, ?_⟩
  split
  · split
    · exact ⟨rfl, rfl, .inl rfl⟩
    · refine ⟨rfl, rfl, ?_⟩
      unfold applyBucketOwnerMetadata
      rcases htenant : bucket.tenant with - | tenant
      · exact .inr rfl
      · simp [htenant]
  · exact ⟨rfl, rfl, .inl rfl⟩

theorem page_rows_keep {snapshot : CephAdminBucketListingSnapshot BucketDetails Usage}
    {page pageSize : ℕ} {item : Bucket}
    (h : item ∈ page_rows helpers rgw contains tagFilter request snapshot page pageSize) :
    ∃ bucket ∈ snapshot.items, item.name = bucket.name ∧ item.details = bucket.details ∧
      (item.tenant = bucket.tenant ∨ bucket.tenant = none) := by
  obtain ⟨bucket, hbucket, hkeep⟩ := backfill_keeps helpers rgw _ h
  refine ⟨bucket, ?_, hkeep⟩
  have hfiltered := (List.mem_filter.mp (List.mem_of_mem_drop (List.mem_of_mem_take hbucket))).1
  unfold applySimpleFilter at hfiltered
  split at hfiltered
  · exact hfiltered
  · split at hfiltered
    · exact hfiltered
    · simp only at hfiltered
      split at hfiltered
      · exact (List.mem_filter.mp hfiltered).1
      · exact (List.mem_filter.mp hfiltered).1

end Page

/-! ## Displayed details -/

section Displayed

variable {Usage : Type} (matchers : DetailMatchers Usage) (strip : String → String)
  (remote : RemoteState) (base : Rgw BucketDetails Usage) (fold : String → String)
  (helpers : Helpers BucketDetails Usage) (request : CephAdminBucketListingRequest)
  (contains : String → String → Bool) (tagFilter : Bucket → Bool)

/-- The page reads a feature the way the filter does, alone or from the bundle, or the calls of the
bundle do not fail. -/
def ReadAlike (query : BucketFilterQuery) (config : S3Config) (feature : String) : Prop :=
  feature ∈ bucketPropertyFeatures →
    fromBundle (filterRequested query) feature = fromBundle (requestedDetails request) feature ∨
      config.readable = true

/-- Both passes read one status exactly when they read alike or the feature is unavailable either way. -/
theorem feature_eq_iff_readAlike (query : BucketFilterQuery) (config : S3Config) (feature : String) :
    config.feature (filterRequested query) feature =
        config.feature (requestedDetails request) feature ↔
      ReadAlike request query config feature ∨
        (config.property feature).getD unavailableFeatureStatus = unavailableFeatureStatus := by
  unfold S3Config.feature ReadAlike
  by_cases hproperty : feature ∈ bucketPropertyFeatures
  · rw [if_pos hproperty, if_pos hproperty]
    cases fromBundle (filterRequested query) feature <;>
      cases fromBundle (requestedDetails request) feature <;>
      cases config.readable <;> simp [hproperty, eq_comm]
  · simp [hproperty]

/-- The rows of the page for a snapshot. -/
def rows (snapshot : CephAdminBucketListingSnapshot BucketDetails Usage) (page pageSize : ℕ) :
    List Bucket :=
  page_rows (detailHelpers matchers helpers) (detailRgw strip matchers remote base) contains
    tagFilter request snapshot page pageSize

/-- The page reads every feature that a rule of a match-all query is about, and that it displays, the
way the filter pass did. -/
def ReadsAlike (items : List Bucket) : Prop :=
  ∀ query, request.advancedFilter = some query → query.matching = .all →
    ∀ item ∈ items, ∀ rule ∈ query.rules, ∀ feature ∈ bucketFeatureIncludes,
      rule.feature = some feature → rule.state.isSome → feature ∈ requestedDetails request →
        ReadAlike request query (remote item.name) feature

/-- Every displayed bucket of a match-all query satisfies the rules on features and tags. -/
def DisplaySatisfies (items : List Bucket) : Prop :=
  ∀ query, request.advancedFilter = some query → query.matching = .all →
    ∀ item ∈ enrichBucketDetails request remote items, Shows matchers query item

theorem details_none_of_row {strip : String → String} {base : Rgw BucketDetails Usage}
    {fold : String → String} {helpers : Helpers BucketDetails Usage}
    {contains : String → String → Bool} {tagFilter : Bucket → Bool} {query : BucketFilterQuery}
    (hquery : request.advancedFilter = some query) (hall : query.matching = .all)
    {snapshot : CephAdminBucketListingSnapshot BucketDetails Usage}
    (hbuild : build fold (detailHelpers matchers helpers) (detailRgw strip matchers remote base)
      request = .ok snapshot) {page pageSize : ℕ} {item : Bucket}
    (hitem : item ∈ rows matchers strip remote base helpers request contains tagFilter snapshot page
      pageSize) {rule : BucketFilterRule} (hrule : rule ∈ query.rules) (hdetail : DetailRule rule) :
    item.details = none := by
  obtain ⟨bucket, hbucket, -, hdetails, -⟩ := page_rows_keep _ _ _ _ _ hitem
  rw [hdetails]
  exact (filtered_of_build matchers strip remote base fold helpers request hquery hall hbuild bucket
    hbucket).2 ⟨rule, hrule, hdetail⟩

/-- An untenanted row satisfies the rules by what its plain name holds. -/
theorem satisfies_of_untenanted {strip : String → String} (hstrip : strip "" = "")
    {base : Rgw BucketDetails Usage}
    {fold : String → String} {helpers : Helpers BucketDetails Usage}
    {contains : String → String → Bool} {tagFilter : Bucket → Bool} {query : BucketFilterQuery}
    (hquery : request.advancedFilter = some query) (hall : query.matching = .all)
    {snapshot : CephAdminBucketListingSnapshot BucketDetails Usage}
    (hbuild : build fold (detailHelpers matchers helpers) (detailRgw strip matchers remote base)
      request = .ok snapshot) {page pageSize : ℕ} {item : Bucket}
    (hitem : item ∈ rows matchers strip remote base helpers request contains tagFilter snapshot page
      pageSize) (huntenanted : Untenanted strip item) :
    (remote item.name).Satisfies matchers query (filterRequested query) := by
  obtain ⟨bucket, hbucket, hname, -, htenant⟩ := page_rows_keep _ _ _ _ _ hitem
  have hsatisfies := (filtered_of_build matchers strip remote base fold helpers request hquery hall
    hbuild bucket hbucket).1
  have hphysical : s3BucketName strip bucket = bucket.name := by
    rw [s3BucketName_eq_name_iff]
    rcases htenant with htenant | htenant
    · unfold Untenanted at huntenanted ⊢
      rw [← htenant]
      exact huntenanted
    · unfold Untenanted
      rw [htenant]
      exact hstrip
  rw [hname, ← hphysical]
  exact hsatisfies

/-- A row without tenant, or a page that asks for nothing, displays what satisfies the rules as long as
both passes read the features alike. -/
theorem display_satisfies (hstrip : strip "" = "")
    {snapshot : CephAdminBucketListingSnapshot BucketDetails Usage}
    (hbuild : build fold (detailHelpers matchers helpers) (detailRgw strip matchers remote base)
      request = .ok snapshot) {page pageSize : ℕ}
    (hphysical : AsksNothing request ∨ ∀ item ∈ rows matchers strip remote base helpers request
      contains tagFilter snapshot page pageSize, Untenanted strip item)
    (halike : ReadsAlike remote request
      (rows matchers strip remote base helpers request contains tagFilter snapshot page pageSize)) :
    DisplaySatisfies matchers remote request
      (rows matchers strip remote base helpers request contains tagFilter snapshot page
        pageSize) := by
  intro query hquery hall shown hshown rule hrule
  unfold enrichBucketDetails enrichBuckets at hshown
  split at hshown
  next =>
    -- nothing is displayed, as the filter pass keeps no details
    constructor
    · intro feature status hfeature hstate hstatus
      have hnone := details_none_of_row matchers remote request hquery hall hbuild hshown hrule
        (.inl ⟨by rw [hfeature]; rfl, hstate⟩)
      unfold Bucket.status at hstatus
      rw [hnone] at hstatus
      cases hstatus
    · intro hfield htags
      have hnone := details_none_of_row matchers remote request hquery hall hbuild hshown hrule
        (.inr hfield)
      rw [hnone] at htags
      cases htags
  next hasks =>
    obtain ⟨item, hitem, rfl⟩ := List.mem_map.mp hshown
    have huntenanted : Untenanted strip item := by
      rcases hphysical with hnothing | hall
      · exact absurd (by simp [hnothing.1, hnothing.2]) hasks
      · exact hall item hitem
    have hsatisfies := satisfies_of_untenanted matchers remote request hstrip hquery hall hbuild
      hitem huntenanted rule hrule
    constructor
    · intro feature status hfeature hstate hstatus
      have hnone := details_none_of_row matchers remote request hquery hall hbuild hitem hrule
        (.inl ⟨by rw [hfeature]; rfl, hstate⟩)
      obtain ⟨hincluded, hrequested⟩ := requested_of_enrich_status _ _ _ _ hnone hstatus
      rw [enrich_status_requested _ _ _ _ _ hincluded hrequested, Option.some.injEq] at hstatus
      have hread := (feature_eq_iff_readAlike request query (remote item.name) feature).mpr
        (.inl (halike query hquery hall item hitem rule hrule feature hincluded hfeature hstate
          hrequested))
      rw [← hstatus, ← hread]
      exact hsatisfies.1 feature hincluded hfeature hstate
    · intro hfield htags
      have hnone := details_none_of_row matchers remote request hquery hall hbuild hitem hrule
        (.inr hfield)
      rw [includeTags_of_enrich_tags _ _ _ _ hnone htags, enrich_tags]
      exact hsatisfies.2 hfield

/-- All reads are of the physical buckets exactly when the page asks for no details or shows no bucket
of a tenant. What it then displays satisfies the rules wherever both passes read a feature alike; on one
bucket they read the same status exactly then, or where the feature is unavailable either way. -/
theorem displayed_from_same_bucket_iff (hstrip : strip "" = "")
    (snapshot : CephAdminBucketListingSnapshot BucketDetails Usage)
    (hbuild : build fold (detailHelpers matchers helpers) (detailRgw strip matchers remote base)
      request = .ok snapshot) (page pageSize : ℕ) :
    let items := rows matchers strip remote base helpers request contains tagFilter snapshot page
      pageSize
    ((∀ plan candidates, Physical strip (filterReads strip plan candidates)) ∧
        Physical strip (pageReads request items) ↔
      AsksNothing request ∨ ∀ item ∈ items, Untenanted strip item) ∧
    ((AsksNothing request ∨ ∀ item ∈ items, Untenanted strip item) →
      ReadsAlike remote request items → DisplaySatisfies matchers remote request items) ∧
    ∀ query config feature,
      config.feature (filterRequested query) feature =
          config.feature (requestedDetails request) feature ↔
        ReadAlike request query config feature ∨
          (config.property feature).getD unavailableFeatureStatus =
            unavailableFeatureStatus := by
  intro items
  refine ⟨?_, display_satisfies matchers strip remote base fold helpers request contains tagFilter
    hstrip hbuild, feature_eq_iff_readAlike request⟩
  rw [pageReads_physical_iff]
  exact ⟨And.right, fun hphysical => ⟨filterReads_physical strip, hphysical⟩⟩

end Displayed

/-! ## A bucket with a namesake

The bucket `data` of the tenant `acme` is versioned, and the bucket `data` without a tenant is not. The
page of the versioned buckets shows the first with the status of the second. -/

def versioningRule : BucketFilterRule :=
  ⟨none, none, .null, some "versioning", some "enabled", none, none⟩

def versioningRequest : CephAdminBucketListingRequest where
  simpleFilter := none
  advancedFilter := some ⟨.all, [versioningRule]⟩
  sortBy := "name"
  sortDir := "asc"
  withStats := false
  statsRequired := false
  wantsOwnerName := false
  wantsOwnerSuspended := false
  wantsOwnerQuota := false
  wantsOwnerQuotaUsage := false
  ownerUsageRequired := false
  needsOwnerMetadata := false
  needsTenantMetadata := false
  requestedFeatures := ["versioning"]
  requestedDetailFields := []
  includeTags := false
  uiTagIds := []
  uiTagMatch := .any

def acmeBucket : Bucket where
  name := "data"
  tenant := some "acme"
  tenantMetadataResolved := true
  owner := some "acme$ops"
  ownerName := none
  usedBytes := none
  objectCount := none
  quotaMaxSizeBytes := none
  quotaMaxObjects := none
  ownerDetails := []
  details := none

def versioningConfig (status : BucketFeatureStatus) : S3Config where
  property := fun feature => if feature = "versioning" then some status else none
  configuration := fun _ => unavailableFeatureStatus
  columnDetail := fun _ _ => ""
  tags := []

def namesakeRemote : RemoteState := fun name =>
  versioningConfig (if name ∈ ["acme:data", "archive"] then ⟨"Enabled", "active"⟩ else ⟨"Disabled", "inactive"⟩)

def acmeRgw : Rgw BucketDetails Unit where
  allBuckets := fun _ => .ok [acmeBucket]
  bucketInfo := fun _ => none
  ownerName := fun _ _ _ => none
  applyOwnerEnrichment := fun _ _ buckets => buckets
  enrichBuckets := fun _ _ buckets => buckets
  featureParams := fun _ _ => none

def plainHelpers : Helpers BucketDetails Unit where
  lower := Text.lower
  extractNameCandidates := fun _ => none
  ownerKindFromOwner := fun _ => .user
  computeBucketOwnerUsage := fun _ => ()
  matchBucketFieldRule := fun _ _ => false
  matchBucketFeatureRule := fun _ _ => false
  matchBucketFeatureParamRules := fun _ _ _ => false

/-- `match_bucket_feature_rule` for the state `enabled` -/
def enabledMatchers : DetailMatchers Unit where
  featureState := fun rule status =>
    decide (rule.state = some "enabled") && status.any fun status => status.tone = "active"
  tag := fun _ _ => false
  ownerDetails := fun _ _ _ => []
  params := fun _ _ => none

def acmeSnapshot : CephAdminBucketListingSnapshot BucketDetails Unit := ⟨[acmeBucket], true, none⟩

theorem build_acme : build Text.lower (detailHelpers enabledMatchers plainHelpers)
    (detailRgw Text.strip enabledMatchers namesakeRemote acmeRgw) versioningRequest =
      .ok acmeSnapshot := by
  rfl

def acmeRows : List Bucket :=
  rows enabledMatchers Text.strip namesakeRemote acmeRgw plainHelpers versioningRequest
    (fun _ _ => true) (fun _ => true) acmeSnapshot 1 25

/-- A bucket without tenant, versioned as well. -/
def archiveBucket : Bucket := { acmeBucket with name := "archive", tenant := none }

def archiveRgw : Rgw BucketDetails Unit := { acmeRgw with allBuckets := fun _ => .ok [archiveBucket] }

def archiveSnapshot : CephAdminBucketListingSnapshot BucketDetails Unit := ⟨[archiveBucket], true, none⟩

def archiveRows : List Bucket :=
  rows enabledMatchers Text.strip namesakeRemote archiveRgw plainHelpers versioningRequest
    (fun _ _ => true) (fun _ => true) archiveSnapshot 1 25

/-- The page of `archive` reads and displays the bucket it lists, the page of `acme:data` does not read
it. -/
theorem displayed_from_same_bucket_iff_archive :
    (Physical Text.strip (pageReads versioningRequest archiveRows) ∧
        DisplaySatisfies enabledMatchers namesakeRemote versioningRequest archiveRows) ∧
      archiveRows = [archiveBucket] ∧
      ¬Physical Text.strip (pageReads versioningRequest acmeRows) := by
  obtain ⟨hreads, hdisplay, -⟩ := displayed_from_same_bucket_iff enabledMatchers Text.strip
    namesakeRemote archiveRgw Text.lower plainHelpers versioningRequest (fun _ _ => true)
    (fun _ => true) rfl archiveSnapshot rfl 1 25
  obtain ⟨hacme, -⟩ := displayed_from_same_bucket_iff enabledMatchers Text.strip namesakeRemote
    acmeRgw Text.lower plainHelpers versioningRequest (fun _ _ => true) (fun _ => true) rfl
    acmeSnapshot build_acme 1 25
  have hrows : archiveRows = [archiveBucket] := rfl
  have harchive : AsksNothing versioningRequest ∨ ∀ item ∈ archiveRows, Untenanted Text.strip item := by
    right
    intro item hitem
    rw [hrows, List.mem_singleton] at hitem
    rw [hitem]
    rfl
  refine ⟨⟨(hreads.mpr harchive).2, hdisplay harchive ?_⟩, hrows, fun hphysical => ?_⟩
  · intro query hquery _ item _ rule hrule feature _ hfeature _ _ _
    cases hquery
    rw [List.mem_singleton] at hrule
    subst hrule
    cases hfeature
    exact .inl rfl
  · rcases hacme.mp ⟨filterReads_physical Text.strip, hphysical⟩ with hnothing | huntenanted
    · cases hnothing.1
    · have hacme : Text.strip "acme" = "" := huntenanted acmeBucket (List.mem_singleton.mpr rfl)
      revert hacme
      decide

/-- The status of the namesake is displayed, which does not satisfy the rule. -/
theorem not_displayed_from_same_bucket :
    ¬∀ (request : CephAdminBucketListingRequest)
      (snapshot : CephAdminBucketListingSnapshot BucketDetails Unit),
      build Text.lower (detailHelpers enabledMatchers plainHelpers)
        (detailRgw Text.strip enabledMatchers namesakeRemote acmeRgw) request = .ok snapshot →
        let items := rows enabledMatchers Text.strip namesakeRemote acmeRgw plainHelpers request
          (fun _ _ => true) (fun _ => true) snapshot 1 25
        Physical Text.strip (pageReads request items) ∧
          DisplaySatisfies enabledMatchers namesakeRemote request items := by
  intro h
  have hdisplay := (h versioningRequest acmeSnapshot build_acme).2
  have hshows := hdisplay ⟨.all, [versioningRule]⟩ rfl rfl _ (List.mem_singleton.mpr rfl)
    versioningRule (List.mem_singleton.mpr rfl)
  have hmatch := hshows.1 "versioning" ⟨"Disabled", "inactive"⟩ rfl rfl rfl
  revert hmatch
  decide

end BucketReef.CephAdmin

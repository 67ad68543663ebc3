import BucketReef.Listing.CephAdminRequests

/-!
# The snapshot of a Ceph Admin bucket listing

The builder loads the bucket entries, fills in owners and tenants, applies the advanced filter and
sorts. The snapshot is cached under the key of the request and served to every request with that key.
What the builder calls to match rules and to read details is an argument of the model, about which
nothing is assumed.
-/

namespace BucketReef.CephAdmin

def bucketFeatureIncludes : List String :=
  ["versioning", "object_lock", "block_public_access", "lifecycle_rules", "static_website",
    "bucket_policy", "cors", "access_logging", "notifications", "server_side_encryption"]

def columnDetailKeys : List String :=
  ["lifecycle_expiration_days", "lifecycle_noncurrent_expiration_days",
    "lifecycle_transition_days", "lifecycle_abort_multipart_days", "object_lock_mode",
    "object_lock_retention_days", "object_lock_retention_years", "bpa_block_public_acls",
    "bpa_ignore_public_acls", "bpa_block_public_policy", "bpa_restrict_public_buckets",
    "cors_allowed_methods", "cors_allowed_origins", "logging_target_bucket",
    "logging_target_prefix", "website_index_document", "website_error_document",
    "website_redirect_host", "website_routing_rule_count", "policy_statement_count",
    "policy_has_conditions", "notification_topic_names", "sse_algorithms", "sse_kms_key_ids"]

/-- The parameters of a request, with the filters parsed and the includes split. -/
structure ListingParameters where
  simpleFilter : Option String
  advancedFilter : Option BucketFilterQuery
  sortBy : String
  sortDir : String
  includeSet : List String
  withStats : Bool
  uiTagIds : List ℤ
  uiTagMatch : String
  withUiTags : Bool

structure CephAdminBucketListingRequest where
  simpleFilter : Option String
  advancedFilter : Option BucketFilterQuery
  sortBy : String
  sortDir : String
  withStats : Bool
  statsRequired : Bool
  wantsOwnerName : Bool
  wantsOwnerSuspended : Bool
  wantsOwnerQuota : Bool
  wantsOwnerQuotaUsage : Bool
  ownerUsageRequired : Bool
  needsOwnerMetadata : Bool
  needsTenantMetadata : Bool
  requestedFeatures : List String
  requestedDetailFields : List String
  includeTags : Bool
  uiTagIds : List ℤ
  uiTagMatch : FilterMatch

structure CephAdminBucketListCacheKey where
  endpointId : ℕ
  advancedFilter : Option BucketFilterQuery
  sortBy : String
  sortDir : String
  withStats : Bool
  withOwnerMetadata : Bool
  withOwnerUsage : Bool
  deriving DecidableEq

variable (fold : String → String)

/-- The simple filter counts for the metadata when there is no advanced one. -/
def metadataSimpleFilter (parameters : ListingParameters) : Option String :=
  if parameters.advancedFilter = none then parameters.simpleFilter else none

def metadataRequirements (parameters : ListingParameters) : Bool × Bool :=
  let needsOwnerMetadata :=
    requestRequiresOwnerMetadata parameters.advancedFilter parameters.sortBy
      (metadataSimpleFilter parameters) || parameters.withUiTags
  let needsTenantMetadata :=
    requestRequiresTenantMetadata fold parameters.advancedFilter parameters.sortBy
      (metadataSimpleFilter parameters) || parameters.withUiTags
  (needsOwnerMetadata, needsTenantMetadata)

def ListingParameters.parse (parameters : ListingParameters) : CephAdminBucketListingRequest :=
  let statsRequired :=
    requestRequiresBucketStats parameters.advancedFilter parameters.sortBy
  { simpleFilter := parameters.simpleFilter
    advancedFilter := parameters.advancedFilter
    sortBy := parameters.sortBy
    sortDir := parameters.sortDir
    withStats := parameters.withStats || statsRequired
    statsRequired := statsRequired
    wantsOwnerName := "owner_name" ∈ parameters.includeSet
    wantsOwnerSuspended := "owner_suspended" ∈ parameters.includeSet
    wantsOwnerQuota := "owner_quota" ∈ parameters.includeSet
    wantsOwnerQuotaUsage := "owner_quota_usage" ∈ parameters.includeSet
    ownerUsageRequired := decide ("owner_quota_usage" ∈ parameters.includeSet) ||
      filterRequiresOwnerUsage parameters.advancedFilter
    needsOwnerMetadata := (metadataRequirements fold parameters).1
    needsTenantMetadata := (metadataRequirements fold parameters).2
    requestedFeatures := bucketFeatureIncludes.filter fun key => key ∈ parameters.includeSet
    requestedDetailFields := columnDetailKeys.filter fun key => key ∈ parameters.includeSet
    includeTags := "tags" ∈ parameters.includeSet
    uiTagIds := (parameters.uiTagIds.filter fun id => 0 < id).eraseDups
    uiTagMatch := if parameters.uiTagMatch = "all" then .all else .any }

/-- The filter is stored as the dump of its fields, which determines it. -/
def CephAdminBucketListingRequest.cacheKey (request : CephAdminBucketListingRequest)
    (endpointId : ℕ) : CephAdminBucketListCacheKey where
  endpointId := endpointId
  advancedFilter := request.advancedFilter
  sortBy := request.sortBy
  sortDir := request.sortDir
  withStats := request.withStats
  withOwnerMetadata := request.needsOwnerMetadata
  withOwnerUsage := request.ownerUsageRequired

/-! ## Buckets and the RGW -/

/-- A listed bucket; `Details` stands for its features, tags and column details, and `owner_details` for
the attributes of its owner. -/
structure BucketListingSummary (Details : Type) where
  name : String
  tenant : Option String
  tenantMetadataResolved : Bool
  owner : Option String
  ownerName : Option String
  usedBytes : Option ℤ
  objectCount : Option ℤ
  quotaMaxSizeBytes : Option ℤ
  quotaMaxObjects : Option ℤ
  ownerDetails : List (String × ℤ)
  details : Option Details

/-- What the bucket info of the RGW says of the owner of a bucket. -/
structure BucketOwnerScope where
  tenant : Option String
  owner : Option String
  tenantMetadataResolved : Bool

inductive RgwError
  | timeout
  | other
  deriving DecidableEq

inductive BuildError
  | rgw (error : RgwError)
  | requiredStatsUnavailable
  deriving DecidableEq

/-- The RGW as the builder sees it, and the functions that read details from it. -/
structure Rgw (Details Usage : Type) where
  allBuckets : Bool → Except RgwError (List (BucketListingSummary Details))
  bucketInfo : String → Option BucketOwnerScope
  ownerName : Option OwnerKind → Option String → String → Option String
  applyOwnerEnrichment : List String → Option Usage →
    List (BucketListingSummary Details) → List (BucketListingSummary Details)
  enrichBuckets : List String → Bool → List (BucketListingSummary Details) →
    List (BucketListingSummary Details)
  featureParams : List BucketFilterRule → BucketListingSummary Details → Option Details

/-- The pure functions that the builder calls. -/
structure Helpers (Details Usage : Type) where
  lower : String → String
  extractNameCandidates : Option BucketFilterQuery → Option (List String)
  ownerKindFromOwner : String → OwnerKind
  computeBucketOwnerUsage : List (BucketListingSummary Details) → Usage
  matchBucketFieldRule : BucketListingSummary Details → BucketFilterRule → Bool
  matchBucketFeatureRule : BucketListingSummary Details → BucketFilterRule → Bool
  matchBucketFeatureParamRules : List BucketFilterRule → FilterMatch → Details → Bool

structure CephAdminBucketListingSnapshot (Details Usage : Type) where
  items : List (BucketListingSummary Details)
  statsAvailable : Bool
  ownerUsageByKey : Option Usage

/-! ## The filter plan -/

structure CephAdminAdvancedFilterPlan where
  query : BucketFilterQuery
  fieldRules : List BucketFilterRule
  featureStateRules : List BucketFilterRule
  featureParamRules : List BucketFilterRule
  expensiveFieldRules : List BucketFilterRule
  cheapFieldRules : List BucketFilterRule
  filterFeatures : List String

def CephAdminAdvancedFilterPlan.fromQuery (query : BucketFilterQuery) :
    CephAdminAdvancedFilterPlan :=
  let fieldRules := query.rules.filter fun rule => rule.field.isSome
  let featureStateRules := query.rules.filter fun rule => rule.feature.isSome && rule.state.isSome
  let featureParamRules := query.rules.filter fun rule => rule.feature.isSome && rule.param.isSome
  { query := query
    fieldRules := fieldRules
    featureStateRules := featureStateRules
    featureParamRules := featureParamRules
    expensiveFieldRules := fieldRules.filter fun rule => rule.about CephAdmin.expensiveFieldRules
    cheapFieldRules := fieldRules.filter fun rule => !rule.about CephAdmin.expensiveFieldRules
    filterFeatures := featureStateRules.filterMap BucketFilterRule.feature }

namespace CephAdminAdvancedFilterPlan

/-- An expensive rule is about one of the fields. -/
def looksUp (plan : CephAdminAdvancedFilterPlan) (fields : List String) : Bool :=
  plan.expensiveFieldRules.any fun rule => rule.about fields

def requiresTagLookup (plan : CephAdminAdvancedFilterPlan) : Bool := plan.looksUp ["tag"]

def requiresOwnerNameLookup (plan : CephAdminAdvancedFilterPlan) : Bool :=
  plan.looksUp ["owner_name"]

/-- The owner attributes that expensive rules look up. -/
def ownerAttributes (plan : CephAdminAdvancedFilterPlan) : List String :=
  (if plan.looksUp ownerStatusFields then ["suspended"] else []) ++
    (if plan.looksUp (ownerQuotaFields ++ ownerUsagePercentFields) then ["quota"] else []) ++
    (if plan.looksUp (ownerUsageFields ++ ownerUsagePercentFields) then ["usage"] else [])

def hasExpensiveRules (plan : CephAdminAdvancedFilterPlan) : Bool :=
  !(plan.expensiveFieldRules.isEmpty && plan.featureStateRules.isEmpty &&
    plan.featureParamRules.isEmpty)

end CephAdminAdvancedFilterPlan

/-! ## The builder -/

section Builder

variable {Details Usage : Type} (helpers : Helpers Details Usage) (rgw : Rgw Details Usage)
  (request : CephAdminBucketListingRequest)

structure LoadedBucketEntries (Details : Type) where
  entries : List (BucketListingSummary Details)
  effectiveWithStats : Bool
  statsAvailable : Bool

def fetchEntries (withStats : Bool) (nameCandidates : Option (List String)) :
    Except RgwError (List (BucketListingSummary Details)) :=
  match nameCandidates with
  | none => rgw.allBuckets withStats
  | some [] => .ok []
  | some allowed_names =>
    (rgw.allBuckets withStats).map fun entries =>
      entries.filter fun entry => entry.name ∈ allowed_names

def loadEntries : Except BuildError (LoadedBucketEntries Details) :=
  let nameCandidates := if request.ownerUsageRequired then none
    else helpers.extractNameCandidates request.advancedFilter
  match fetchEntries rgw request.withStats nameCandidates with
  | .ok entries => .ok ⟨entries, request.withStats, true⟩
  | .error error =>
    if request.withStats = false ∨ error = .timeout then .error (.rgw error)
    else if request.statsRequired then .error .requiredStatsUnavailable
    else match fetchEntries rgw false nameCandidates with
      | .ok entries => .ok ⟨entries, false, false⟩
      | .error error => .error (.rgw error)

def buildSummaries (loaded : LoadedBucketEntries Details) : List (BucketListingSummary Details) :=
  if loaded.effectiveWithStats then loaded.entries
  else loaded.entries.map fun summary =>
    { summary with
      usedBytes := none
      objectCount := none
      quotaMaxSizeBytes := none
      quotaMaxObjects := none }

/-- A text that is there and not empty. -/
def filled (text : Option String) : Bool := text.any fun text => text ≠ ""

def needsOwnerMetadataBackfill (bucket : BucketListingSummary Details) (includeTenant : Bool) :
    Bool :=
  match bucket.owner with
  | none => true
  | some owner =>
    if owner = "" then true
    else includeTenant && bucket.tenant.isNone && !bucket.tenantMetadataResolved &&
      decide (helpers.ownerKindFromOwner owner ≠ .account)

def applyBucketOwnerMetadata (bucket : BucketListingSummary Details) (scope : BucketOwnerScope)
    (includeTenant : Bool) : BucketListingSummary Details :=
  { bucket with
    owner := if !filled bucket.owner && filled scope.owner then scope.owner else bucket.owner
    tenant := if includeTenant && bucket.tenant.isNone && filled scope.tenant then scope.tenant
      else bucket.tenant
    tenantMetadataResolved :=
      if includeTenant && scope.tenantMetadataResolved then true
      else bucket.tenantMetadataResolved }

def backfillBucketOwnerMetadata (includeTenant : Bool)
    (buckets : List (BucketListingSummary Details)) : List (BucketListingSummary Details) :=
  buckets.map fun bucket =>
    if needsOwnerMetadataBackfill helpers bucket includeTenant then
      match rgw.bucketInfo bucket.name with
      | none => bucket
      | some scope => applyBucketOwnerMetadata bucket scope includeTenant
    else bucket

def backfillOwnerMetadata (results : List (BucketListingSummary Details)) :
    List (BucketListingSummary Details) :=
  if request.needsOwnerMetadata = false then results
  else backfillBucketOwnerMetadata helpers rgw request.needsTenantMetadata results

def applyCheapFieldRules (plan : CephAdminAdvancedFilterPlan)
    (results : List (BucketListingSummary Details)) : List (BucketListingSummary Details) :=
  if plan.cheapFieldRules.isEmpty then results
  else if plan.query.matching = .all then
    results.filter fun bucket => plan.cheapFieldRules.all (helpers.matchBucketFieldRule bucket)
  else if plan.hasExpensiveRules then results
  else results.filter fun bucket =>
    plan.cheapFieldRules.any (helpers.matchBucketFieldRule bucket)

def enrichOwnerNames (candidates : List (BucketListingSummary Details)) :
    List (BucketListingSummary Details) :=
  let ownerScope := determineOwnerNameLookupScope fold request.advancedFilter
  candidates.map fun bucket =>
    { bucket with
      ownerName := match bucket.owner with
        | none => none
        | some owner =>
          if owner = "" then none
          else if ownerScope.any fun kind => helpers.ownerKindFromOwner owner ≠ kind then none
          else rgw.ownerName ownerScope bucket.tenant owner }

def enrichExpensiveCandidates (plan : CephAdminAdvancedFilterPlan)
    (ownerUsageByKey : Option Usage) (candidates : List (BucketListingSummary Details)) :
    List (BucketListingSummary Details) :=
  let candidates :=
    if plan.requiresOwnerNameLookup then enrichOwnerNames fold helpers rgw request candidates
    else candidates
  let candidates :=
    if plan.ownerAttributes.isEmpty then candidates
    else rgw.applyOwnerEnrichment plan.ownerAttributes ownerUsageByKey candidates
  if plan.filterFeatures.isEmpty && !plan.requiresTagLookup then candidates
  else rgw.enrichBuckets (plan.filterFeatures.filter fun feature => feature ≠ "tags")
    (plan.requiresTagLookup || decide ("tags" ∈ plan.filterFeatures)) candidates

def matchesFeatureParamCandidate (plan : CephAdminAdvancedFilterPlan)
    (bucket : BucketListingSummary Details) : Bool :=
  match rgw.featureParams plan.featureParamRules bucket with
  | none => false
  | some snapshot =>
    if plan.query.matching = .all then
      plan.fieldRules.all (helpers.matchBucketFieldRule bucket) &&
        plan.featureStateRules.all (helpers.matchBucketFeatureRule bucket) &&
        helpers.matchBucketFeatureParamRules plan.featureParamRules plan.query.matching snapshot
    else
      plan.fieldRules.any (helpers.matchBucketFieldRule bucket) ||
        plan.featureStateRules.any (helpers.matchBucketFeatureRule bucket) ||
        helpers.matchBucketFeatureParamRules plan.featureParamRules plan.query.matching snapshot

def matchesNonparamCandidate (plan : CephAdminAdvancedFilterPlan)
    (bucket : BucketListingSummary Details) : Bool :=
  if plan.query.matching = .all then
    plan.expensiveFieldRules.all (helpers.matchBucketFieldRule bucket) &&
      plan.featureStateRules.all (helpers.matchBucketFeatureRule bucket)
  else
    plan.expensiveFieldRules.any (helpers.matchBucketFieldRule bucket) ||
      plan.featureStateRules.any (helpers.matchBucketFeatureRule bucket)

def applyExpensiveRules (plan : CephAdminAdvancedFilterPlan) (ownerUsageByKey : Option Usage)
    (results : List (BucketListingSummary Details)) : List (BucketListingSummary Details) :=
  let cheap := plan.featureParamRules.isEmpty && decide (plan.query.matching = .any) &&
    !plan.cheapFieldRules.isEmpty
  let cheaplyMatched := fun bucket : BucketListingSummary Details =>
    plan.cheapFieldRules.any (helpers.matchBucketFieldRule bucket)
  let fieldMatched := if cheap then results.filter cheaplyMatched else []
  let candidates := if cheap then results.filter fun bucket => !cheaplyMatched bucket else results
  let candidates :=
    enrichExpensiveCandidates fold helpers rgw request plan ownerUsageByKey candidates
  if plan.featureParamRules.isEmpty then
    fieldMatched ++ candidates.filter (matchesNonparamCandidate helpers plan)
  else candidates.filter (matchesFeatureParamCandidate helpers rgw plan)

def applyAdvancedFilter (ownerUsageByKey : Option Usage)
    (results : List (BucketListingSummary Details)) : List (BucketListingSummary Details) :=
  match request.advancedFilter with
  | none => results
  | some query =>
    if query.rules.isEmpty then results
    else
      let plan := CephAdminAdvancedFilterPlan.fromQuery query
      let results := applyCheapFieldRules helpers plan results
      if plan.hasExpensiveRules then
        (applyExpensiveRules fold helpers rgw request plan ownerUsageByKey results).map
          fun bucket => { bucket with details := none }
      else results

/-- Texts and numbers of one field are not mixed. -/
def sortValue (sortBy : String) (bucket : BucketListingSummary Details) : ℤ ×ₗ String :=
  if sortBy = "tenant" then toLex (0, helpers.lower (bucket.tenant.getD ""))
  else if sortBy = "owner" then toLex (0, helpers.lower (bucket.owner.getD ""))
  else if sortBy = "used_bytes" then toLex (bucket.usedBytes.getD 0, "")
  else if sortBy = "object_count" then toLex (bucket.objectCount.getD 0, "")
  else toLex (0, helpers.lower bucket.name)

def sortResults (results : List (BucketListingSummary Details)) :
    List (BucketListingSummary Details) :=
  if request.sortDir = "desc" then
    Lists.sortedBy (fun bucket => OrderDual.toDual (sortValue helpers request.sortBy bucket)) results
  else Lists.sortedBy (sortValue helpers request.sortBy) results

def build : Except BuildError (CephAdminBucketListingSnapshot Details Usage) :=
  match loadEntries helpers rgw request with
  | .error error => .error error
  | .ok loaded =>
    let results := backfillOwnerMetadata helpers rgw request (buildSummaries loaded)
    let ownerUsageByKey :=
      if loaded.effectiveWithStats && !results.isEmpty then
        some (helpers.computeBucketOwnerUsage results)
      else none
    let results := applyAdvancedFilter fold helpers rgw request ownerUsageByKey results
    .ok ⟨sortResults helpers request results, loaded.statsAvailable, ownerUsageByKey⟩

end Builder

/-! ## What a page shows of a snapshot -/

section Page

variable {Details Usage : Type} (contains : String → String → Bool) (lower : String → String)

/-- `filter_value in text` -/
def applySimpleFilter (request : CephAdminBucketListingRequest)
    (results : List (BucketListingSummary Details)) : List (BucketListingSummary Details) :=
  match request.simpleFilter with
  | none => results
  | some simpleFilter =>
    if simpleFilter = "" then results
    else
      let filterValue := lower simpleFilter
      if request.advancedFilter.isSome then
        results.filter fun bucket => contains filterValue (lower bucket.name)
      else results.filter fun bucket =>
        contains filterValue (lower bucket.name) ||
          contains filterValue (lower (bucket.tenant.getD "")) ||
          contains filterValue (lower (bucket.owner.getD ""))

/-- The rows of the request, and the physical targets that its UI tags are looked up for. -/
def served (request : CephAdminBucketListingRequest)
    (snapshot : CephAdminBucketListingSnapshot Details Usage) :
    List (BucketListingSummary Details) × List (String × String) :=
  let rows := applySimpleFilter contains lower request snapshot.items
  (rows, rows.map fun bucket => (bucket.tenant.getD "", bucket.name))

end Page

end BucketReef.CephAdmin

import BucketReef.Listing.CephAdminSnapshot

/-!
# Which bucket a detail is read from

Details of a listed bucket are read over S3 twice, while the advanced filter is applied and for the
page that is returned. The first pass names the bucket with its tenant, the second by its plain name.
-/

namespace BucketReef.CephAdmin

structure BucketFeatureStatus where
  state : String
  tone : String
  deriving DecidableEq

structure BucketTag where
  key : String
  value : String
  deriving DecidableEq

def bucketPropertyFeatures : List String :=
  ["versioning", "object_lock", "block_public_access", "lifecycle_rules", "cors"]

def columnDetailPropsKeys : List String :=
  ["object_lock_mode", "object_lock_retention_days", "object_lock_retention_years",
    "bpa_block_public_acls", "bpa_ignore_public_acls", "bpa_block_public_policy",
    "bpa_restrict_public_buckets", "cors_allowed_methods", "cors_allowed_origins"]

def columnDetailLifecycleKeys : List String :=
  ["lifecycle_expiration_days", "lifecycle_noncurrent_expiration_days",
    "lifecycle_transition_days", "lifecycle_abort_multipart_days"]

def unavailableFeatureStatus : BucketFeatureStatus := ⟨"Unavailable", "unknown"⟩

/-- What the S3 calls for one bucket say; `property` is `none` where the call fails. -/
structure S3Config where
  property : String → Option BucketFeatureStatus
  configuration : String → BucketFeatureStatus
  columnDetail : List String → String → String
  tags : List BucketTag

def usePropertiesBundle (requested : List String) : Bool :=
  decide (1 < (bucketPropertyFeatures.filter fun key => key ∈ requested).length) ||
    columnDetailPropsKeys.any fun key => key ∈ requested

/-- The lifecycle is read alone when its column details are asked for. -/
def fromBundle (requested : List String) (feature : String) : Bool :=
  usePropertiesBundle requested && !(decide (feature = "lifecycle_rules") &&
    columnDetailLifecycleKeys.any fun key => key ∈ requested)

/-- All calls of the bundle succeed. -/
def S3Config.readable (config : S3Config) : Bool :=
  bucketPropertyFeatures.all fun key => (config.property key).isSome

/-- A bundle that fails in one call shows none of its features. -/
def S3Config.feature (config : S3Config) (requested : List String) (feature : String) :
    BucketFeatureStatus :=
  if feature ∈ bucketPropertyFeatures then
    if fromBundle requested feature && !config.readable then unavailableFeatureStatus
    else (config.property feature).getD unavailableFeatureStatus
  else config.configuration feature

/-- The state of all buckets, by the name that an S3 call gives. -/
abbrev RemoteState := String → S3Config

structure BucketDetails where
  features : List (String × BucketFeatureStatus)
  columnDetails : List (String × String)
  tags : Option (List BucketTag)

abbrev Bucket := BucketListingSummary BucketDetails

/-- The status of a feature, where one is shown. -/
def Bucket.status (bucket : Bucket) (feature : String) : Option BucketFeatureStatus :=
  bucket.details.bind fun details => details.features.lookup feature

def Bucket.tags (bucket : Bucket) : List BucketTag :=
  (bucket.details.bind BucketDetails.tags).getD []

variable (strip : String → String)

/-- `RgwBucketTarget.create(..).s3_name`; the name of a listed bucket has no blanks at its ends and no
colon, so `create` takes it as it is. -/
def s3BucketName (bucket : Bucket) : String :=
  let tenant := strip (bucket.tenant.getD "")
  if tenant = "" then bucket.name else tenant ++ ":" ++ bucket.name

/-! ## Enrichment -/

section Enrichment

variable (remote : RemoteState) (resolver : Bucket → String) (requested : List String)
  (includeTags : Bool)

def enrich (bucket : Bucket) : Bucket :=
  let config := remote (resolver bucket)
  let featureMap := (bucketFeatureIncludes.filter fun key => key ∈ requested).map
    fun key => (key, config.feature requested key)
  let columnDetails := (columnDetailKeys.filter fun key => key ∈ requested).map
    fun key => (key, config.columnDetail requested key)
  if featureMap.isEmpty && columnDetails.isEmpty && !includeTags then bucket
  else
    let stored := bucket.details.getD ⟨[], [], none⟩
    { bucket with
      details := some
        { features := if featureMap.isEmpty then stored.features else featureMap
          columnDetails :=
            if columnDetails.isEmpty then stored.columnDetails else columnDetails
          tags := if includeTags then some config.tags else stored.tags } }

def enrichBuckets (buckets : List Bucket) : List Bucket :=
  if requested.isEmpty && !includeTags then buckets
  else buckets.map (enrich remote resolver requested includeTags)

/-- The reads of an enrichment: each bucket with the name its calls give. -/
def detailReads (buckets : List Bucket) : List (Bucket × String) :=
  if requested.isEmpty && !includeTags then []
  else buckets.map fun bucket => (bucket, resolver bucket)

end Enrichment

/-- How rules are matched on details, and what the owner's attributes and the feature parameters are. -/
structure DetailMatchers (Usage : Type) where
  featureState : BucketFilterRule → Option BucketFeatureStatus → Bool
  tag : BucketFilterRule → List BucketTag → Bool
  ownerDetails : List String → Option Usage → Bucket → List (String × ℤ)
  params : List BucketFilterRule → S3Config → Option BucketDetails

section Filtering

variable {Usage : Type} (matchers : DetailMatchers Usage)

/-- Rules on features and tags read the details of the bucket; other rules are as given. -/
def detailHelpers (base : Helpers BucketDetails Usage) : Helpers BucketDetails Usage :=
  { base with
    matchBucketFeatureRule := fun bucket rule =>
      matchers.featureState rule (rule.feature.bind (Bucket.status bucket))
    matchBucketFieldRule := fun bucket rule =>
      if rule.field = some "tag" then matchers.tag rule (Bucket.tags bucket)
      else base.matchBucketFieldRule bucket rule }

/-- The filter pass names each bucket with its tenant. -/
def detailRgw (remote : RemoteState) (base : Rgw BucketDetails Usage) : Rgw BucketDetails Usage :=
  { base with
    applyOwnerEnrichment := fun attributes usage buckets => buckets.map fun bucket =>
      { bucket with ownerDetails := matchers.ownerDetails attributes usage bucket }
    enrichBuckets := fun features tags buckets =>
      enrichBuckets remote (s3BucketName strip) features tags buckets
    featureParams := fun rules bucket =>
      matchers.params rules (remote (s3BucketName strip bucket)) }

/-- The reads of the filter pass for its candidates, for features and tags and for parameters. -/
def filterReads (plan : CephAdminAdvancedFilterPlan) (candidates : List Bucket) :
    List (Bucket × String) :=
  (if plan.filterFeatures.isEmpty && !plan.requiresTagLookup then []
    else detailReads (s3BucketName strip)
      (plan.filterFeatures.filter fun feature => feature ≠ "tags")
      (plan.requiresTagLookup || decide ("tags" ∈ plan.filterFeatures)) candidates) ++
    if plan.featureParamRules.isEmpty then []
    else candidates.map fun bucket => (bucket, s3BucketName strip bucket)

end Filtering

/-! ## The page -/

section Page

variable {Usage : Type} (helpers : Helpers BucketDetails Usage) (rgw : Rgw BucketDetails Usage)
  (contains : String → String → Bool) (tagFilter : Bucket → Bool)
  (request : CephAdminBucketListingRequest)

/-- The rows of the page, with their owners and, where owner columns are asked for, their tenants. -/
def page_rows (snapshot : CephAdminBucketListingSnapshot BucketDetails Usage) (page pageSize : ℕ) :
    List Bucket :=
  let filtered := (applySimpleFilter contains helpers.lower request snapshot.items).filter tagFilter
  let pageItems := (filtered.drop ((page - 1) * pageSize)).take pageSize
  backfillBucketOwnerMetadata helpers rgw
    (request.wantsOwnerName || request.wantsOwnerSuspended || request.wantsOwnerQuota ||
      request.wantsOwnerQuotaUsage) pageItems

def requestedDetails : List String := request.requestedFeatures ++ request.requestedDetailFields

/-- No name resolver is given here, so the name is the plain one. -/
def enrichBucketDetails (remote : RemoteState) (pageItems : List Bucket) : List Bucket :=
  enrichBuckets remote BucketListingSummary.name (requestedDetails request) request.includeTags
    pageItems

def pageReads (pageItems : List Bucket) : List (Bucket × String) :=
  detailReads BucketListingSummary.name (requestedDetails request) request.includeTags pageItems

end Page

end BucketReef.CephAdmin

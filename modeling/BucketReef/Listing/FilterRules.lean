import BucketReef.Listing.PhysicalReads
import Mathlib

/-!
# How a filter rule reads a bucket

A rule on a field compares one value of the listed bucket, a rule on a feature the status that is
shown for it. Exact rules on the name also narrow the entries before anything else is done.
-/

namespace BucketReef.CephAdmin

/-- The value of a field; a number is exact. -/
inductive FieldValue
  | text (value : String)
  | kind (value : OwnerKind)
  | number (value : ℚ)
  deriving DecidableEq

/-- The functions of Python that rules are compared with. -/
structure RuleLib where
  strip : String → String
  lower : String → String
  contains : String → String → Bool
  startsWith : String → String → Bool
  endsWith : String → String → Bool
  /-- `str(value or "")` and `str(value)` of a value that is no text. -/
  orEmpty : FilterValue → String
  spelled : FilterValue → String
  /-- The items of a list of numbers or truth values, as they are spelled. -/
  otherItems : String → Option (List String)
  /-- `raw.strip().lower().replace("-", "_")`. -/
  fold : String → String
  /-- A truth value, and a number, under the operation and the value of a rule. -/
  matchBooleanRule : Option FieldValue → BucketFilterRule → Bool
  matchNumericRule : FieldValue → BucketFilterRule → Bool

namespace RuleLib

variable (lib : RuleLib)

def normalizeText (text : String) : String := lib.lower (lib.strip text)

/-- `str(value or "")`. -/
def scalarText : FilterValue → String
  | .text value => value
  | .null => ""
  | value => lib.orEmpty value

/-- `str(value)`. -/
def valueText : FilterValue → String
  | .text value => value
  | value => lib.spelled value

/-- The items of a value that is a list. -/
def items : FilterValue → Option (List String)
  | .list values => some values
  | .other written => lib.otherItems written
  | _ => none

end RuleLib

/-! ## The candidates of the name -/

section Candidates

variable (lib : RuleLib)

def exactNameRuleValues (rule : BucketFilterRule) : Option (List String) :=
  if rule.op = some "in" then
    (lib.items rule.value).map fun values => (values.map lib.strip).filter fun value => value ≠ ""
  else if rule.op = some "eq" ∧ rule.value ≠ .null then
    let value := lib.strip (lib.valueText rule.value)
    some (if value = "" then [] else [value])
  else none

/-- The exact values of the rules on the name; `none` where a rule of `any` is not exact. -/
def exactRules (query : BucketFilterQuery) : Option (List (List String)) :=
  match query.matching with
  | .all => some ((query.rules.filter fun rule => rule.field = some "name").filterMap
      (exactNameRuleValues lib))
  | .any => query.rules.mapM fun rule =>
      if rule.field = some "name" then exactNameRuleValues lib rule else none

def mergedNames (matching : FilterMatch) : List (List String) → List String
  | [] => []
  | first :: rest => rest.foldl (fun candidates values =>
      match matching with
      | .all => candidates.filter fun value => value ∈ values
      | .any => candidates ++ values) first

def extractNameCandidates (query : Option BucketFilterQuery) : Option (List String) :=
  match query with
  | none => none
  | some query =>
    match exactRules lib query with
    | none => none
    | some [] => none
    | some rules => some (Lists.sortedBy id (mergedNames query.matching rules).dedup)

end Candidates

/-! ## Rules on fields -/

section Fields

variable (lib : RuleLib)

/-- A text under a rule; a value or an item that its normalizer rejects matches nothing. -/
def matchTextRule (scalar : FilterValue → Option String) (candidate : String → Option String)
    (requireCandidates : Bool) (left : String) (rule : BucketFilterRule) : Bool :=
  let compared := fun holds : String → Bool => (scalar rule.value).any holds
  let listed := fun holds : List String → Bool => (lib.items rule.value).any fun values =>
    let candidates := values.filterMap candidate
    !(requireCandidates && candidates.isEmpty) && holds candidates
  match rule.op with
  | some "contains" => compared fun right => lib.contains left right
  | some "starts_with" => compared fun right => lib.startsWith left right
  | some "ends_with" => compared fun right => lib.endsWith left right
  | some "eq" => compared fun right => left = right
  | some "neq" => compared fun right => left ≠ right
  | some "in" => listed fun candidates => left ∈ candidates
  | some "not_in" => listed fun candidates => left ∉ candidates
  | _ => false

/-- `match_text_rule` with the normalizers it has by default. -/
def matchPlainTextRule (text : String) (rule : BucketFilterRule) : Bool :=
  matchTextRule lib (fun value => some (lib.normalizeText (lib.scalarText value)))
    (fun item => some (lib.normalizeText item)) false (lib.normalizeText text) rule

def OwnerKind.text : OwnerKind → String
  | .account => "account"
  | .user => "user"

def normalizeOwnerKindScalar (value : FilterValue) : Option String :=
  let normalized := lib.normalizeText (lib.scalarText value)
  let kind := match value with
    | .text raw => normalizeOwnerKind lib.fold raw
    | _ => none
  match kind with
  | some kind => some kind.text
  | none => if normalized = "" then none else some normalized

def matchOwnerKindRule (kind : OwnerKind) (rule : BucketFilterRule) : Bool :=
  matchTextRule lib (normalizeOwnerKindScalar lib)
    (fun item => (normalizeOwnerKind lib.fold item).map OwnerKind.text) true kind.text rule

/-- The share of a quota in percent. -/
def computeUsageRatioPercent (used quota : Option ℤ) : Option FieldValue :=
  match used, quota with
  | some used, some quota =>
    if quota ≤ 0 then none else some (.number (max 0 ((used : ℚ) / quota * 100)))
  | _, _ => none

variable {Details : Type} (ownerKindFromOwner : String → OwnerKind)

def bucketFieldValue (bucket : BucketListingSummary Details) (field : String) :
    Option FieldValue :=
  let ownerNumber := fun key => bucket.ownerDetails.lookup key
  let number := fun value : Option ℤ => value.map fun value => FieldValue.number value
  if field = "name" then some (.text bucket.name)
  else if field = "tenant" then bucket.tenant.map .text
  else if field = "owner" then bucket.owner.map .text
  else if field = "owner_name" then bucket.ownerName.map .text
  else if field = "owner_kind" then
    bucket.owner.bind fun owner =>
      if owner = "" then none else some (.kind (ownerKindFromOwner owner))
  else if field = "used_bytes" then number bucket.usedBytes
  else if field = "object_count" then number bucket.objectCount
  else if field = "quota_max_size_bytes" then number bucket.quotaMaxSizeBytes
  else if field = "quota_max_objects" then number bucket.quotaMaxObjects
  else if field = "quota_usage_size_percent" then
    computeUsageRatioPercent bucket.usedBytes bucket.quotaMaxSizeBytes
  else if field = "quota_usage_object_percent" then
    computeUsageRatioPercent bucket.objectCount bucket.quotaMaxObjects
  else if field = "owner_quota_usage_size_percent" then
    computeUsageRatioPercent (ownerNumber "owner_used_bytes")
      (ownerNumber "owner_quota_max_size_bytes")
  else if field = "owner_quota_usage_object_percent" then
    computeUsageRatioPercent (ownerNumber "owner_object_count")
      (ownerNumber "owner_quota_max_objects")
  else if field ∈ ownerStatusFields ++ ownerQuotaFields ++ ownerUsageFields then
    number (ownerNumber field)
  else none

def matchBucketScalarRule (field : String) (value : Option FieldValue)
    (rule : BucketFilterRule) : Bool :=
  if rule.op = some "is_null" then value.isNone
  else if rule.op = some "not_null" then value.isSome
  else if field = "owner_suspended" then lib.matchBooleanRule value rule
  else match value with
    | none => false
    | some (.kind kind) => matchOwnerKindRule lib kind rule
    | some (.text text) => matchPlainTextRule lib text rule
    | some (.number number) => lib.matchNumericRule (.number number) rule

/-- Rules on tags are matched on the tags. -/
def matchBucketFieldRule (bucket : BucketListingSummary Details) (rule : BucketFilterRule) :
    Bool :=
  match rule.field with
  | none => false
  | some field =>
    rule.op.isSome &&
      matchBucketScalarRule lib field (bucketFieldValue ownerKindFromOwner bucket field) rule

end Fields

/-! ## Rules on features -/

section Features

variable (lib : RuleLib)

def matchesDisabledFeature (feature state tone : String) : Bool :=
  if feature = "versioning" then
    decide (state = "disabled") || (decide (tone = "inactive") && decide (state ≠ "suspended"))
  else decide (tone = "inactive") || decide (state = "suspended")

def matchesDisabledOrSuspendedFeature (feature state tone : String) : Bool :=
  if feature = "versioning" then
    decide (state ∈ ["disabled", "suspended"]) || decide (tone = "inactive")
  else matchesDisabledFeature feature state tone

def exactFeatureStates : List String :=
  ["partial", "suspended", "configured", "not_set", "unavailable"]

/-- `underscored` is `state.strip().lower().replace(" ", "_")`. -/
def matchBucketFeatureRule (underscored : String → String) (rule : BucketFilterRule)
    (status : Option BucketFeatureStatus) : Bool :=
  match rule.feature with
  | none => false
  | some feature =>
    let desired := lib.normalizeText (rule.state.getD "")
    match status with
    | none => desired ∈ ["unknown", "unavailable"]
    | some status =>
      let state := underscored status.state
      if desired = "enabled" then status.tone = "active"
      else if desired = "disabled" then matchesDisabledFeature feature state status.tone
      else if desired = "disabled_or_suspended" then
        matchesDisabledOrSuspendedFeature feature state status.tone
      else if desired = "unknown" then status.tone = "unknown"
      else decide (desired ∈ exactFeatureStates) && decide (state = desired)

end Features

/-! ## The functions of the builder -/

/-- What the Admin Ops API says of the owner of a bucket: each attribute is read on its own, and only
the usage depends on the usage computed from the listing. -/
structure OwnerAttributes (Usage : Type) where
  suspended : Bucket → List (String × ℤ)
  quota : Bucket → List (String × ℤ)
  usage : Option Usage → Bucket → List (String × ℤ)

def OwnerAttributes.ownerDetails {Usage : Type} (attributes : OwnerAttributes Usage)
    (names : List String) (usage : Option Usage) (bucket : Bucket) : List (String × ℤ) :=
  (if "suspended" ∈ names then attributes.suspended bucket else []) ++
    (if "quota" ∈ names then attributes.quota bucket else []) ++
    (if "usage" ∈ names then attributes.usage usage bucket else [])

/-- Everything outside of the builder: texts, tags and parameters, and the two remote APIs. -/
structure Listing (Usage : Type) where
  lib : RuleLib
  underscored : String → String
  matchTagRule : BucketFilterRule → List BucketTag → Bool
  matchBucketFeatureParamRules : List BucketFilterRule → FilterMatch → BucketDetails → Bool
  ownerKindFromOwner : String → OwnerKind
  computeBucketOwnerUsage : List Bucket → Usage
  attributes : OwnerAttributes Usage
  /-- The parameters of a bucket, `none` where they cannot be read. -/
  params : List BucketFilterRule → S3Config → Option BucketDetails
  allBuckets : Bool → Except RgwError (List Bucket)
  bucketInfo : String → Option BucketOwnerScope
  ownerName : Option OwnerKind → Option String → String → Option String
  remote : RemoteState

namespace Listing

variable {Usage : Type} (listing : Listing Usage)

def matchers : DetailMatchers Usage where
  featureState := CephAdmin.matchBucketFeatureRule listing.lib listing.underscored
  tag := listing.matchTagRule
  ownerDetails := listing.attributes.ownerDetails
  params := listing.params

def helpers : Helpers BucketDetails Usage :=
  detailHelpers listing.matchers
    { lower := listing.lib.lower
      extractNameCandidates := CephAdmin.extractNameCandidates listing.lib
      ownerKindFromOwner := listing.ownerKindFromOwner
      computeBucketOwnerUsage := listing.computeBucketOwnerUsage
      matchBucketFieldRule :=
        CephAdmin.matchBucketFieldRule listing.lib listing.ownerKindFromOwner
      matchBucketFeatureRule := fun _ _ => false
      matchBucketFeatureParamRules := listing.matchBucketFeatureParamRules }

def rgw : Rgw BucketDetails Usage :=
  detailRgw listing.lib.strip listing.matchers listing.remote
    { allBuckets := listing.allBuckets
      bucketInfo := listing.bucketInfo
      ownerName := listing.ownerName
      applyOwnerEnrichment := fun _ _ buckets => buckets
      enrichBuckets := fun _ _ buckets => buckets
      featureParams := fun _ _ => none }

/-- `CephAdminBucketSnapshotBuilder.build`. -/
def snapshot (request : CephAdminBucketListingRequest) :
    Except BuildError (CephAdminBucketListingSnapshot BucketDetails Usage) :=
  build listing.lib.fold listing.helpers listing.rgw request

end Listing

end BucketReef.CephAdmin

import BucketReef.Lists.Sorted
import Mathlib.Data.String.Basic

/-!
# Requests of the Ceph Admin bucket listing

What a listing request needs is derived from its filters, its sort and its includes. The cache key of
the snapshot stores some of these needs.
-/

namespace BucketReef.CephAdmin

inductive FilterMatch
  | all
  | any
  deriving DecidableEq

inductive FilterValue
  | null
  | text (value : String)
  | list (values : List String)
  | other (written : String)
  deriving DecidableEq

structure BucketFilterRule where
  field : Option String
  op : Option String
  value : FilterValue
  feature : Option String
  state : Option String
  param : Option String
  quantifier : Option String
  deriving DecidableEq

structure BucketFilterQuery where
  matching : FilterMatch
  rules : List BucketFilterRule
  deriving DecidableEq

/-- The rule is about one of the fields. -/
def BucketFilterRule.about (rule : BucketFilterRule) (fields : List String) : Bool :=
  rule.field.any fun field => field ∈ fields

def ownerQuotaFields : List String := ["owner_quota_max_size_bytes", "owner_quota_max_objects"]

def ownerStatusFields : List String := ["owner_suspended"]

def ownerUsageFields : List String := ["owner_used_bytes", "owner_object_count"]

def ownerUsagePercentFields : List String :=
  ["owner_quota_usage_size_percent", "owner_quota_usage_object_percent"]

def ownerEnrichedFields : List String :=
  ownerStatusFields ++ ownerQuotaFields ++ ownerUsageFields ++ ownerUsagePercentFields

def ownerDetailFields : List String := "owner_name" :: ownerEnrichedFields

def expensiveFieldRules : List String := "tag" :: ownerDetailFields

inductive OwnerKind
  | account
  | user
  deriving DecidableEq

variable (fold : String → String)

/-- `fold` is `raw.strip().lower().replace("-", "_")`. -/
def normalizeOwnerKind (raw : String) : Option OwnerKind :=
  if fold raw ∈ ["account", "accounts", "acct"] then some .account
  else if fold raw ∈ ["user", "users"] then some .user
  else none

def ownerKindRuleValues (rule : BucketFilterRule) : List OwnerKind :=
  match rule.op, rule.value with
  | some "eq", .text value => (normalizeOwnerKind fold value).toList
  | some "neq", .text value => (normalizeOwnerKind fold value).toList
  | some "in", .list values => values.filterMap (normalizeOwnerKind fold)
  | some "not_in", .list values => values.filterMap (normalizeOwnerKind fold)
  | _, _ => []

def applyOwnerKindRule (allowed : List OwnerKind) (rule : BucketFilterRule) : List OwnerKind :=
  let values := ownerKindRuleValues fold rule
  if values = [] then allowed
  else if rule.op = some "eq" ∨ rule.op = some "in" then allowed.filter fun kind => kind ∈ values
  else allowed.filter fun kind => kind ∉ values

/-- `none` is the scope `any`. -/
def determineOwnerNameLookupScope (query : Option BucketFilterQuery) : Option OwnerKind :=
  match query with
  | none => none
  | some query =>
    if query.matching = .any then none
    else
      let ownerKindRules := query.rules.filter fun rule => rule.field = some "owner_kind"
      match ownerKindRules.foldl (applyOwnerKindRule fold) [.account, .user] with
      | [kind] => some kind
      | _ => none

def filterRequiresOwnerUsage (query : Option BucketFilterQuery) : Bool :=
  query.any fun query =>
    query.rules.any fun rule => rule.about (ownerUsageFields ++ ownerUsagePercentFields)

def filterRequiresOwnerMetadata (query : Option BucketFilterQuery) : Bool :=
  query.any fun query =>
    query.rules.any fun rule => rule.about (["owner", "owner_kind", "tenant"] ++ ownerDetailFields)

def filterRequiresTenantMetadata (query : Option BucketFilterQuery) : Bool :=
  query.any fun query =>
    if query.rules.any fun rule => rule.field = some "tenant" then true
    else if query.rules.any fun rule => rule.about ownerDetailFields then
      determineOwnerNameLookupScope fold (some query) ≠ some .account
    else false

/-- A simple filter that is there and not empty. -/
def present (simpleFilter : Option String) : Bool :=
  simpleFilter.any fun text => text ≠ ""

def requestRequiresOwnerMetadata (query : Option BucketFilterQuery) (sortBy : String)
    (simpleFilter : Option String) : Bool :=
  filterRequiresOwnerMetadata query || decide (sortBy ∈ ["tenant", "owner"]) ||
    present simpleFilter

def requestRequiresTenantMetadata (query : Option BucketFilterQuery) (sortBy : String)
    (simpleFilter : Option String) : Bool :=
  filterRequiresTenantMetadata fold query || decide (sortBy = "tenant") || present simpleFilter

def statsFields : List String :=
  ["used_bytes", "object_count", "quota_max_size_bytes", "quota_max_objects",
    "quota_usage_size_percent", "quota_usage_object_percent"] ++ ownerUsageFields ++
    ownerUsagePercentFields

def requestRequiresBucketStats (query : Option BucketFilterQuery) (sortBy : String) : Bool :=
  decide (sortBy ∈ ["used_bytes", "object_count"]) ||
    query.any fun query => query.rules.any fun rule => rule.about statsFields

end BucketReef.CephAdmin

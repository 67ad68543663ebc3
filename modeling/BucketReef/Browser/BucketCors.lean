import BucketReef.Lists.Text
import Mathlib.Data.Int.Notation
import Mathlib.Data.Nat.Notation

/-!
# The CORS rules of a bucket

The status the browser reads from a bucket's CORS rules and the repair it makes, beside how the
storage side evaluates the rules for a request. Header names and methods are ASCII. The parts of a
rule that are Python sets are enumerated in an order that is left open.
-/

namespace BucketReef
namespace BucketCors

open Text

/-- A rule as the storage service returns it; a missing list is `none`. -/
structure CorsRule where
  id : Option String := none
  allowedOrigins : Option (List String)
  allowedMethods : Option (List String)
  allowedHeaders : Option (List String)
  exposeHeaders : Option (List String)
  maxAgeSeconds : Option ℤ
  deriving DecidableEq, Repr

/-- `rule.get(_) or []` -/
def values (field : Option (List String)) : List String := field.getD []

def requiredMethods : List String := ["GET", "PUT", "POST", "HEAD"]

def managedMethods : List String := ["GET", "PUT", "POST", "DELETE", "HEAD"]

/-- In sorted order. -/
def managedHeaders : List String := ["Content-Type", "x-amz-*"]

def managedExposeHeaders : List String := ["ETag", "x-amz-request-id", "x-amz-id-2"]

/-! ## The status -/

/-- `_cors_rule_matches_origin` -/
def matchesOrigin (rule : CorsRule) (origin : String) : Bool :=
  (values rule.allowedOrigins).contains "*" || (values rule.allowedOrigins).contains origin

/-- `_cors_header_allowed` -/
def headerAllowed (allowedHeaders : List String) (header : String) : Bool :=
  allowedHeaders.any fun entry =>
    let pattern := (lower entry).toList
    pattern = ['*'] || pattern = (lower header).toList ||
      (pattern.getLast? = some '*' && pattern.dropLast.isPrefixOf (lower header).toList)

/-- `_browser_cors_rule_enabled` -/
def ruleEnabled (rule : CorsRule) (origin : String) : Bool :=
  let exposed := (values rule.exposeHeaders).map fun header => lower (strip header)
  matchesOrigin rule origin &&
    requiredMethods.all (fun method => ((values rule.allowedMethods).map upper).contains method) &&
    headerAllowed (values rule.allowedHeaders) "content-type" &&
    (exposed.contains "*" || exposed.contains "etag")

structure Status where
  enabled : Bool
  rules : List CorsRule
  error : Option String := none
  deriving DecidableEq, Repr

/-- The stored configuration, and how often one was written. -/
structure Bucket where
  name : String
  cors : Option (List CorsRule)
  puts : ℕ := 0
  deriving DecidableEq, Repr

/-- The rules of the configuration; a bucket without one has no rules. -/
def Bucket.rules (bucket : Bucket) : List CorsRule := bucket.cors.getD []

/-- The calls that raise for another reason than a missing configuration, with the texts they raise. -/
structure Failures where
  fetch : Option String := none
  update : Option String := none
  status : Option String := none

/-- `get_bucket_cors_status` -/
def getBucketCorsStatus (bucket : Bucket) (failure : Option String) (origin : Option String) : Status :=
  match failure with
  | some detail => { enabled := false, rules := [], error := some detail }
  | none =>
    match bucket.cors with
    | none => { enabled := false, rules := [] }
    | some rules =>
      match origin with
      | none => { enabled := !rules.isEmpty, rules }
      | some origin =>
        if origin = "" then { enabled := !rules.isEmpty, rules }
        else { enabled := rules.any fun rule => ruleEnabled rule origin, rules }

/-! ## The repair -/

/-- The origins to store, when they change. -/
def repairOrigins (rule : CorsRule) (origin : String) : Option (List String) :=
  let allowed := values rule.allowedOrigins
  if !allowed.contains origin && !allowed.contains "*" then some (orderedUnique (allowed ++ [origin]))
  else none

def repairMethods (rule : CorsRule) : Option (List String) :=
  let allowed := orderedUnique ((values rule.allowedMethods).map upper)
  if !managedMethods.all allowed.contains then some (orderedUnique (allowed ++ managedMethods)) else none

/-- Without headers, or with the wildcard, the managed headers are the whole list. -/
def repairHeaders (sets : SetOrder) (rule : CorsRule) : Option (List String) :=
  let allowed := values rule.allowedHeaders
  if allowed.isEmpty || allowed.contains "*" then some managedHeaders
  else if !managedHeaders.all allowed.contains then
    some (orderedUnique (sets.list allowed ++ managedHeaders))
  else none

def repairExposeHeaders (sets : SetOrder) (rule : CorsRule) : Option (List String) :=
  let exposed := values rule.exposeHeaders
  if !managedExposeHeaders.all exposed.contains then
    some (orderedUnique (sets.list exposed ++ managedExposeHeaders))
  else none

def repairMaxAge (rule : CorsRule) : Option ℤ :=
  if rule.maxAgeSeconds.isNone then some 3000 else none

/-- `_repair_browser_cors_rule`: the rule afterwards, and whether it changed. -/
def repairRule (sets : SetOrder) (rule : CorsRule) (origin : String) : CorsRule × Bool :=
  let origins := repairOrigins rule origin
  let methods := repairMethods rule
  let headers := repairHeaders sets rule
  let expose := repairExposeHeaders sets rule
  let maxAge := repairMaxAge rule
  ({ rule with
      allowedOrigins := origins.or rule.allowedOrigins
      allowedMethods := methods.or rule.allowedMethods
      allowedHeaders := headers.or rule.allowedHeaders
      exposeHeaders := expose.or rule.exposeHeaders
      maxAgeSeconds := maxAge.or rule.maxAgeSeconds },
    origins.isSome || methods.isSome || headers.isSome || expose.isSome || maxAge.isSome)

def newRule (origin : String) : CorsRule where
  allowedOrigins := some [origin]
  allowedMethods := some managedMethods
  allowedHeaders := some managedHeaders
  exposeHeaders := some managedExposeHeaders
  maxAgeSeconds := some 3000

/-- The loop over the rules: the first one that matches is repaired, otherwise a rule is added. -/
def repairRules (sets : SetOrder) (origin : String) : List CorsRule → List CorsRule × Bool
  | [] => ([newRule origin], true)
  | rule :: rest =>
    if matchesOrigin rule origin then
      let repaired := repairRule sets rule origin
      (repaired.1 :: rest, repaired.2)
    else
      let repaired := repairRules sets origin rest
      (rule :: repaired.1, repaired.2)

/-- `ensure_bucket_cors` -/
def ensureBucketCors (sets : SetOrder) (bucket : Bucket) (failures : Failures) (origin : String) :
    Except String (Bucket × Status) := do
  if origin = "" then throw "Missing origin"
  if let some detail := failures.fetch then throw s!"Unable to fetch CORS for '{bucket.name}': {detail}"
  let repaired := repairRules sets origin bucket.rules
  if !repaired.2 then return (bucket, getBucketCorsStatus bucket failures.status (some origin))
  if let some detail := failures.update then
    throw s!"Unable to update CORS for '{bucket.name}': {detail}"
  let bucket := { bucket with cors := some repaired.1, puts := bucket.puts + 1 }
  return (bucket, getBucketCorsStatus bucket failures.status (some origin))

/-! ## Evaluation by the storage service -/

/-- A browser request from an origin, with the headers its preflight asks for. -/
structure Request where
  origin : String
  method : String
  headers : List String

/-- An origin entry may have a wildcard anywhere. -/
def originAllowed (rule : CorsRule) (origin : String) : Bool :=
  (values rule.allowedOrigins).any fun entry => wildcardMatch entry origin

def methodAllowed (rule : CorsRule) (method : String) : Bool :=
  (values rule.allowedMethods).any fun entry => upper entry = upper method

def requestHeaderAllowed (rule : CorsRule) (header : String) : Bool :=
  (values rule.allowedHeaders).any fun entry => wildcardMatch (lower entry) (lower header)

def headerExposed (rule : CorsRule) (header : String) : Bool :=
  (values rule.exposeHeaders).any fun entry =>
    lower (strip entry) = "*" || lower (strip entry) = lower header

/-- The first rule that matches the origin, the method and every header of a request. -/
def evaluate (rules : List CorsRule) (request : Request) : Option CorsRule :=
  rules.find? fun rule =>
    originAllowed rule request.origin && methodAllowed rule request.method &&
      request.headers.all (requestHeaderAllowed rule)

/-- Direct transfers work: each required method with a content type has a rule, and that rule exposes
the entity tag. -/
def TransfersEnabled (rules : List CorsRule) (origin : String) : Prop :=
  ∀ method ∈ requiredMethods, ∃ rule,
    evaluate rules ⟨origin, method, ["content-type"]⟩ = some rule ∧ headerExposed rule "etag"

end BucketCors
end BucketReef

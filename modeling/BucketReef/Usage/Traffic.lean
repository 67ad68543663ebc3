import BucketReef.Lists.Sorted
import BucketReef.Lists.Table
import Mathlib.Data.List.Infix
import Mathlib.Data.Rat.Floor

/-!
# Traffic

The usage entries of an RGW payload are brought to one shape and added up by time, bucket, user,
category and request group. Datetimes are microseconds in UTC. How Python reads a number or a date from
a text, and how it spells a value that is no text, is left to a `Lib`.
-/

namespace BucketReef
namespace Traffic

/-! ## Payloads -/

inductive Json
  | null
  | bool (value : Bool)
  | int (value : ℤ)
  | float (value : ℚ)
  | str (value : String)
  | list (items : List Json)
  | dict (fields : List (String × Json))

namespace Json

/-- Python truth. -/
def truthy : Json → Bool
  | null => false
  | bool value => value
  | int value => value ≠ 0
  | float value => value ≠ 0
  | str value => value ≠ ""
  | list items => !items.isEmpty
  | dict fields => !fields.isEmpty

/-- `a or b`. -/
def or (a b : Json) : Json := if a.truthy then a else b

def isDict : Json → Bool
  | dict _ => true
  | _ => false

/-- `value.get(key)` of a dictionary. -/
def get (value : Json) (key : String) : Json :=
  match value with
  | dict fields => (fields.lookup key).getD null
  | _ => null

end Json

/-- What Python's own functions make of a text, and `str` of a value that is no text. -/
structure Lib where
  str : Json → String
  int : String → Option ℤ
  strip : String → String
  lower : String → String
  strptime : (format text : String) → Option ℤ

def Lib.text (lib : Lib) : Json → String
  | .str value => value
  | value => lib.str value

def intOrZero (lib : Lib) : Json → ℤ
  | .bool value => value.toNat
  | .int value => value
  | .float value => if 0 ≤ value then ⌊value⌋ else ⌈value⌉
  | .str value => (lib.int value).getD 0
  | _ => 0

def dictEntries : Json → List Json
  | .list items => items.filter Json.isDict
  | _ => []

def rawUsageEntries (payload : Json) : List Json :=
  match payload with
  | .dict _ =>
    dictEntries (payload.get "entries") ++
      (dictEntries (payload.get "usage")).flatMap fun user => dictEntries (user.get "entries")
  | .list _ =>
    (dictEntries payload).flatMap fun entry =>
      match entry.get "entries" with
      | .list nested => dictEntries (.list nested)
      | _ => [entry]
  | _ => []

def flattenBucketUsageEntry (entry : Json) : List Json :=
  match entry.get "buckets" with
  | .list (first :: rest) =>
    ((first :: rest).filter Json.isDict).map fun bucket => .dict [
      ("user", (entry.get "user").or (entry.get "owner")),
      ("bucket", (bucket.get "bucket").or (bucket.get "bucket_name")),
      ("owner", (bucket.get "owner").or (entry.get "user")),
      ("time", (bucket.get "time").or (entry.get "time")),
      ("epoch", (bucket.get "epoch").or (entry.get "epoch")),
      ("categories", (bucket.get "categories").or (entry.get "categories"))]
  | _ => [entry]

def flattenUsageEntries (payload : Json) : List Json :=
  (rawUsageEntries payload).flatMap flattenBucketUsageEntry

def normalizeCategories (rawCategories : Json) : List Json :=
  match rawCategories with
  | .list items => items.filter Json.isDict
  | .dict fields => if (fields.lookup "category").isSome then [rawCategories] else []
  | _ => []

/-! ## Times -/

def timestampFormats : List String := ["%Y-%m-%d %H:%M:%S", "%Y-%m-%d %H:%M", "%Y-%m-%d"]

/-- A trailing `Z` and fractions of a second are dropped. -/
def timestampText (text : List Char) : List Char :=
  let text := text.map fun c => if c = 'T' then ' ' else c
  let text := if text.getLast? = some 'Z' then text.dropLast else text
  text.takeWhile fun c => c ≠ '.'

def parseTimestamp (lib : Lib) (value : Json) : Option ℤ :=
  match value with
  | .null => none
  | value =>
    let text := lib.strip (lib.text value)
    if text = "" then none
    else timestampFormats.findSome? fun format =>
      lib.strptime format (String.ofList (timestampText text.toList))

inductive TrafficWindow
  | hour | day | week | month
  deriving DecidableEq, Repr

def second : ℤ := 1000000
def hourLength : ℤ := 3600 * second
def dayLength : ℤ := 24 * hourLength

def bucketTimestamp (timestamp : ℤ) : Option TrafficWindow → ℤ
  | none => timestamp
  | some .week | some .month => timestamp - timestamp % dayLength
  | some .day => timestamp - timestamp % hourLength
  | some .hour => timestamp - timestamp % second

/-! ## Names -/

def requestGroups : List (String × List String) :=
  [("read", ["get", "read", "fetch", "download", "head"]),
    ("write", ["put", "write", "upload", "post", "append", "copy"]),
    ("delete", ["delete", "remove", "rm"]),
    ("list", ["list", "ls", "bucket_list"]),
    ("metadata", ["acl", "policy", "tag", "meta", "multipart"])]

def groupCategory (lib : Lib) (name : Json) : String :=
  if !name.truthy then "other"
  else
    let slug := (lib.lower (lib.text name)).toList
    match requestGroups.find? fun group => group.2.any fun keyword => keyword.toList <:+: slug with
    | some group => group.1
    | none => "other"

/-- `slug.split(delimiter, 1)[-1]`. -/
def afterDelimiter (delimiter : Char) (slug : List Char) : List Char :=
  match slug.dropWhile fun c => c ≠ delimiter with
  | [] => slug
  | _ :: rest => rest

def normalizeBucketName (lib : Lib) (value : String) : Option String :=
  let slug := lib.lower (lib.strip value)
  if slug = "" then none
  else some (String.ofList (afterDelimiter '/' (afterDelimiter ':' slug.toList)))

/-- The forms of the `bucket_filter` argument. -/
inductive BucketFilter
  | all
  | one (bucket : String)
  | many (buckets : List String)

def normalizeBucketFilters (lib : Lib) : BucketFilter → Option (List String)
  | .all => none
  | .one bucket => some ((normalizeBucketName lib bucket).filter (· ≠ "")).toList
  | .many buckets => some (buckets.filterMap fun bucket =>
      (normalizeBucketName lib bucket).filter (· ≠ ""))

/-! ## Totals -/

@[ext] structure Transfer where
  bytesIn : ℤ
  bytesOut : ℤ
  ops : ℤ
  deriving DecidableEq, Repr

@[ext] structure Activity extends Transfer where
  successOps : ℤ
  deriving DecidableEq, Repr

instance : Zero Transfer := ⟨⟨0, 0, 0⟩⟩
instance : Add Transfer := ⟨fun a b => ⟨a.bytesIn + b.bytesIn, a.bytesOut + b.bytesOut, a.ops + b.ops⟩⟩

instance : AddCommMonoid Transfer where
  add_assoc _ _ _ := Transfer.ext (add_assoc ..) (add_assoc ..) (add_assoc ..)
  zero_add _ := Transfer.ext (zero_add _) (zero_add _) (zero_add _)
  add_zero _ := Transfer.ext (add_zero _) (add_zero _) (add_zero _)
  add_comm _ _ := Transfer.ext (add_comm ..) (add_comm ..) (add_comm ..)
  nsmul := nsmulRec

instance : Zero Activity := ⟨⟨0, 0⟩⟩
instance : Add Activity := ⟨fun a b => ⟨a.toTransfer + b.toTransfer, a.successOps + b.successOps⟩⟩

instance : AddCommMonoid Activity where
  add_assoc _ _ _ := Activity.ext (add_assoc ..) (add_assoc ..) (add_assoc ..) (add_assoc ..)
  zero_add _ := Activity.ext (zero_add _) (zero_add _) (zero_add _) (zero_add _)
  add_zero _ := Activity.ext (add_zero _) (add_zero _) (add_zero _) (add_zero _)
  add_comm _ _ := Activity.ext (add_comm ..) (add_comm ..) (add_comm ..) (add_comm ..)
  nsmul := nsmulRec

/-- A key of a dictionary; numbers and truth values that are equal are one key. -/
inductive CategoryKey
  | text (value : String)
  | number (value : ℚ)
  deriving DecidableEq, Repr

/-- Lists and dictionaries cannot be keys. -/
def Json.key : Json → Option CategoryKey
  | .bool value => some (.number value.toNat)
  | .int value => some (.number value)
  | .float value => some (.number value)
  | .str value => some (.text value)
  | _ => none

def CategoryKey.truthy : CategoryKey → Bool
  | .text value => value ≠ ""
  | .number value => value ≠ 0

/-! ## The accumulator -/

/-- The tables of a `_UsageAccumulator`; a time stands for its ISO text. -/
structure UsageAccumulator where
  timeline : List (ℤ × Activity) := []
  bucketTotals : List (String × Activity) := []
  userTotals : List (String × Activity) := []
  categoryTotals : List (CategoryKey × Transfer) := []
  requestGroups : List (String × Transfer) := []

structure AggregationScope where
  start : ℤ
  stop : ℤ
  bucketFilters : Option (List String)
  window : Option TrafficWindow

def categoryOf (entry : Json) : Json := (entry.get "category").or (entry.get "type")

/-- The activity that a category entry reports. -/
def activityOf (lib : Lib) (entry : Json) : Activity where
  bytesOut := intOrZero lib ((entry.get "bytes_sent").or (entry.get "sent"))
  bytesIn := intOrZero lib ((entry.get "bytes_received").or (entry.get "received"))
  ops := intOrZero lib ((entry.get "ops").or (entry.get "operations"))
  successOps := intOrZero lib ((entry.get "successful_ops").or (entry.get "success"))

/-- `category or "unknown"` as a key of `category_totals`. -/
def categoryKey (entry : Json) : Option CategoryKey := ((categoryOf entry).or (.str "unknown")).key

/-- `none` when the category cannot be a key. -/
def addCategory (lib : Lib) (timestamp : ℤ) (bucket user : String)
    (accumulator : UsageAccumulator) (entry : Json) : Option UsageAccumulator := do
  let key ← categoryKey entry
  let activity := activityOf lib entry
  return {
    timeline := Lists.addAt timestamp activity accumulator.timeline
    bucketTotals := Lists.addAt bucket activity accumulator.bucketTotals
    userTotals := Lists.addAt user activity accumulator.userTotals
    categoryTotals := Lists.addAt key activity.toTransfer accumulator.categoryTotals
    requestGroups := Lists.addAt (groupCategory lib (categoryOf entry)) activity.toTransfer
      accumulator.requestGroups }

def entryTimestamp (lib : Lib) (entry : Json) : Option ℤ :=
  parseTimestamp lib (((entry.get "time").or (entry.get "timestamp")).or (entry.get "date"))

def entryBucket (lib : Lib) (entry : Json) : String :=
  lib.text (((entry.get "bucket").or (entry.get "bucket_name")).or (.str "unknown"))

def entryUser (lib : Lib) (entry : Json) : String :=
  lib.text (((entry.get "user").or (entry.get "owner")).or (.str "unknown"))

/-- The bucket passes the filters. -/
def AggregationScope.admits (lib : Lib) (scope : AggregationScope) (bucket : String) : Bool :=
  match scope.bucketFilters with
  | none => true
  | some filters =>
    match normalizeBucketName lib bucket with
    | none => false
    | some name => filters.contains name

def addEntry (lib : Lib) (scope : AggregationScope) (accumulator : UsageAccumulator)
    (entry : Json) : Option UsageAccumulator :=
  match entryTimestamp lib entry with
  | none => some accumulator
  | some timestamp =>
    if timestamp < scope.start ∨ scope.stop < timestamp then some accumulator
    else if !scope.admits lib (entryBucket lib entry) then some accumulator
    else (normalizeCategories (entry.get "categories")).foldlM
      (addCategory lib (bucketTimestamp timestamp scope.window) (entryBucket lib entry)
        (entryUser lib entry)) accumulator

def accumulate (lib : Lib) (scope : AggregationScope) (entries : List Json) :
    Option UsageAccumulator :=
  entries.foldlM (addEntry lib scope) {}

/-! ## Results -/

def ratio (part whole : ℤ) : Option ℚ := if whole = 0 then none else some (part / whole)

structure Ranking where
  name : String
  bytesTotal : ℤ
  activity : Activity
  successRatio : Option ℚ
  deriving DecidableEq, Repr

/-- The ten names with the most bytes. -/
def rankings (totals : List (String × Activity)) : List Ranking :=
  let ranked := totals.map fun (name, values) => {
    name := name
    bytesTotal := values.bytesIn + values.bytesOut
    activity := values
    successRatio := ratio values.successOps values.ops : Ranking }
  (Lists.sortedBy (fun ranking => OrderDual.toDual ranking.bytesTotal) ranked).take 10

/-- Sorted by operations or by bytes, the largest first. -/
def breakdown {κ : Type} (totals : List (κ × Transfer)) (sortByOps : Bool) (limit : Option ℕ) :
    List (κ × Transfer) :=
  let sorted := Lists.sortedBy (fun (p : κ × Transfer) => OrderDual.toDual
    (if sortByOps then p.2.ops else p.2.bytesIn + p.2.bytesOut)) totals
  match limit with
  | none => sorted
  | some limit => sorted.take limit

structure UsageAggregation where
  series : List (ℤ × Activity)
  totals : Activity
  successRate : Option ℚ
  bucketRankings : List Ranking
  userRankings : List Ranking
  requestBreakdown : List (String × Transfer)
  categoryBreakdown : List (CategoryKey × Transfer)

namespace UsageAccumulator

def series (accumulator : UsageAccumulator) : List (ℤ × Activity) :=
  Lists.sortedBy Prod.fst accumulator.timeline

def result (accumulator : UsageAccumulator) : UsageAggregation :=
  let totals := (accumulator.series.map Prod.snd).sum
  { series := accumulator.series
    totals := totals
    successRate := ratio totals.successOps totals.ops
    bucketRankings := rankings accumulator.bucketTotals
    userRankings := rankings accumulator.userTotals
    requestBreakdown := breakdown accumulator.requestGroups true none
    categoryBreakdown := breakdown accumulator.categoryTotals false (some 15) }

end UsageAccumulator

def aggregateUsage (lib : Lib) (entries : List Json) (start stop : ℤ) (bucketFilter : BucketFilter)
    (window : Option TrafficWindow) : Option UsageAggregation :=
  (accumulate lib ⟨start, stop, normalizeBucketFilters lib bucketFilter, window⟩ entries).map
    UsageAccumulator.result

/-! ## The cost collector -/

/-- The measurements of a `CostUsageDaily` row. -/
structure UsageRow where
  bytesIn : ℤ
  bytesOut : ℤ
  opsTotal : ℤ
  opsBreakdown : Option (List (CategoryKey × ℤ))
  deriving DecidableEq, Repr

/-- The categories of a breakdown are distinct, so the dictionary keeps each entry. -/
def storedBreakdown (categoryBreakdown : List (CategoryKey × Transfer)) :
    Option (List (CategoryKey × ℤ)) :=
  let breakdown := (categoryBreakdown.filter fun entry => entry.1.truthy).map fun entry =>
    (entry.1, entry.2.ops)
  if breakdown = [] then none else some breakdown

/-- What the collector stores for the day that begins at `start`; an exception stores nothing. -/
def collectUsageSubject (lib : Lib) (payload : Json) (start : ℤ) : Option UsageRow :=
  (aggregateUsage lib (flattenUsageEntries payload) start (start + dayLength - 1) .all none).map
    fun aggregation => {
      bytesIn := aggregation.totals.bytesIn
      bytesOut := aggregation.totals.bytesOut
      opsTotal := aggregation.totals.ops
      opsBreakdown := storedBreakdown aggregation.categoryBreakdown }

end Traffic
end BucketReef

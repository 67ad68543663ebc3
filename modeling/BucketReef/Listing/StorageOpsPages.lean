import BucketReef.Lists.Merged
import Mathlib.Data.String.Basic

/-!
# The pages of the Storage Ops listing

Every page request lists all contexts anew, in worker threads whose results are put together in the
order in which they finish. It then sorts the whole and cuts out one page. The sort key ends in the
bucket name and does not name the context.
-/

namespace BucketReef.StorageOps

/-- The fields of a listed bucket that the order reads. -/
structure StorageOpsBucketSummary where
  contextId : String
  name : String
  bucketName : Option String
  tenant : Option String
  owner : Option String
  usedBytes : Option ℤ
  objectCount : Option ℤ
  deriving DecidableEq

/-- `bucket.bucket_name or bucket.name` -/
def StorageOpsBucketSummary.shownName (bucket : StorageOpsBucketSummary) : String :=
  match bucket.bucketName with
  | none => bucket.name
  | some name => if name = "" then bucket.name else name

inductive SortField
  | name
  | tenant
  | owner
  | usedBytes
  | objectCount
  deriving DecidableEq

inductive SortDirection
  | asc
  | desc
  deriving DecidableEq

inductive SortValue
  | missing
  | text (value : String)
  | number (value : ℤ)
  deriving DecidableEq

def SortField.value (bucket : StorageOpsBucketSummary) : SortField → SortValue
  | .name => .text bucket.shownName
  | .tenant => bucket.tenant.elim .missing .text
  | .owner => bucket.owner.elim .missing .text
  | .usedBytes => bucket.usedBytes.elim .missing .number
  | .objectCount => bucket.objectCount.elim .missing .number

/-- Whether the value is missing, the value as a number or as a text, and the tie breaker. Within one
field all values are numbers or all are texts. -/
abbrev SortKey := ℕ ×ₗ ℤ ×ₗ String ×ₗ String

variable (lower : String → String)

def listingSortKey (value : SortValue) (tieBreaker : String) : SortKey :=
  let normalizedTieBreaker := lower tieBreaker
  match value with
  | .missing => toLex (1, toLex (0, toLex ("", normalizedTieBreaker)))
  | .text value => toLex (0, toLex (0, toLex (lower value, normalizedTieBreaker)))
  | .number value => toLex (0, toLex (value, toLex ("", normalizedTieBreaker)))

def sortKey (field : SortField) (bucket : StorageOpsBucketSummary) : SortKey :=
  listingSortKey lower (field.value bucket) bucket.shownName

/-- `sorted` with `reverse` keeps the tied elements in their order too. -/
def sortStorageOpsBuckets (field : SortField) (direction : SortDirection)
    (buckets : List StorageOpsBucketSummary) : List StorageOpsBucketSummary :=
  match direction with
  | .asc => Lists.sortedBy (sortKey lower field) buckets
  | .desc => Lists.sortedBy (fun bucket => OrderDual.toDual (sortKey lower field bucket)) buckets

/-- The buckets that one context lists for the query. A context lists a bucket once. -/
structure ContextListing where
  contextId : String
  buckets : List StorageOpsBucketSummary
  own : ∀ bucket ∈ buckets, bucket.contextId = contextId
  distinct : buckets.Nodup

/-- The contexts of a listing, each under its own identifier. -/
structure Contexts where
  listings : List ContextListing
  distinct : (listings.map ContextListing.contextId).Nodup

/-- The results put one behind the other in the order in which the workers finish. -/
def listContexts (finished : List ContextListing) : List StorageOpsBucketSummary :=
  finished.flatMap ContextListing.buckets

/-- What `_paginate` cuts out for the page `number`, counted from one. -/
def paginate (field : SortField) (direction : SortDirection) (pageSize : ℕ)
    (results : List StorageOpsBucketSummary) (number : ℕ) : List StorageOpsBucketSummary :=
  let sortedItems := sortStorageOpsBuckets lower field direction results
  let start := (number - 1) * pageSize
  (sortedItems.drop start).take pageSize

/-- One page request: list, keep what the tag filter matches, sort and cut. -/
def pageItems (matched : StorageOpsBucketSummary → Bool) (field : SortField)
    (direction : SortDirection) (pageSize number : ℕ) (finished : List ContextListing) :
    List StorageOpsBucketSummary :=
  paginate lower field direction pageSize ((listContexts finished).filter matched) number

/-- The matching pairs of a context and one of its buckets. -/
def Contexts.pairs (contexts : Contexts) (matched : StorageOpsBucketSummary → Bool) :
    List StorageOpsBucketSummary :=
  (listContexts contexts.listings).filter matched

/-- The pages `1..n` of as many requests, each with its own order of finishing. -/
def Contexts.allPages (contexts : Contexts) (matched : StorageOpsBucketSummary → Bool)
    (field : SortField) (direction : SortDirection) (pageSize : ℕ)
    (finished : ℕ → List ContextListing) : List StorageOpsBucketSummary :=
  (List.range (Lists.pageCount (contexts.pairs matched).length pageSize)).flatMap fun n =>
    pageItems lower matched field direction pageSize (n + 1) (finished (n + 1))

/-- Each request sees the results of all contexts, in some order. -/
def Contexts.Finishing (contexts : Contexts) (finished : ℕ → List ContextListing) : Prop :=
  ∀ n, (finished n).Perm contexts.listings

/-- No two contexts list matching buckets with one sort key. -/
def Contexts.KeysApart (contexts : Contexts) (matched : StorageOpsBucketSummary → Bool)
    (field : SortField) : Prop :=
  contexts.listings.Pairwise fun first second =>
    ∀ a ∈ first.buckets, ∀ b ∈ second.buckets, matched a = true → matched b = true →
      sortKey lower field a ≠ sortKey lower field b

/-! ## The pages as pages of merged runs -/

section Merged

/-- What one context contributes. -/
def ContextListing.part (matched : StorageOpsBucketSummary → Bool) (listing : ContextListing) :
    List StorageOpsBucketSummary :=
  listing.buckets.filter matched

theorem filter_listContexts (matched : StorageOpsBucketSummary → Bool)
    (finished : List ContextListing) :
    (listContexts finished).filter matched =
      (finished.map (ContextListing.part matched)).flatten := by
  unfold listContexts
  rw [List.flatMap_def, List.filter_flatten, List.map_map]
  rfl

theorem Contexts.pairs_eq (contexts : Contexts) (matched : StorageOpsBucketSummary → Bool) :
    contexts.pairs matched = (contexts.listings.map (ContextListing.part matched)).flatten :=
  filter_listContexts matched contexts.listings

theorem Contexts.pairs_nodup (contexts : Contexts) (matched : StorageOpsBucketSummary → Bool) :
    (contexts.pairs matched).Nodup := by
  refine List.Nodup.filter _ ?_
  unfold listContexts
  rw [List.nodup_flatMap]
  refine ⟨fun listing _ => listing.distinct, ?_⟩
  refine (List.pairwise_map.mp contexts.distinct).imp fun {first second} hne => ?_
  intro bucket hfirst hsecond
  exact hne ((first.own bucket hfirst).symm.trans (second.own bucket hsecond))

variable {lower}

/-- The pages of a listing whose sort is the sort by `key`. -/
theorem Contexts.allPages_eq {κ : Type*} [LinearOrder κ] {key : StorageOpsBucketSummary → κ}
    {field : SortField} {direction : SortDirection}
    (hsort : ∀ buckets, sortStorageOpsBuckets lower field direction buckets =
      Lists.sortedBy key buckets)
    (contexts : Contexts) (matched : StorageOpsBucketSummary → Bool) (pageSize : ℕ)
    (finished : ℕ → List ContextListing) :
    contexts.allPages lower matched field direction pageSize finished =
      Lists.pages pageSize (Lists.pageCount (contexts.pairs matched).length pageSize) fun n =>
        Lists.mergedBy key ((finished (n + 1)).map (ContextListing.part matched)) := by
  unfold Contexts.allPages Lists.pages
  congr 1
  funext n
  unfold pageItems paginate Lists.page Lists.mergedBy
  rw [hsort, filter_listContexts, Nat.add_sub_cancel]

theorem Contexts.keysApart_iff {κ : Type*} {key : StorageOpsBucketSummary → κ} {field : SortField}
    (hkey : ∀ a b, key a = key b ↔ sortKey lower field a = sortKey lower field b)
    (contexts : Contexts) (matched : StorageOpsBucketSummary → Bool) :
    Lists.KeysApart key (contexts.listings.map (ContextListing.part matched)) ↔
      contexts.KeysApart lower matched field := by
  unfold Lists.KeysApart Contexts.KeysApart
  rw [List.pairwise_map]
  refine List.Pairwise.iff fun first second => ?_
  simp only [ContextListing.part, List.mem_filter, and_imp, ne_eq, hkey]
  exact ⟨fun h a ha b hb hma hmb => h a ha hma b hb hmb,
    fun h a ha hma b hb hmb => h a ha b hb hma hmb⟩

theorem Contexts.allPages_perm_iff {κ : Type*} [LinearOrder κ]
    {key : StorageOpsBucketSummary → κ} {field : SortField} {direction : SortDirection}
    (hsort : ∀ buckets, sortStorageOpsBuckets lower field direction buckets =
      Lists.sortedBy key buckets)
    (hkey : ∀ a b, key a = key b ↔ sortKey lower field a = sortKey lower field b)
    (contexts : Contexts) (matched : StorageOpsBucketSummary → Bool) :
    (∀ pageSize, 0 < pageSize → ∀ finished, contexts.Finishing finished →
      (contexts.allPages lower matched field direction pageSize finished).Perm
        (contexts.pairs matched)) ↔ contexts.KeysApart lower matched field := by
  have hnodup := contexts.pairs_nodup matched
  rw [contexts.pairs_eq] at hnodup
  rw [← contexts.keysApart_iff hkey matched, ← Lists.pages_perm_iff_keysApart hnodup]
  simp only [contexts.allPages_eq hsort, contexts.pairs_eq]
  constructor
  · intro h pageSize hsize runs hruns
    exact h pageSize hsize (fun n => runs (n - 1)) fun n => hruns (n - 1)
  · intro h pageSize hsize finished hfinished
    exact h pageSize hsize (fun n => finished (n + 1)) fun n => hfinished (n + 1)

theorem Contexts.allPages_sorted {κ : Type*} [LinearOrder κ]
    {key : StorageOpsBucketSummary → κ} {field : SortField} {direction : SortDirection}
    (hsort : ∀ buckets, sortStorageOpsBuckets lower field direction buckets =
      Lists.sortedBy key buckets)
    (hkey : ∀ a b, key a = key b ↔ sortKey lower field a = sortKey lower field b)
    {contexts : Contexts} {matched : StorageOpsBucketSummary → Bool}
    (hapart : contexts.KeysApart lower matched field) {pageSize : ℕ} (hsize : 0 < pageSize)
    {finished : ℕ → List ContextListing} (hfinished : contexts.Finishing finished) :
    contexts.allPages lower matched field direction pageSize finished =
      sortStorageOpsBuckets lower field direction (contexts.pairs matched) := by
  rw [contexts.allPages_eq hsort, contexts.pairs_eq, hsort]
  exact ((contexts.keysApart_iff hkey matched).mpr hapart).pages_mergedBy hsize
    fun n => (hfinished (n + 1)).map _

end Merged

variable (matched : StorageOpsBucketSummary → Bool) (field : SortField) (direction : SortDirection)

/-- The pages of any separate requests hold every matching pair once, in one order that no request
depends on, exactly when no two contexts list matching buckets with one sort key. -/
theorem pages_partition_iff (contexts : Contexts) :
    ((∀ pageSize, 0 < pageSize → ∀ finished, contexts.Finishing finished →
        (contexts.allPages lower matched field direction pageSize finished).Perm
          (contexts.pairs matched)) ↔ contexts.KeysApart lower matched field) ∧
      (contexts.KeysApart lower matched field →
        ∀ pageSize, 0 < pageSize → ∀ finished, contexts.Finishing finished →
          contexts.allPages lower matched field direction pageSize finished =
            sortStorageOpsBuckets lower field direction (contexts.pairs matched)) := by
  cases direction with
  | asc =>
    have hsort : ∀ buckets, sortStorageOpsBuckets lower field .asc buckets =
        Lists.sortedBy (sortKey lower field) buckets := fun _ => rfl
    exact ⟨contexts.allPages_perm_iff hsort (fun _ _ => Iff.rfl) matched,
      fun hapart _ hsize _ hfinished =>
        Contexts.allPages_sorted hsort (fun _ _ => Iff.rfl) hapart hsize hfinished⟩
  | desc =>
    have hsort : ∀ buckets, sortStorageOpsBuckets lower field .desc buckets =
        Lists.sortedBy (fun bucket => OrderDual.toDual (sortKey lower field bucket)) buckets :=
      fun _ => rfl
    have hkey : ∀ a b : StorageOpsBucketSummary,
        OrderDual.toDual (sortKey lower field a) = OrderDual.toDual (sortKey lower field b) ↔
          sortKey lower field a = sortKey lower field b :=
      fun _ _ => OrderDual.toDual_inj
    exact ⟨contexts.allPages_perm_iff hsort hkey matched,
      fun hapart _ hsize _ hfinished =>
        Contexts.allPages_sorted hsort hkey hapart hsize hfinished⟩

/-- The bucket `logs` as a context lists it. -/
def logs (contextId : String) : StorageOpsBucketSummary where
  contextId := contextId
  name := "logs"
  bucketName := some "logs"
  tenant := none
  owner := none
  usedBytes := none
  objectCount := none

def logsListing (contextId : String) : ContextListing where
  contextId := contextId
  buckets := [logs contextId]
  own := by simp [logs]
  distinct := by simp

def twoLogs : Contexts where
  listings := [logsListing "acc-1", logsListing "acc-2"]
  distinct := by decide

/-- Two contexts with a bucket `logs` each: pages of one row can show the same one twice. -/
theorem not_pages_partition :
    ¬∀ (contexts : Contexts) (matched : StorageOpsBucketSummary → Bool) (field : SortField)
      (direction : SortDirection) (pageSize : ℕ), 0 < pageSize →
      ∀ finished, contexts.Finishing finished →
        (contexts.allPages String.toLower matched field direction pageSize finished).Perm
          (contexts.pairs matched) := by
  intro h
  have hapart : twoLogs.KeysApart String.toLower (fun _ => true) .name :=
    (twoLogs.allPages_perm_iff (fun _ => rfl) (fun _ _ => Iff.rfl)
      fun _ => true).mp fun pageSize => h twoLogs (fun _ => true) .name .asc pageSize
  have hpair := (List.pairwise_cons.mp hapart).1 (logsListing "acc-2") (List.mem_singleton.mpr rfl)
  exact hpair (logs "acc-1") (by decide) (logs "acc-2") (by decide) rfl rfl rfl

end BucketReef.StorageOps

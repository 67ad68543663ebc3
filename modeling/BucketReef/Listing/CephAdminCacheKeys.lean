import BucketReef.Listing.CephAdminSnapshot

/-!
# When the cache key of a listing is sound

The key stores whether owner metadata is needed and not whether the tenants are. Requests with one key
can be served each other's snapshot except when their filter or sort reads owners but no tenants and
exactly one of them needs the tenants for its simple filter or its UI tags.
-/

namespace BucketReef.CephAdmin

variable (fold : String → String)

/-- The filter or the sort reads owners but no tenants. -/
def readsOwnerWithoutTenant (query : Option BucketFilterQuery) (sortBy : String) : Bool :=
  requestRequiresOwnerMetadata query sortBy none &&
    !requestRequiresTenantMetadata fold query sortBy none

/-- The simple filter or the UI tags need the owners and tenants on their own. -/
def addsMetadata (parameters : ListingParameters) : Bool :=
  present (metadataSimpleFilter parameters) || parameters.withUiTags

/-- Two requests on one endpoint with one cache key. -/
structure SharedKey where
  endpointId : ℕ
  first : ListingParameters
  second : ListingParameters
  sameKey : (first.parse fold).cacheKey endpointId = (second.parse fold).cacheKey endpointId

/-- Whatever the RGW holds and the rules match, the two requests have one snapshot, and the second is
served the same rows and tag targets from the snapshot of the first as from its own. -/
def SharedKey.Interchangeable (shared : SharedKey fold) : Prop :=
  ∀ (Details Usage : Type) (helpers : Helpers Details Usage) (rgw : Rgw Details Usage)
    (contains : String → String → Bool),
    build fold helpers rgw (shared.first.parse fold) =
        build fold helpers rgw (shared.second.parse fold) ∧
      (build fold helpers rgw (shared.first.parse fold)).map
          (served contains helpers.lower (shared.second.parse fold)) =
        (build fold helpers rgw (shared.second.parse fold)).map
          (served contains helpers.lower (shared.second.parse fold))

variable {fold}

theorem needsOwnerMetadata_eq (parameters : ListingParameters) :
    (parameters.parse fold).needsOwnerMetadata =
      (requestRequiresOwnerMetadata parameters.advancedFilter parameters.sortBy none ||
        addsMetadata parameters) := by
  show (requestRequiresOwnerMetadata _ _ _ || _) = _
  unfold requestRequiresOwnerMetadata addsMetadata
  rw [show present none = false from rfl, Bool.or_false, Bool.or_assoc]

theorem needsTenantMetadata_eq (parameters : ListingParameters) :
    (parameters.parse fold).needsTenantMetadata =
      (requestRequiresTenantMetadata fold parameters.advancedFilter parameters.sortBy none ||
        addsMetadata parameters) := by
  show (requestRequiresTenantMetadata _ _ _ _ || _) = _
  unfold requestRequiresTenantMetadata addsMetadata
  rw [show present none = false from rfl, Bool.or_false, Bool.or_assoc]

/-- The builder reads these fields of the request and no others. -/
theorem build_congr (fold : String → String) {Details Usage : Type} (helpers : Helpers Details Usage)
    (rgw : Rgw Details Usage) {first second : CephAdminBucketListingRequest}
    (hfilter : first.advancedFilter = second.advancedFilter)
    (hsort_by : first.sortBy = second.sortBy) (hsort_dir : first.sortDir = second.sortDir)
    (hwith_stats : first.withStats = second.withStats)
    (hstats_required : first.statsRequired = second.statsRequired)
    (husage : first.ownerUsageRequired = second.ownerUsageRequired)
    (howner : first.needsOwnerMetadata = second.needsOwnerMetadata)
    (htenant : first.needsTenantMetadata = second.needsTenantMetadata) :
    build fold helpers rgw first = build fold helpers rgw second := by
  have hload : loadEntries helpers rgw first = loadEntries helpers rgw second := by
    unfold loadEntries
    rw [hfilter, hwith_stats, hstats_required, husage]
  have hbackfill : backfillOwnerMetadata helpers rgw first =
      backfillOwnerMetadata helpers rgw second := by
    funext results
    unfold backfillOwnerMetadata
    rw [howner, htenant]
  have hnames : enrichOwnerNames fold helpers rgw first =
      enrichOwnerNames fold helpers rgw second := by
    funext candidates
    unfold enrichOwnerNames
    rw [hfilter]
  have hadvanced : applyAdvancedFilter fold helpers rgw first =
      applyAdvancedFilter fold helpers rgw second := by
    funext usage results
    unfold applyAdvancedFilter applyExpensiveRules enrichExpensiveCandidates
    rw [hfilter, hnames]
  have hsorted : ∀ results, sortResults helpers first results =
      sortResults helpers second results := by
    intro results
    unfold sortResults
    rw [hsort_by, hsort_dir]
  unfold build
  simp only [hload, hbackfill, hadvanced, hsorted]

theorem key_fields (shared : SharedKey fold) :
    shared.first.advancedFilter = shared.second.advancedFilter ∧
      shared.first.sortBy = shared.second.sortBy ∧
      shared.first.sortDir = shared.second.sortDir ∧
      (shared.first.parse fold).withStats = (shared.second.parse fold).withStats ∧
      (shared.first.parse fold).needsOwnerMetadata =
        (shared.second.parse fold).needsOwnerMetadata ∧
      (shared.first.parse fold).ownerUsageRequired =
        (shared.second.parse fold).ownerUsageRequired := by
  have hkey := shared.sameKey
  unfold CephAdminBucketListingRequest.cacheKey at hkey
  injection hkey with _ hfilter hsort_by hsort_dir hwith_stats howner husage
  exact ⟨hfilter, hsort_by, hsort_dir, hwith_stats, howner, husage⟩

/-- With one key the tenants are needed by both or by neither, outside the one case. -/
theorem needsTenantMetadata_eq_iff (shared : SharedKey fold) :
    (shared.first.parse fold).needsTenantMetadata =
        (shared.second.parse fold).needsTenantMetadata ↔
      (readsOwnerWithoutTenant fold shared.first.advancedFilter shared.first.sortBy = true →
        addsMetadata shared.first = addsMetadata shared.second) := by
  obtain ⟨hfilter, hsort_by, -, -, howner, -⟩ := key_fields shared
  rw [needsOwnerMetadata_eq, needsOwnerMetadata_eq, ← hfilter, ← hsort_by] at howner
  rw [needsTenantMetadata_eq, needsTenantMetadata_eq, ← hfilter, ← hsort_by]
  unfold readsOwnerWithoutTenant
  revert howner
  generalize requestRequiresOwnerMetadata shared.first.advancedFilter shared.first.sortBy none
    = owner
  generalize requestRequiresTenantMetadata fold shared.first.advancedFilter
    shared.first.sortBy none = tenant
  generalize addsMetadata shared.first = adds
  generalize addsMetadata shared.second = adds'
  revert owner tenant adds adds'
  decide

/-! ## A bucket whose tenant only its info tells -/

/-- The listing does not name the tenant of the bucket. -/
def sharedBucket : BucketListingSummary Unit where
  name := "data"
  tenant := none
  tenantMetadataResolved := false
  owner := some "alice"
  ownerName := none
  usedBytes := none
  objectCount := none
  quotaMaxSizeBytes := none
  quotaMaxObjects := none
  ownerDetails := []
  details := none

def tenantRgw : Rgw Unit Unit where
  allBuckets := fun _ => .ok [sharedBucket]
  bucketInfo := fun _ => some ⟨some "acme", some "alice", true⟩
  ownerName := fun _ _ _ => none
  applyOwnerEnrichment := fun _ _ buckets => buckets
  enrichBuckets := fun _ _ buckets => buckets
  featureParams := fun _ _ => some ()

/-- Every rule matches. -/
def matchingHelpers : Helpers Unit Unit where
  lower := id
  extractNameCandidates := fun _ => none
  ownerKindFromOwner := fun _ => .user
  computeBucketOwnerUsage := fun _ => ()
  matchBucketFieldRule := fun _ _ => true
  matchBucketFeatureRule := fun _ _ => true
  matchBucketFeatureParamRules := fun _ _ _ => true

theorem any_true {α : Type} {l : List α} (h : l.isEmpty = false) : (l.any fun _ => true) = true := by
  cases l with
  | nil => simp at h
  | cons a l => rfl

theorem cheap_keeps (plan : CephAdminAdvancedFilterPlan) (bucket : BucketListingSummary Unit) :
    applyCheapFieldRules matchingHelpers plan [bucket] = [bucket] := by
  unfold applyCheapFieldRules
  split_ifs with hempty hall hexpensive
  · rfl
  · simp [matchingHelpers]
  · rfl
  · have hany : (plan.cheapFieldRules.any fun _ => true) = true := any_true (by simpa using hempty)
    have hmatch : matchingHelpers.matchBucketFieldRule bucket = fun _ => true := rfl
    rw [List.filter_cons_of_pos (by rw [hmatch]; exact hany), List.filter_nil]

theorem enrich_keeps (fold : String → String) (request : CephAdminBucketListingRequest)
    (plan : CephAdminAdvancedFilterPlan)
    (usage : Option Unit) (buckets : List (BucketListingSummary Unit)) :
    (enrichExpensiveCandidates fold matchingHelpers tenantRgw request plan usage buckets).map
      BucketListingSummary.tenant = buckets.map BucketListingSummary.tenant := by
  have hnames : (enrichOwnerNames fold matchingHelpers tenantRgw request buckets).map
      BucketListingSummary.tenant = buckets.map BucketListingSummary.tenant := by
    unfold enrichOwnerNames
    rw [List.map_map]
    rfl
  unfold enrichExpensiveCandidates
  simp only [tenantRgw, ite_self]
  split_ifs
  · exact hnames
  · rfl

theorem expensive_keeps (fold : String → String) (request : CephAdminBucketListingRequest)
    (plan : CephAdminAdvancedFilterPlan) (hplan : plan.hasExpensiveRules = true)
    (usage : Option Unit) (bucket : BucketListingSummary Unit) :
    (applyExpensiveRules fold matchingHelpers tenantRgw request plan usage [bucket]).map
      BucketListingSummary.tenant = [bucket.tenant] := by
  have henrich := enrich_keeps fold request plan usage
  have hmatch : ∀ bucket, matchingHelpers.matchBucketFieldRule bucket = fun _ => true :=
    fun _ => rfl
  have hfeature : ∀ bucket, matchingHelpers.matchBucketFeatureRule bucket = fun _ => true :=
    fun _ => rfl
  have hall : ∀ {l : List (BucketListingSummary Unit)} {p : BucketListingSummary Unit → Bool},
      (∀ b, p b = true) → l.filter p = l := fun h => List.filter_eq_self.mpr fun b _ => h b
  unfold applyExpensiveRules
  simp only [hmatch]
  by_cases hparams : plan.featureParamRules.isEmpty = true
  · by_cases hcheap : (plan.featureParamRules.isEmpty && decide (plan.query.matching = .any) &&
        !plan.cheapFieldRules.isEmpty) = true
    · -- the bucket is matched by a cheap rule
      have hrules : plan.cheapFieldRules.isEmpty = false := by
        simp only [Bool.and_eq_true, Bool.not_eq_true'] at hcheap
        exact hcheap.2
      have hempty := henrich []
      rw [List.map_nil, List.map_eq_nil_iff] at hempty
      simp only [if_pos hcheap, if_pos hparams, any_true hrules, Bool.not_true]
      simp [hempty]
    · simp only [if_neg hcheap, if_pos hparams, List.nil_append]
      rw [hall, henrich]
      · rfl
      · intro b
        unfold matchesNonparamCandidate
        rw [hmatch, hfeature]
        split_ifs
        · simp
        · unfold CephAdminAdvancedFilterPlan.hasExpensiveRules at hplan
          rw [hparams, Bool.and_true, Bool.not_eq_true', Bool.and_eq_false_iff] at hplan
          rcases hplan with hne | hne
          · rw [any_true hne, Bool.true_or]
          · rw [any_true hne, Bool.or_true]
  · simp only [hparams, Bool.false_and, Bool.false_eq_true, if_false]
    rw [hall, henrich]
    · rfl
    · intro b
      unfold matchesFeatureParamCandidate
      simp only [tenantRgw, hmatch, hfeature]
      split_ifs
      · simp [matchingHelpers]
      · simp [matchingHelpers]

theorem advanced_keeps (fold : String → String) (request : CephAdminBucketListingRequest)
    (usage : Option Unit)
    (bucket : BucketListingSummary Unit) :
    (applyAdvancedFilter fold matchingHelpers tenantRgw request usage [bucket]).map
      BucketListingSummary.tenant = [bucket.tenant] := by
  unfold applyAdvancedFilter
  rcases request.advancedFilter with - | query
  · rfl
  · simp only [cheap_keeps]
    split_ifs with hempty hexpensive
    · rfl
    · rw [List.map_map]
      exact expensive_keeps fold request _ hexpensive usage bucket
    · rfl

theorem sortResults_singleton {Details Usage : Type} (helpers : Helpers Details Usage)
    (request : CephAdminBucketListingRequest) (bucket : BucketListingSummary Details) :
    sortResults helpers request [bucket] = [bucket] := by
  unfold sortResults
  split_ifs
  · rfl
  · rfl

/-- A request that needs the owners shows the tenant exactly when it needs the tenants. -/
theorem build_tenantRgw (fold : String → String) (request : CephAdminBucketListingRequest)
    (howner : request.needsOwnerMetadata = true) :
    ∃ snapshot, build fold matchingHelpers tenantRgw request = .ok snapshot ∧
      snapshot.items.map BucketListingSummary.tenant =
        [if request.needsTenantMetadata then some "acme" else none] := by
  have hload : loadEntries matchingHelpers tenantRgw request =
      .ok ⟨[sharedBucket], request.withStats, true⟩ := by
    unfold loadEntries fetchEntries
    simp [matchingHelpers, tenantRgw]
  have hsummaries : buildSummaries ⟨[sharedBucket], request.withStats, true⟩ =
      [sharedBucket] := by
    unfold buildSummaries
    split_ifs
    · rfl
    · rfl
  have hbackfill : ∃ bucket, backfillOwnerMetadata matchingHelpers tenantRgw request
      [sharedBucket] = [bucket] ∧
        bucket.tenant = if request.needsTenantMetadata then some "acme" else none := by
    unfold backfillOwnerMetadata
    rw [howner]
    rcases request.needsTenantMetadata
    · exact ⟨_, rfl, rfl⟩
    · exact ⟨_, rfl, rfl⟩
  obtain ⟨bucket, hbackfill, htenant⟩ := hbackfill
  unfold build
  rw [hload]
  simp only [hsummaries, hbackfill]
  refine ⟨_, rfl, ?_⟩
  have hadvanced := advanced_keeps fold request
    (if (request.withStats && !([bucket].isEmpty)) = true then
      some (matchingHelpers.computeBucketOwnerUsage [bucket]) else none) bucket
  obtain ⟨kept, hkept, hkept_tenant⟩ := List.map_eq_singleton_iff.mp hadvanced
  show (sortResults matchingHelpers request _).map BucketListingSummary.tenant = _
  rw [hkept, sortResults_singleton, ← htenant, ← hkept_tenant]
  rfl

/-- Requests with one cache key can be served each other's snapshot exactly when not one of them alone
adds the need of tenants to a filter or sort that reads owners only. -/
theorem cache_key_sound_iff (shared : SharedKey fold) :
    shared.Interchangeable ↔
      (readsOwnerWithoutTenant fold shared.first.advancedFilter shared.first.sortBy = true →
        addsMetadata shared.first = addsMetadata shared.second) := by
  obtain ⟨hfilter, hsort_by, hsort_dir, hwith_stats, howner, husage⟩ := key_fields shared
  rw [← needsTenantMetadata_eq_iff]
  constructor
  · intro h
    by_contra hne
    have hneeds : (shared.first.parse fold).needsOwnerMetadata = true := by
      rw [needsOwnerMetadata_eq]
      rw [needsOwnerMetadata_eq, needsOwnerMetadata_eq, ← hfilter, ← hsort_by] at howner
      rw [needsTenantMetadata_eq, needsTenantMetadata_eq, ← hfilter, ← hsort_by] at hne
      revert howner hne
      generalize requestRequiresOwnerMetadata shared.first.advancedFilter
        shared.first.sortBy none = owner
      generalize requestRequiresTenantMetadata fold shared.first.advancedFilter
        shared.first.sortBy none = tenant
      generalize addsMetadata shared.first = adds
      generalize addsMetadata shared.second = adds'
      revert owner tenant adds adds'
      decide
    obtain ⟨snapshot, hbuild, hitems⟩ := build_tenantRgw fold _ hneeds
    obtain ⟨snapshot', hbuild', hitems'⟩ := build_tenantRgw fold _ (howner ▸ hneeds)
    have hsame := (h Unit Unit matchingHelpers tenantRgw fun _ _ => true).1
    rw [hbuild, hbuild'] at hsame
    obtain rfl := Except.ok.inj hsame
    rw [hitems] at hitems'
    revert hne hitems'
    generalize (shared.first.parse fold).needsTenantMetadata = tenant
    generalize (shared.second.parse fold).needsTenantMetadata = tenant'
    revert tenant tenant'
    decide
  · intro htenant Details Usage helpers rgw contains
    have hstats : (shared.first.parse fold).statsRequired =
        (shared.second.parse fold).statsRequired := by
      show requestRequiresBucketStats _ _ = requestRequiresBucketStats _ _
      rw [hfilter, hsort_by]
    have hbuild := build_congr fold helpers rgw hfilter hsort_by hsort_dir hwith_stats
      hstats husage howner htenant
    exact ⟨hbuild, by rw [hbuild]⟩

/-! ## Sorted by owner, with and without UI tags -/

def sortedByOwner (withUiTags : Bool) : ListingParameters where
  simpleFilter := none
  advancedFilter := none
  sortBy := "owner"
  sortDir := "asc"
  includeSet := []
  withStats := false
  uiTagIds := []
  uiTagMatch := "any"
  withUiTags := withUiTags

/-- The two requests have one key, and only the one with UI tags knows the tenants. -/
theorem not_cache_key_sound :
    ¬∀ shared : SharedKey id, shared.Interchangeable := by
  intro h
  have hshared := h ⟨1, sortedByOwner false, sortedByOwner true, by decide⟩ Unit Unit
    matchingHelpers tenantRgw fun _ _ => true
  have htenants := congrArg (fun built => built.toOption.map fun snapshot =>
    snapshot.items.map BucketListingSummary.tenant) hshared.1
  revert htenants
  decide

end BucketReef.CephAdmin

import BucketReef.Versions.CurrentVersion

/-!
# Replay and diff keep visibility

The current version of a key ends its timeline, the replay of the timelines on an emptied
destination leaves every key as visible as on the source, and a clean diff means equal visibility:
all of this holds exactly for listings without a tied deletion.
-/

namespace BucketReef
namespace Versions

open Lists

theorem currentlyVisible_of_latest {listing : List ListedVersion} (hlisting : Listing listing)
    {v : ListedVersion} (hv : v ∈ listing) (hlatest : v.isLatest = true) :
    currentlyVisible listing v.key = !v.isDeleteMarker := by
  unfold currentlyVisible
  cases hfind : listing.find? fun w => w.key = v.key ∧ w.isLatest = true with
  | none =>
    have := List.find?_eq_none.mp hfind v hv
    simp [hlatest] at this
  | some w =>
    have hw : w ∈ listing := List.mem_of_find?_eq_some hfind
    have hprops : w.key = v.key ∧ w.isLatest = true := by simpa using List.find?_some hfind
    by_cases hwv : w = v
    · rw [hwv]
    · have := (hlisting.newest hv hlatest hw hprops.1 hwv).2
      rw [hprops.2] at this
      cases this

theorem currentlyVisible_of_absent {listing : List ListedVersion} {key : String}
    (h : ∀ v ∈ listing, v.key ≠ key) : currentlyVisible listing key = false := by
  unfold currentlyVisible
  have hfind : (listing.find? fun v => v.key = key ∧ v.isLatest = true) = none :=
    List.find?_eq_none.mpr fun v hv => by simp [h v hv]
  rw [hfind]

section Visibility

variable {listing : List ListedVersion} {entries : List BucketVersionEntry}
  {timelines : List (String × Timeline)}
  (hlisting : Listing listing) (harrived : Arrived listing entries)
  (hyields : YieldsTimelines entries timelines) (hends : EndsWithLatest timelines)
include hlisting harrived hyields hends

/-- The last entry of a timeline tells whether its key is visible. -/
theorem hasCurrentObject_eq {p : String × Timeline} (hp : p ∈ timelines) :
    timelineHasCurrentObject p.2 = currentlyVisible listing p.1 := by
  obtain ⟨e, hlast, helatest⟩ := hends p hp
  have hmem := List.mem_of_getLast? hlast
  rw [(hyields.timelines p hp).2] at hmem
  obtain ⟨hentry, hkey⟩ := mem_timelineOf.mp hmem
  obtain ⟨v, hv, i, rfl⟩ := harrived.listed e hentry
  have hvkey : v.key = p.1 := hkey
  have hvlatest : v.isLatest = true := helatest
  rw [timelineHasCurrentObject, hlast, ← hvkey, currentlyVisible_of_latest hlisting hv hvlatest]
  rfl

omit hlisting hends in
theorem currentlyVisible_of_not_yielded {key : String} (h : ∀ p ∈ timelines, p.1 ≠ key) :
    currentlyVisible listing key = false := by
  refine currentlyVisible_of_absent fun v hv hkey => ?_
  obtain ⟨i, hi⟩ := harrived.present v hv
  exact h _ (hyields.covered _ hi) hkey

/-- The replayed destination shows each key as its listing does. -/
theorem visibleOn_replayed (key : String) :
    visibleOn ((timelines.flatMap Prod.snd).foldl applyEntry []) key =
      currentlyVisible listing key := by
  rw [visibleOn_foldl_applyEntry]
  by_cases hkey : ∃ p ∈ timelines, p.1 = key
  · obtain ⟨p, hp, rfl⟩ := hkey
    rw [ofKey_flatMap hyields.keys hyields.increasing hp,
      ← hasCurrentObject_eq hlisting harrived hyields hends hp, timelineHasCurrentObject]
    cases p.2.getLast? <;> rfl
  · have hnone : ∀ p ∈ timelines, p.1 ≠ key := fun p hp h => hkey ⟨p, hp, h⟩
    rw [currentlyVisible_of_not_yielded harrived hyields hnone, ofKey_eq_nil]
    · rfl
    · intro e he
      obtain ⟨p, hp, hep⟩ := List.mem_flatMap.mp he
      rw [hyields.keys p hp e hep]
      exact hnone p hp

end Visibility

/-- Every version of the listing is in a timeline the iterator yields, and only those. -/
theorem iterBucketVersionTimelines_of_paged {listing : List ListedVersion} {pages : List Page}
    (hlisting : Listing listing) (hpaged : Paged listing pages) :
    ∃ entries timelines, iterBucketVersionTimelines pages = .ok timelines ∧
      Arrived listing entries ∧ YieldsTimelines entries timelines := by
  obtain ⟨arrival, grouped, timelines, harrival, hperm, hscan, hyields⟩ :=
    scanPages_of_paged hpaged hlisting.keys_ascending (Grouped.start 0 : Grouped [] {}) (by simp)
  exact ⟨grouped, timelines, hscan, Arrived.of_perm hlisting harrival hperm, by simpa using hyields⟩

/-- A completed replay of a whole listing on an emptied destination keeps visibility. -/
def ReplayKeepsVisibility (listing : List ListedVersion) (pages : List Page) : Prop :=
  ∀ env copied watermark st,
    replayBucketVersions env none (iterBucketVersionTimelines pages) [] =
      .ok (copied, watermark, st) →
    ∀ key, visibleOn st.target key = currentlyVisible listing key

/-- A completed comparison that comes out clean means equal visibility. -/
def CleanDiffKeepsVisibility (source target : List ListedVersion)
    (sourceTimelines targetTimelines : List (String × Timeline)) : Prop :=
  ∀ reader proceed diff,
    compareVersionedTimelines reader proceed sourceTimelines targetTimelines = some diff →
    diff.IsClean → ∀ key, currentlyVisible source key = currentlyVisible target key

/-- The timelines of both buckets end with the current version, and replay and clean diff carry
visibility over. -/
def TimelinesKeepVisibility (source target : List ListedVersion)
    (sourcePages targetPages : List Page) : Prop :=
  ∃ sourceTimelines targetTimelines,
    iterBucketVersionTimelines sourcePages = .ok sourceTimelines ∧
    iterBucketVersionTimelines targetPages = .ok targetTimelines ∧
    EndsWithLatest sourceTimelines ∧ EndsWithLatest targetTimelines ∧
    ReplayKeepsVisibility source sourcePages ∧
    CleanDiffKeepsVisibility source target sourceTimelines targetTimelines

theorem exists_mem_of_forall₂ {α β : Type*} {R : α → β → Prop} {l : List α} {m : List β}
    (h : List.Forall₂ R l m) {a : α} (ha : a ∈ l) : ∃ b ∈ m, R a b := by
  induction h with
  | nil => simp at ha
  | @cons x y l m hxy _ ih =>
    rcases List.mem_cons.mp ha with rfl | ha
    · exact ⟨y, by simp, hxy⟩
    · obtain ⟨b, hb, hab⟩ := ih ha
      exact ⟨b, by simp [hb], hab⟩

theorem cleanDiff_visibility {source target : List ListedVersion}
    {sourceEntries targetEntries : List BucketVersionEntry}
    {sourceTimelines targetTimelines : List (String × Timeline)}
    (hsource : Listing source) (htarget : Listing target)
    (hsourceArrived : Arrived source sourceEntries) (htargetArrived : Arrived target targetEntries)
    (hsourceYields : YieldsTimelines sourceEntries sourceTimelines)
    (htargetYields : YieldsTimelines targetEntries targetTimelines)
    (hsourceEnds : EndsWithLatest sourceTimelines) (htargetEnds : EndsWithLatest targetTimelines) :
    CleanDiffKeepsVisibility source target sourceTimelines targetTimelines := by
  intro reader proceed diff hdiff hclean key
  have hmatched := compareVersionedTimelines_clean hdiff hclean
  by_cases hkey : ∃ p ∈ sourceTimelines, p.1 = key
  · obtain ⟨p, hp, rfl⟩ := hkey
    obtain ⟨q, hq, hpq, hkinds⟩ := exists_mem_of_forall₂ hmatched hp
    calc currentlyVisible source p.1
        = timelineHasCurrentObject p.2 :=
          (hasCurrentObject_eq hsource hsourceArrived hsourceYields hsourceEnds hp).symm
      _ = timelineHasCurrentObject q.2 := hkinds.hasCurrentObject
      _ = currentlyVisible target q.1 :=
          hasCurrentObject_eq htarget htargetArrived htargetYields htargetEnds hq
      _ = currentlyVisible target p.1 := by rw [hpq]
  · have hsourceNone : ∀ p ∈ sourceTimelines, p.1 ≠ key := fun p hp h => hkey ⟨p, hp, h⟩
    have htargetNone : ∀ q ∈ targetTimelines, q.1 ≠ key := by
      intro q hq hqk
      obtain ⟨p, hp, hpq, -⟩ := exists_mem_of_forall₂ hmatched.flip hq
      exact hsourceNone p hp (hpq.trans hqk)
    rw [currentlyVisible_of_not_yielded hsourceArrived hsourceYields hsourceNone,
      currentlyVisible_of_not_yielded htargetArrived htargetYields htargetNone]

theorem replay_visibility {listing : List ListedVersion} {entries : List BucketVersionEntry}
    {pages : List Page} {timelines : List (String × Timeline)} (hlisting : Listing listing)
    (hiter : iterBucketVersionTimelines pages = .ok timelines) (harrived : Arrived listing entries)
    (hyields : YieldsTimelines entries timelines) (hends : EndsWithLatest timelines) :
    ReplayKeepsVisibility listing pages := by
  intro env copied watermark st hreplay key
  obtain ⟨yielded, hyielded, -, -, htarget, -⟩ := replayBucketVersions_ok hreplay
  rw [hiter, Except.ok.injEq] at hyielded
  rw [htarget, selected_none, ← hyielded, visibleOn_replayed hlisting harrived hyields hends]

/-- **Timelines keep visibility** exactly when neither bucket has a delete marker with the datetime
of its key's current object version. -/
theorem timelinesKeepVisibility_iff {source target : List ListedVersion}
    {sourcePages targetPages : List Page} (hsource : Listing source) (htarget : Listing target)
    (hsourcePaged : Paged source sourcePages) (htargetPaged : Paged target targetPages) :
    TimelinesKeepVisibility source target sourcePages targetPages ↔
      NoDeletionTie source ∧ NoDeletionTie target := by
  obtain ⟨sourceEntries, sourceTimelines, hsourceIter, hsourceArrived, hsourceYields⟩ :=
    iterBucketVersionTimelines_of_paged hsource hsourcePaged
  obtain ⟨targetEntries, targetTimelines, htargetIter, htargetArrived, htargetYields⟩ :=
    iterBucketVersionTimelines_of_paged htarget htargetPaged
  have hsourceIff := endsWithLatest_iff hsource hsourceArrived hsourceYields
  have htargetIff := endsWithLatest_iff htarget htargetArrived htargetYields
  constructor
  · rintro ⟨_, _, hs, ht, hsourceEnds, htargetEnds, -, -⟩
    rw [hsourceIter, Except.ok.injEq] at hs
    rw [htargetIter, Except.ok.injEq] at ht
    subst hs ht
    exact ⟨hsourceIff.mp hsourceEnds, htargetIff.mp htargetEnds⟩
  · rintro ⟨hsourceTies, htargetTies⟩
    have hsourceEnds := hsourceIff.mpr hsourceTies
    have htargetEnds := htargetIff.mpr htargetTies
    exact ⟨sourceTimelines, targetTimelines, hsourceIter, htargetIter, hsourceEnds, htargetEnds,
      replay_visibility hsource hsourceIter hsourceArrived hsourceYields hsourceEnds,
      cleanDiff_visibility hsource htarget hsourceArrived htargetArrived hsourceYields
        htargetYields hsourceEnds htargetEnds⟩

/-! ## A tied deletion -/

/-- A version of the key `report`. -/
def reportVersion (versionId : String) (isDeleteMarker isLatest : Bool) (lastModified : Int)
    (h : versionId ≠ "") : ListedVersion where
  key := "report"
  versionId := versionId
  isDeleteMarker := isDeleteMarker
  isLatest := isLatest
  lastModified := lastModified
  size := 1
  etag := none
  storageClass := none
  key_ne := by decide
  versionId_ne := h

/-- Written, then deleted and written again within one second. -/
def recreatedListing : List ListedVersion :=
  [reportVersion "v3" false true 1000000 (by decide), reportVersion "v2" true false 1000000 (by decide),
    reportVersion "v1" false false 0 (by decide)]

/-- Written, then deleted a second later. -/
def deletedListing : List ListedVersion :=
  [reportVersion "v2" true true 1000000 (by decide), reportVersion "v1" false false 0 (by decide)]

/-- The single page of a listing. -/
def singlePage (listing : List ListedVersion) : Page where
  versions := (listing.filter fun v => !v.isDeleteMarker).map ListedVersion.raw
  deleteMarkers := (listing.filter fun v => v.isDeleteMarker).map ListedVersion.raw
  nextKeyMarker := none
  nextVersionIdMarker := none

theorem paged_singlePage (listing : List ListedVersion) : Paged listing [singlePage listing] :=
  .last ⟨rfl, rfl⟩ rfl

theorem recreatedListing_listing : Listing recreatedListing where
  keys_ascending := by decide
  newest_first := by decide
  latest_is_newest := by decide
  latest_exists := by decide

theorem deletedListing_listing : Listing deletedListing where
  keys_ascending := by decide
  newest_first := by decide
  latest_is_newest := by decide
  latest_exists := by decide

theorem timelinesKeepVisibility_deleted :
    TimelinesKeepVisibility deletedListing deletedListing [singlePage deletedListing]
        [singlePage deletedListing] ↔
      NoDeletionTie deletedListing ∧ NoDeletionTie deletedListing :=
  timelinesKeepVisibility_iff deletedListing_listing deletedListing_listing
    (paged_singlePage _) (paged_singlePage _)

/-- The timeline the iterator yields for the recreated key: the marker `v2` comes last. -/
def recreatedTimeline : Timeline :=
  [(reportVersion "v1" false false 0 (by decide)).entry 1,
    (reportVersion "v3" false true 1000000 (by decide)).entry 0,
    (reportVersion "v2" true false 1000000 (by decide)).entry 2]

/-- The destination the replay of that timeline builds, each version a second after the other. -/
def replayedListing : List ListedVersion :=
  [reportVersion "w3" true true 4000000 (by decide), reportVersion "w2" false false 3000000 (by decide),
    reportVersion "w1" false false 2000000 (by decide)]

def replayedTimeline : Timeline :=
  [(reportVersion "w1" false false 2000000 (by decide)).entry 1,
    (reportVersion "w2" false false 3000000 (by decide)).entry 0,
    (reportVersion "w3" true true 4000000 (by decide)).entry 2]

/-- No control check interrupts and no remote call raises. -/
def quietEnv : ReplayEnv where
  control := fun _ => .run
  fails := fun _ => false

/-- Every object version reads back with the same details. -/
def sameDetails : DetailsReader :=
  let details := some ⟨1, none, [], none, none, none, none, none, none, none, [], []⟩
  ⟨fun _ => details, fun _ => details⟩

/-- The recreated object is visible, its timeline ends with the delete marker, the replay leaves it
deleted and the diff against that destination is clean. -/
theorem recreated_object_lost :
    (Listing recreatedListing ∧ Paged recreatedListing [singlePage recreatedListing]) ∧
    iterBucketVersionTimelines [singlePage recreatedListing] = .ok [("report", recreatedTimeline)] ∧
    ¬ EndsWithLatest [("report", recreatedTimeline)] ∧
    currentlyVisible recreatedListing "report" = true ∧
    (∃ watermark st,
      replayBucketVersions quietEnv none
          (iterBucketVersionTimelines [singlePage recreatedListing]) [] = .ok (3, watermark, st) ∧
        visibleOn st.target "report" = false) ∧
    iterBucketVersionTimelines [singlePage replayedListing] = .ok [("report", replayedTimeline)] ∧
    (∃ diff, compareVersionedTimelines sameDetails (fun _ => true) [("report", recreatedTimeline)]
        [("report", replayedTimeline)] = some diff ∧ diff.IsClean) ∧
    currentlyVisible replayedListing "report" = false := by
  refine ⟨⟨recreatedListing_listing, paged_singlePage _⟩, rfl, ?_, rfl, ⟨_, _, rfl, rfl⟩, rfl, ?_, rfl⟩
  · intro h
    obtain ⟨e, he, hlatest⟩ := h _ (List.mem_singleton_self _)
    cases he
    cases hlatest
  · refine ⟨{ sourceCount := 0, targetCount := 0, matchedCount := 1 }, ?_, by decide⟩
    simp only [compareVersionedTimelines, iterMergedVersionTimelines, lt_irrefl, if_false]
    rfl

end Versions
end BucketReef

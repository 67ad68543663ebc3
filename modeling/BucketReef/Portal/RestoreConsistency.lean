import BucketReef.Portal.RestoreRuns

/-!
# The restore is consistent

The candidates of a folder and a run that restores them, for a listing in S3 order and any cut into
pages, and when the search for one object finds the version its candidate has.
-/

namespace BucketReef
namespace DeletedObjects

open Cleanup Lists Transitions Versions

variable {bucket : List Listed}

/-- The newest version of a deleted key of the folder is in the bucket. -/
theorem sourced_candidates (hbucket : S3Order bucket) {pre : String} {store : ObjectRestoreStore}
    (h : Indexes (listing (some pre) bucket) {} store) : Sourced bucket (candidates store) := by
  intro row hrow
  obtain ⟨-, -, hnewest⟩ := (mem_candidates_iff hbucket h).mp hrow
  obtain ⟨entry, hfind, hversion⟩ := Option.bind_eq_some_iff.mp hnewest
  have hin := List.mem_of_find?_eq_some hfind
  have hfirst := List.find?_some hfind
  simp only [isOf, Bool.and_eq_true, decide_eq_true_eq, Bool.not_eq_true'] at hfirst
  obtain ⟨identity, hidentity⟩ := Option.isSome_iff_exists.mp (hbucket.identified entry hin)
  obtain ⟨hname, hid, -, -⟩ := rawIdentity_some hidentity
  refine ⟨entry, hin, hfirst.2, ?_⟩
  rw [hidentity, Option.some.injEq, Prod.ext_iff]
  constructor
  · exact Option.some.inj (hname.symm.trans hfirst.1)
  · exact Option.some.inj (hid.symm.trans hversion)

/-- Where the newest version of the key is dated last, the search finds it, however the listing of the
key is cut. -/
theorem latestRestorable_iff (hbucket : S3Order bucket) {key : String}
    (hdate : IsDeleted bucket key → DatedNewest bucket key) {pages : List VersionsPage}
    (h : Paged (listing (some key) bucket) pages) (versionId : String) :
    latestRestorableVersion key pages = some (.ok (some versionId)) ↔
      IsDeleted bucket key ∧ newestVersion bucket key = some versionId := by
  have hown : hasPrefix key key = true := by simp [hasPrefix]
  have hdeleted := any_currentMarker_listing bucket key key
  rw [hown, eq_self, true_and] at hdeleted
  rw [← newestVersion_listing bucket hown]
  unfold latestRestorableVersion
  by_cases hmarker : IsDeleted bucket key
  · rw [searchPages_of_paged h key (identified_listing hbucket (some key))
      ((datedNewest_listing bucket key).mpr (hdate hmarker)) ((latestFirst hbucket).filter _) false]
    unfold searched
    rw [Bool.false_or, if_pos (hdeleted.mpr hmarker), and_iff_right hmarker]
    show _ ↔ ((listing (some key) bucket).find? (isVersionOf key)).bind _ = _
    cases (listing (some key) bucket).find? (isVersionOf key) with
    | none => simp
    | some entry => simp
  · have hnone : (listing (some key) bucket).any (isCurrentMarkerOf key) = false := by
      rw [← Bool.not_eq_true, hdeleted]
      exact hmarker
    rw [searchPages_of_no_marker h hnone]
    simp [hmarker]

/-- The search for a key finds exactly the version of its candidate, however its listing is cut. -/
def SearchAgrees (bucket : List Listed) (store : ObjectRestoreStore) (key : String) : Prop :=
  ∀ single, Paged (listing (some key) bucket) single → ∀ versionId,
    latestRestorableVersion key single = some (.ok (some versionId)) ↔
      (key, versionId) ∈ candidates store

/-- Of a deleted key of the folder that is so exactly when no version is dated after the newest one. -/
theorem searchAgrees_iff (hbucket : S3Order bucket) {pre : String} {store : ObjectRestoreStore}
    (h : Indexes (listing (some pre) bucket) {} store) {key : String}
    (hpre : hasPrefix pre key = true) :
    SearchAgrees bucket store key ↔ (IsDeleted bucket key → DatedNewest bucket key) := by
  have hmem := fun versionId => @mem_candidates_iff bucket hbucket pre store h key versionId
  simp only [hpre, true_and] at hmem
  constructor
  · intro hagrees hdeleted
    have hlisted : (listing (some key) bucket).any (isCurrentMarkerOf key) = true :=
      (any_currentMarker_listing bucket key key).mpr ⟨by simp [hasPrefix], hdeleted⟩
    cases hfirst : bucket.find? (isVersionOf key) with
    | none =>
      intro first hsome
      rw [hfirst] at hsome
      cases hsome
    | some first =>
      have hin := List.mem_of_find?_eq_some hfirst
      obtain ⟨identity, hidentity⟩ := Option.isSome_iff_exists.mp (hbucket.identified first hin)
      obtain ⟨-, hversion, -, -⟩ := rawIdentity_some hidentity
      have hnewest : newestVersion bucket key = some identity.2 := by
        show (bucket.find? (isVersionOf key)).bind _ = _
        rw [hfirst]
        exact hversion
      have hsearch := (hagrees _ (paged_wholePage _) identity.2).mpr
        ((hmem identity.2).mpr ⟨hdeleted, hnewest⟩)
      rw [← datedNewest_listing]
      refine datedNewest_of_search (identified_listing hbucket (some key)) ?_ hlisted
        ((find_version_listing bucket (by simp [hasPrefix])).trans hfirst) (hversion ▸ hsearch)
      exact hbucket.distinct.sublist (List.filter_sublist.map entryIdentity)
  · intro hdate single hsingle versionId
    rw [hmem, latestRestorable_iff hbucket hdate hsingle]

/-- For every listing in S3 order and every cut into pages: the candidates are the deleted keys of the
folder that have an object version, each once and with its newest one; the search for one object finds
that version in every cut of its own listing exactly when no version of a deleted key is dated after the
newest one. A run ends after a bounded number of steps, and goes on until it is completed or cancelled;
however the calls end, some run completes; a completed run has recorded every candidate once, as restored
or as failed; and whatever a run changes is a copy onto a key that is deleted at that moment. -/
theorem restore_is_consistent (hbucket : S3Order bucket) (pre : String) {pages : List VersionsPage}
    (hpages : Paged (listing (some pre) bucket) pages) :
    ∃ store counts, scan {} {} pages = some (store, counts) ∧
      ((candidates store).map Prod.fst).Nodup ∧
      (∀ key versionId, (key, versionId) ∈ candidates store ↔
        hasPrefix pre key = true ∧ IsDeleted bucket key ∧
          newestVersion bucket key = some versionId) ∧
      ((∀ key, hasPrefix pre key = true → SearchAgrees bucket store key) ↔
        ∀ key, hasPrefix pre key = true → IsDeleted bucket key → DatedNewest bucket key) ∧
      (∀ attempts : String → Attempt, ∃ s, Reachable bucket store s ∧ s.phase = .completed ∧
        ∀ r ∈ s.recorded, r.2 = (attempts r.1).outcome) ∧
      ∀ s, Reachable bucket store s →
        (s.phase = .running → ∃ label s', label ≠ .cancel ∧ step s label = some s') ∧
        (s.phase = .completed →
          (s.recorded.map Prod.fst).Perm ((candidates store).map Prod.fst) ∧
          (∀ key ∈ restoredOf s.recorded, visible s.bucket key = true) ∧
          s.restoredObjects = (restoredOf s.recorded).length ∧
          s.failedObjects = (failedOf s.recorded).length ∧
          s.restoredObjects + s.failedObjects = (candidates store).length ∧
          s.failures = (failedOf s.recorded).take failureDetailLimit) ∧
        ∀ label s', step s label = some s' → s'.remaining < s.remaining ∧
          (s'.bucket = s.bucket ∨ ∃ key versionId stamp, (key, versionId) ∈ candidates store ∧
            copyObject s.bucket key versionId stamp = some s'.bucket ∧
            visible s.bucket key = false) := by
  obtain ⟨store, counts, hscan, hindexes⟩ := scan_of_paged hpages {} {}
  have hwanted := candidates_nodup (hindexes.nodup List.nodup_nil)
  have hsourced := sourced_candidates hbucket hindexes
  have hmem : ∀ key versionId, (key, versionId) ∈ candidates store ↔ _ :=
    fun key versionId => mem_candidates_iff hbucket hindexes
  have hdeleted : ∀ row ∈ candidates store, visible bucket row.1 = false := fun row hrow =>
    not_visible_of_isDeleted (latestFirst hbucket) ((hmem row.1 row.2).mp hrow).2.1
  have hstart := start_inv bucket store
  refine ⟨store, counts, hscan, hwanted, hmem, forall₂_congr fun key hpre =>
    searchAgrees_iff hbucket hindexes hpre, fun attempts => ?_, fun s hs => ?_⟩
  · have hfollows : Follows attempts (start bucket store) :=
      ⟨by simp [start], by simp [start], by simp [start]⟩
    obtain ⟨s, hs, hphase, hend⟩ := exists_completed hwanted hsourced hstart hfollows
    exact ⟨s, hs, hphase, hend.recorded⟩
  have hinv : RunInv bucket (candidates store) s :=
    hs.invariant hstart fun _ _ _ hinv _ hstep => step_inv hwanted hinv hstep
  refine ⟨fun hphase => ?_, fun hphase => ?_, fun label s' hstep =>
    ⟨step_remaining hstep, step_copies hinv hwanted hdeleted hstep⟩⟩
  · obtain ⟨label, s', hchosen, hstep⟩ :=
      hinv.exists_step hwanted hsourced (fun _ => .failed "" none) hphase
    exact ⟨label, s', hchosen.1, hstep⟩
  · obtain ⟨hfutures, hrest⟩ := hinv.completed hphase
    have haccount := hinv.account
    rw [hfutures, hrest, List.map_nil, List.map_nil, List.append_nil, List.append_nil] at haccount
    refine ⟨haccount, ?_, hinv.restoredObjects, hinv.failedObjects, ?_, hinv.failures⟩
    · intro key hkey
      obtain ⟨r, hr, rfl⟩ := List.mem_map.mp hkey
      obtain ⟨hin, hrestored⟩ := List.mem_filter.mp hr
      exact hinv.recorded r hin (of_decide_eq_true hrestored)
    · have hlength := haccount.length_eq
      rw [List.length_map, List.length_map] at hlength
      rw [hinv.restoredObjects, hinv.failedObjects, recorded_split, hlength]

/-- A deleted key with two versions of the given dates. -/
def trashBucket (newer older : ℤ) : List Listed :=
  [⟨true, ⟨some "a/x", some "9", true, some 30, 0, none, none⟩⟩,
    ⟨false, ⟨some "a/x", some "2", false, some newer, 1, none, none⟩⟩,
    ⟨false, ⟨some "a/x", some "1", false, some older, 1, none, none⟩⟩]

/-- The marker ends the first page. -/
def trashPages (newer older : ℤ) : List VersionsPage :=
  [{ versions := [], deleteMarkers := [⟨some "a/x", some "9", true, some 30, 0, none, none⟩]
     nextKeyMarker := some "a/x", nextVersionIdMarker := some "9", isTruncated := true },
    { versions := [⟨some "a/x", some "2", false, some newer, 1, none, none⟩,
        ⟨some "a/x", some "1", false, some older, 1, none, none⟩]
      deleteMarkers := [], nextKeyMarker := none, nextVersionIdMarker := none
      isTruncated := false }]

theorem trashBucket_s3Order (newer older : ℤ) : S3Order (trashBucket newer older) where
  identified := by
    intro entry hentry
    simp only [trashBucket, List.mem_cons, List.not_mem_nil, or_false] at hentry
    rcases hentry with rfl | rfl | rfl <;> rfl
  distinct := by
    show [some ("a/x", "9"), some ("a/x", "2"), some ("a/x", "1")].Nodup
    decide
  latest := by
    intro front entry back h
    rcases front with _ | ⟨first, _ | ⟨second, _ | ⟨third, front⟩⟩⟩ <;>
      simp only [trashBucket, List.nil_append, List.cons_append, List.cons.injEq] at h
    · obtain ⟨rfl, -⟩ := h
      simp
    · obtain ⟨rfl, rfl, -⟩ := h
      simp [entryKey]
    · obtain ⟨rfl, rfl, rfl, -⟩ := h
      simp [entryKey]
    · simp at h

theorem trashPages_paged (newer older : ℤ) :
    Paged (listing (some "a/") (trashBucket newer older)) (trashPages newer older) := by
  show Paged ((trashBucket newer older).take 1 ++ (trashBucket newer older).drop 1) _
  exact .more ⟨rfl, rfl⟩ rfl (by decide) (.last ⟨rfl, rfl⟩ rfl)

theorem trashBucket_datedNewest {key : String} : DatedNewest (trashBucket 20 10) key := by
  intro first hfirst entry hentry hversion
  have hkey : key = "a/x" := by
    have hname := isOf_of_isVersionOf hversion
    simp only [trashBucket, List.mem_cons, List.not_mem_nil, or_false] at hentry
    rcases hentry with rfl | rfl | rfl <;> exact (Option.some.inj hname).symm
  subst hkey
  cases hfirst
  simp only [trashBucket, List.mem_cons, List.not_mem_nil, or_false] at hentry
  rcases hentry with rfl | rfl | rfl
  · cases hversion
  · rfl
  · rfl

/-- The version of the date 20 is the candidate and what the search finds, and a run whose calls all
succeed completes with the key visible. -/
theorem restore_is_consistent_trash : ∃ store counts,
    scan {} {} (trashPages 20 10) = some (store, counts) ∧ ("a/x", "2") ∈ candidates store ∧
      SearchAgrees (trashBucket 20 10) store "a/x" ∧
      ∃ s, Reachable (trashBucket 20 10) store s ∧ s.phase = .completed ∧
        "a/x" ∈ restoredOf s.recorded ∧ visible s.bucket "a/x" = true := by
  obtain ⟨store, counts, hscan, -, hmem, hagrees, hcompletes, hruns⟩ :=
    restore_is_consistent (trashBucket_s3Order 20 10) "a/" (trashPages_paged 20 10)
  have hcandidate : ("a/x", "2") ∈ candidates store :=
    (hmem "a/x" "2").mpr ⟨by decide, ⟨_, List.mem_cons_self, rfl, rfl, rfl⟩, rfl⟩
  refine ⟨store, counts, hscan, hcandidate,
    hagrees.mpr (fun _ _ _ => trashBucket_datedNewest) "a/x" (by decide), ?_⟩
  obtain ⟨s, hs, hphase, hend⟩ := hcompletes fun _ => .restored ⟨"10", 40⟩
  obtain ⟨haccount, hvisible, -⟩ := (hruns s hs).2.1 hphase
  have hrestored : "a/x" ∈ restoredOf s.recorded := by
    obtain ⟨r, hr, hkey⟩ := List.mem_map.mp
      (haccount.symm.subset (List.mem_map_of_mem hcandidate))
    exact List.mem_map.mpr ⟨r, List.mem_filter.mpr ⟨hr, by simp [hend r hr, Attempt.outcome]⟩, hkey⟩
  exact ⟨s, hs, hphase, hrestored, hvisible "a/x" hrestored⟩

/-- Where the version listed first is dated earlier than the next one, the folder restores the first and
the search finds the second. -/
theorem restore_disagrees : ¬∀ bucket, S3Order bucket → ∀ pre pages,
    Paged (listing (some pre) bucket) pages → ∃ store counts,
      scan {} {} pages = some (store, counts) ∧
        ∀ key, hasPrefix pre key = true → SearchAgrees bucket store key := by
  intro h
  obtain ⟨store, counts, hscan, hagrees⟩ :=
    h (trashBucket 10 20) (trashBucket_s3Order 10 20) "a/" _ (trashPages_paged 10 20)
  cases hscan
  have hsearch : latestRestorableVersion "a/x"
      [wholePage (listing (some "a/x") (trashBucket 10 20))] = some (.ok (some "1")) := by
    decide
  have hcandidate := (hagrees "a/x" (by decide) _ (paged_wholePage _) "1").mp hsearch
  revert hcandidate
  decide

end DeletedObjects
end BucketReef

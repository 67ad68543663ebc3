import BucketReef.Versions.ScanInvariant
import BucketReef.Versions.CurrentVersion
import Mathlib.Data.List.Induction

/-!
# The pre-sync watermark

The pre-sync keeps the newest replayed datetime and its ties; the cutover replays what that
watermark does not cover. A version the pre-sync did not replay is therefore replayed at cutover
exactly when it is not older than the newest replayed one. Versions go unreplayed in two ways: they
were written behind the scan, or a watermark left by an interrupted pre-sync covered them.
-/

namespace BucketReef
namespace Versions

open Lists

/-! ## Replay plans -/

/-- The two entries of `replication_state` the replay reads. -/
structure ReplicationState where
  preSyncWatermark : Option Watermark := none
  cutoverAttempted : Bool := false
  deriving DecidableEq, Repr

inductive ReplayMode
  | oneShotFull | preSyncFull | cutoverFullMissingWatermark | cutoverFullRetry | cutoverDelta
  deriving DecidableEq, Repr

structure ReplayPlan where
  purgeBeforeReplay : Bool
  replayMode : ReplayMode
  watermark : Option Watermark
  replicationState : ReplicationState
  deriving DecidableEq, Repr

/-- `_select_replay_plan`: the runner starts from the stored watermark. -/
def selectReplayPlan (preSyncMode preSyncDone readOnlyApplied : Bool) (state : ReplicationState) :
    ReplayPlan :=
  if preSyncMode ∧ ¬ preSyncDone then
    ⟨true, .preSyncFull, state.preSyncWatermark, { state with cutoverAttempted := false }⟩
  else if ¬ preSyncMode ∨ ¬ preSyncDone ∨ ¬ readOnlyApplied then
    ⟨true, .oneShotFull, state.preSyncWatermark, state⟩
  else if state.preSyncWatermark = none then
    ⟨true, .cutoverFullMissingWatermark, none, state⟩
  else if state.cutoverAttempted then
    ⟨true, .cutoverFullRetry, none, state⟩
  else
    ⟨false, .cutoverDelta, state.preSyncWatermark, { state with cutoverAttempted := true }⟩

def storePreSyncWatermark (plan : ReplayPlan) (preSyncWatermark : Option Watermark) :
    ReplicationState :=
  if plan.replayMode ≠ .preSyncFull then plan.replicationState
  else ⟨preSyncWatermark, false⟩

/-- The plan of a pre-sync step. -/
def preSyncPlan (state : ReplicationState) : ReplayPlan := selectReplayPlan true false false state

/-- The plan of the first cutover after a pre-sync that finished with `watermark`. -/
def cutoverPlan (state : ReplicationState) (watermark : Option Watermark) : ReplayPlan :=
  selectReplayPlan true true true (storePreSyncWatermark (preSyncPlan state) watermark)

@[simp] theorem preSyncPlan_watermark (state : ReplicationState) :
    (preSyncPlan state).watermark = state.preSyncWatermark := rfl

@[simp] theorem cutoverPlan_watermark (state : ReplicationState) (watermark : Option Watermark) :
    (cutoverPlan state watermark).watermark = watermark := by
  cases watermark <;> rfl

/-! ## What a watermark covers -/

/-- `builder` has seen exactly `entries`: their newest datetime, and its ties. -/
def Summarizes (entries : List BucketVersionEntry) (builder : VersionReplayWatermarkBuilder) : Prop :=
  match builder.latestDt with
  | none => entries = []
  | some latest =>
    (∃ e ∈ entries, normalizeDatetime e.lastModified = latest) ∧
    (∀ e ∈ entries, normalizeDatetime e.lastModified ≤ latest) ∧
    ∀ signature, signature ∈ builder.tieEntries ↔
      ∃ e ∈ entries, normalizeDatetime e.lastModified = latest ∧ versionWatermarkSignature e = signature

theorem Summarizes.add {entries : List BucketVersionEntry} {builder : VersionReplayWatermarkBuilder}
    (h : Summarizes entries builder) (entry : BucketVersionEntry) :
    Summarizes (entries ++ [entry]) (addVersionReplayWatermarkEntry builder entry) := by
  cases hlatest : builder.latestDt with
  | none =>
    simp only [Summarizes, hlatest] at h
    subst h
    simp [Summarizes, addVersionReplayWatermarkEntry, hlatest, eq_comm]
  | some latest =>
    simp only [Summarizes, hlatest] at h
    obtain ⟨⟨top, htop, htopEq⟩, hle, hties⟩ := h
    by_cases hnewer : latest < normalizeDatetime entry.lastModified
    · -- a newer datetime restarts the ties
      simp only [Summarizes, addVersionReplayWatermarkEntry, hlatest, if_pos hnewer]
      refine ⟨⟨entry, by simp, rfl⟩, ?_, ?_⟩
      · intro e he
        rcases List.mem_append.mp he with he | he
        · exact (hle e he).trans hnewer.le
        · rw [List.mem_singleton.mp he]
      · intro signature
        constructor
        · intro hsig
          exact ⟨entry, by simp, rfl, (List.mem_singleton.mp hsig).symm⟩
        · rintro ⟨e, he, heq, rfl⟩
          rcases List.mem_append.mp he with he | he
          · exact absurd heq ((hle e he).trans_lt hnewer).ne
          · rw [List.mem_singleton.mp he]
            exact List.mem_singleton_self _
    · by_cases htie : normalizeDatetime entry.lastModified = latest
      · simp only [Summarizes, addVersionReplayWatermarkEntry, hlatest, if_neg hnewer, if_pos htie]
        refine ⟨⟨top, by simp [htop], htopEq⟩, ?_, ?_⟩
        · intro e he
          rcases List.mem_append.mp he with he | he
          · exact hle e he
          · rw [List.mem_singleton.mp he, htie]
        · intro signature
          rw [List.mem_append, hties]
          constructor
          · rintro (⟨e, he, heq, rfl⟩ | hsig)
            · exact ⟨e, by simp [he], heq, rfl⟩
            · exact ⟨entry, by simp, htie, (List.mem_singleton.mp hsig).symm⟩
          · rintro ⟨e, he, heq, rfl⟩
            rcases List.mem_append.mp he with he | he
            · exact .inl ⟨e, he, heq, rfl⟩
            · rw [List.mem_singleton.mp he]
              exact .inr (List.mem_singleton_self _)
      · simp only [Summarizes, addVersionReplayWatermarkEntry, hlatest, if_neg hnewer, if_neg htie]
        refine ⟨⟨top, by simp [htop], htopEq⟩, ?_, ?_⟩
        · intro e he
          rcases List.mem_append.mp he with he | he
          · exact hle e he
          · rw [List.mem_singleton.mp he]
            exact not_lt.mp hnewer
        · intro signature
          rw [hties]
          constructor
          · rintro ⟨e, he, heq, rfl⟩
            exact ⟨e, by simp [he], heq, rfl⟩
          · rintro ⟨e, he, heq, rfl⟩
            rcases List.mem_append.mp he with he | he
            · exact ⟨e, he, heq, rfl⟩
            · rw [List.mem_singleton.mp he] at heq
              exact absurd heq htie

theorem summarizes_foldl (entries : List BucketVersionEntry) :
    Summarizes entries (entries.foldl addVersionReplayWatermarkEntry {}) := by
  induction entries using List.reverseRecOn with
  | nil => rfl
  | append_singleton front entry ih =>
    rw [List.foldl_append]
    exact ih.add entry

/-- The watermark of a replay covers the replayed entries, and of the others exactly those older
than a replayed one. -/
theorem isAfter_finish_iff {entries : List BucketVersionEntry} {entry : BucketVersionEntry} :
    entryIsAfterWatermark entry (finishVersionReplayWatermark
        (entries.foldl addVersionReplayWatermarkEntry {})) = true ↔
      versionWatermarkSignature entry ∉ (entries.filter fun e =>
          normalizeDatetime e.lastModified = normalizeDatetime entry.lastModified).map
        versionWatermarkSignature ∧
      ∀ e ∈ entries, normalizeDatetime e.lastModified ≤ normalizeDatetime entry.lastModified := by
  have hspec := summarizes_foldl entries
  generalize entries.foldl addVersionReplayWatermarkEntry {} = builder at hspec
  cases hlatest : builder.latestDt with
  | none =>
    simp only [Summarizes, hlatest] at hspec
    simp [finishVersionReplayWatermark, hlatest, entryIsAfterWatermark, hspec]
  | some latest =>
    simp only [Summarizes, hlatest] at hspec
    obtain ⟨⟨top, htop, htopEq⟩, hle, hties⟩ := hspec
    simp only [finishVersionReplayWatermark, hlatest, Option.map_some, entryIsAfterWatermark]
    rcases lt_trichotomy latest (normalizeDatetime entry.lastModified) with hlt | heq | hgt
    · rw [if_pos hlt]
      simp only [true_iff]
      refine ⟨?_, fun e he => (hle e he).trans hlt.le⟩
      intro hmem
      obtain ⟨e, he, -⟩ := List.mem_map.mp hmem
      obtain ⟨he, hsame⟩ := List.mem_filter.mp he
      exact ((hle e he).trans_lt hlt).ne (by simpa using hsame)
    · rw [if_neg heq.not_lt, if_neg heq.not_gt, decide_eq_true_eq, hties]
      subst heq
      constructor
      · intro hnot
        refine ⟨?_, hle⟩
        intro hmem
        obtain ⟨e, he, hsig⟩ := List.mem_map.mp hmem
        obtain ⟨he, hsame⟩ := List.mem_filter.mp he
        exact hnot ⟨e, he, by simpa using hsame, hsig⟩
      · rintro ⟨hnot, -⟩ ⟨e, he, hsame, hsig⟩
        exact hnot (List.mem_map.mpr ⟨e, List.mem_filter.mpr ⟨he, by simpa using hsame⟩, hsig⟩)
    · rw [if_neg hgt.not_gt, if_pos hgt]
      simp only [Bool.false_eq_true, false_iff, not_and, not_forall]
      intro _
      exact ⟨top, htop, by rw [htopEq]; exact not_le.mpr hgt⟩

/-! ## The delta replay -/

/-- The entry of a source version, at an arbitrary arrival index. -/
def SourceVersion.entry (v : SourceVersion) : BucketVersionEntry := (v.listed []).entry 0

/-- The watermark test of a source version. -/
def SourceVersion.isAfter (v : SourceVersion) (watermark : Option Watermark) : Bool :=
  entryIsAfterWatermark v.entry watermark

/-- What the watermark keeps of a version. -/
def SourceVersion.signature (v : SourceVersion) : String × String × Bool :=
  (v.key, v.versionId, v.isDeleteMarker)

@[simp] theorem signature_entry (v : ListedVersion) (i : ℕ) :
    versionWatermarkSignature (v.entry i) = v.source.signature := rfl

@[simp] theorem normalizeDatetime_entry (v : ListedVersion) (i : ℕ) :
    normalizeDatetime (v.entry i).lastModified = v.source.lastModified := rfl

theorem eq_of_signature {bucket : List SourceVersion} (h : SourceBucket bucket) {v w : SourceVersion}
    (hv : v ∈ bucket) (hw : w ∈ bucket) (hsig : v.signature = w.signature) : v = w := by
  by_contra hne
  have hident : v.ident = w.ident := by
    simp only [SourceVersion.signature, Prod.mk.injEq] at hsig
    simp [SourceVersion.ident, hsig]
  rcases pairwise_or h.distinct hv hw hne with hd | hd
  · exact hd hident
  · exact hd hident.symm

/-- The versions a replay over `pages` made a remote call for, when it completes. -/
theorem replayed_of_paged {listing : List ListedVersion} {pages : List Page} {env : ReplayEnv}
    {watermark watermark' : Option Watermark} {target : TargetBucket} {copied : ℕ} {st : ReplayState}
    (hpaged : Paged listing pages) (hkeys : listing.Pairwise fun a b => a.key ≤ b.key)
    (hreplay : replayBucketVersions env watermark (iterBucketVersionTimelines pages) target =
      .ok (copied, watermark', st)) :
    watermark' = finishVersionReplayWatermark
        (st.replayed.foldl addVersionReplayWatermarkEntry {}) ∧
      (∀ e ∈ st.replayed, ∃ v ∈ listing, ∃ i, e = v.entry i ∧ v.source.isAfter watermark = true) ∧
      ∀ v ∈ listing, v.source.isAfter watermark = true → ∃ i, v.entry i ∈ st.replayed := by
  obtain ⟨arrival, grouped, timelines, harrival, hperm, hscan, hyields⟩ :=
    scanPages_of_paged hpaged hkeys (Grouped.start 0 : Grouped [] {}) (by simp)
  obtain ⟨yielded, hyielded, -, hwatermark, -, hreplayed⟩ := replayBucketVersions_ok hreplay
  have hiter : iterBucketVersionTimelines pages = .ok timelines := hscan
  rw [hiter, Except.ok.injEq] at hyielded
  subst hyielded
  rw [← hreplayed] at hwatermark
  refine ⟨hwatermark, ?_, ?_⟩
  · intro e he
    rw [hreplayed, mem_selected] at he
    obtain ⟨p, hp, hep⟩ := List.mem_flatMap.mp he.1
    rw [(hyields.timelines p hp).2] at hep
    obtain ⟨v, hv, i, -, rfl⟩ := mem_numbered (hperm.mem_iff.mp (mem_timelineOf.mp hep).1)
    exact ⟨v, harrival.mem_iff.mp hv, i, rfl, he.2⟩
  · intro v hv hafter
    obtain ⟨i, hi⟩ := entry_mem_numbered (harrival.mem_iff.mpr hv) 0
    have hgrouped : v.entry i ∈ grouped := hperm.mem_iff.mpr hi
    refine ⟨i, ?_⟩
    rw [hreplayed, mem_selected]
    refine ⟨List.mem_flatMap.mpr ⟨_, hyields.covered _ hgrouped, ?_⟩, hafter⟩
    exact mem_timelineOf.mpr ⟨hgrouped, rfl⟩

/-- A version of the bucket the pre-sync did not replay: it was written behind the scan, or a
watermark left by an interrupted pre-sync covers it. -/
def Overlooked (s : SourceScan) (leftover : Option Watermark) (v : SourceVersion) : Prop :=
  (v, true) ∈ s.writes ∨ v.isAfter leftover = false

/-- No overlooked version is older than one that is not. -/
def NothingOvertaken (s : SourceScan) (leftover : Option Watermark) : Prop :=
  ∀ v ∈ s.bucket, Overlooked s leftover v →
    ∀ w ∈ s.bucket, ¬ Overlooked s leftover w → w.lastModified ≤ v.lastModified

/-- The cutover replays exactly what the pre-sync did not. -/
def DeltaComplete (s : SourceScan) (pre cut : ReplayState) : Prop :=
  ∀ v ∈ s.bucket, v.signature ∈ cut.replayed.map versionWatermarkSignature ↔
    v.signature ∉ pre.replayed.map versionWatermarkSignature

/-- The versions a pre-sync replay of a finished scan made a call for. -/
theorem presync_replayed_iff {initial : List SourceVersion} {s : SourceScan} {env : ReplayEnv}
    {leftover watermark : Option Watermark} {target : TargetBucket} {copied : ℕ} {pre : ReplayState}
    (h : ScanInvariant initial s) (hdone : s.position = .done)
    (hpre : replayBucketVersions env leftover (iterBucketVersionTimelines s.pages) target =
      .ok (copied, watermark, pre)) {v : SourceVersion} (hv : v ∈ s.bucket) :
    v.signature ∈ pre.replayed.map versionWatermarkSignature ↔ ¬ Overlooked s leftover v := by
  have hpaged : Paged s.scanned s.pages := by simpa [hdone] using h.pages
  obtain ⟨-, hlisted, hcovered⟩ := replayed_of_paged hpaged h.scanned_ascending hpre
  rw [Overlooked, not_or, ← seen_iff_not_behind h hdone hv, Bool.not_eq_false]
  constructor
  · intro hmem
    obtain ⟨e, he, hsig⟩ := List.mem_map.mp hmem
    obtain ⟨u, hu, i, rfl, hafter⟩ := hlisted e he
    have hseen : u.source ∈ s.seen := List.mem_map_of_mem hu
    have hvu : u.source = v := eq_of_signature h.ordered (h.seen_mem _ hseen).1 hv hsig
    exact ⟨hvu ▸ hseen, hvu ▸ hafter⟩
  · rintro ⟨hseen, hafter⟩
    obtain ⟨u, hu, rfl⟩ := List.mem_map.mp hseen
    obtain ⟨i, hi⟩ := hcovered u hu hafter
    exact List.mem_map.mpr ⟨_, hi, rfl⟩

/-- The versions a cutover replay of the whole bucket made a call for. -/
theorem cutover_replayed_iff {bucket : List SourceVersion} {pages : List Page} {env : ReplayEnv}
    {watermark watermark' : Option Watermark} {target : TargetBucket} {copied : ℕ} {cut : ReplayState}
    (hbucket : SourceBucket bucket) (hpaged : Paged (bucket.map (SourceVersion.listed bucket)) pages)
    (hcut : replayBucketVersions env watermark (iterBucketVersionTimelines pages) target =
      .ok (copied, watermark', cut)) {v : SourceVersion} (hv : v ∈ bucket) :
    v.signature ∈ cut.replayed.map versionWatermarkSignature ↔ v.isAfter watermark = true := by
  have hkeys : (bucket.map (SourceVersion.listed bucket)).Pairwise fun a b => a.key ≤ b.key :=
    List.pairwise_map.mpr hbucket.keys_ascending
  obtain ⟨-, hlisted, hcovered⟩ := replayed_of_paged hpaged hkeys hcut
  constructor
  · intro hmem
    obtain ⟨e, he, hsig⟩ := List.mem_map.mp hmem
    obtain ⟨u, hu, i, rfl, hafter⟩ := hlisted e he
    obtain ⟨w, hw, rfl⟩ := List.mem_map.mp hu
    rw [← eq_of_signature hbucket hw hv hsig]
    exact hafter
  · intro hafter
    obtain ⟨i, hi⟩ := hcovered (v.listed bucket) (List.mem_map_of_mem hv) hafter
    exact List.mem_map.mpr ⟨_, hi, rfl⟩

/-- **The cutover delta is complete** exactly when no version the pre-sync overlooked is older than
one it replayed. -/
theorem deltaComplete_iff_nothingOvertaken {bucket : List SourceVersion} {s : SourceScan}
    {state : ReplicationState} {env env' : ReplayEnv} {target target' : TargetBucket}
    {watermark watermark' : Option Watermark} {copied copied' : ℕ} {pre cut : ReplayState}
    {pages : List Page} (hreaches : ScanReaches bucket s) (hdone : s.position = .done)
    (hpre : replayBucketVersions env (preSyncPlan state).watermark
      (iterBucketVersionTimelines s.pages) target = .ok (copied, watermark, pre))
    (hpaged : Paged (s.bucket.map (SourceVersion.listed s.bucket)) pages)
    (hcut : replayBucketVersions env' (cutoverPlan state watermark).watermark
      (iterBucketVersionTimelines pages) target' = .ok (copied', watermark', cut)) :
    DeltaComplete s pre cut ↔ NothingOvertaken s state.preSyncWatermark := by
  have hinv := scanInvariant_of_reaches hreaches
  rw [preSyncPlan_watermark] at hpre
  rw [cutoverPlan_watermark] at hcut
  have hscanned : Paged s.scanned s.pages := by simpa [hdone] using hinv.pages
  obtain ⟨hwatermark, hlisted, -⟩ :=
    replayed_of_paged hscanned hinv.scanned_ascending hpre
  have hpreIff := fun v hv => presync_replayed_iff hinv hdone hpre (v := v) hv
  have hcutIff := fun v hv => cutover_replayed_iff hinv.ordered hpaged hcut (v := v) hv
  -- a version passes the watermark when it is not a tie and nothing replayed is newer
  have hafter : ∀ v : SourceVersion, v.isAfter watermark = true ↔ versionWatermarkSignature v.entry ∉
      (pre.replayed.filter fun e =>
        normalizeDatetime e.lastModified = normalizeDatetime v.entry.lastModified).map
          versionWatermarkSignature ∧
      ∀ e ∈ pre.replayed, normalizeDatetime e.lastModified ≤ v.lastModified := by
    intro v
    rw [hwatermark, SourceVersion.isAfter, isAfter_finish_iff]
    rfl
  -- the replayed entries are the versions that were not overlooked
  have hreplayed : ∀ w ∈ s.bucket, ¬ Overlooked s state.preSyncWatermark w →
      ∃ e ∈ pre.replayed, normalizeDatetime e.lastModified = w.lastModified := by
    intro w hw hnot
    obtain ⟨e, he, hsig⟩ := List.mem_map.mp ((hpreIff w hw).mpr hnot)
    obtain ⟨u, hu, i, rfl, -⟩ := hlisted e he
    have hseen : u.source ∈ s.seen := List.mem_map_of_mem hu
    rw [← eq_of_signature hinv.ordered (hinv.seen_mem _ hseen).1 hw hsig]
    exact ⟨_, he, rfl⟩
  constructor
  · intro hcomplete v hv hoverlooked w hw hnot
    have hcutv : v.isAfter watermark = true := by
      rw [← hcutIff v hv, hcomplete v hv, hpreIff v hv, not_not]
      exact hoverlooked
    obtain ⟨e, he, hew⟩ := hreplayed w hw hnot
    rw [← hew]
    exact ((hafter v).mp hcutv).2 e he
  · intro hnothing v hv
    rw [hcutIff v hv, hpreIff v hv, not_not, hafter v]
    constructor
    · rintro ⟨htie, hnewest⟩
      by_contra hnot
      obtain ⟨e, he, hsig⟩ := List.mem_map.mp ((hpreIff v hv).mpr hnot)
      obtain ⟨u, hu, i, rfl, -⟩ := hlisted e he
      have hseen : u.source ∈ s.seen := List.mem_map_of_mem hu
      have huv : u.source = v := eq_of_signature hinv.ordered (hinv.seen_mem _ hseen).1 hv hsig
      refine htie (List.mem_map.mpr ⟨_, List.mem_filter.mpr ⟨he, ?_⟩, hsig⟩)
      rw [normalizeDatetime_entry, huv]
      simp [SourceVersion.entry, SourceVersion.listed, ListedVersion.entry, normalizeDatetime]
    · intro hoverlooked
      refine ⟨fun hmem => ?_, fun e he => ?_⟩
      · obtain ⟨e, he, hsig⟩ := List.mem_map.mp hmem
        have hreplayedV : v.signature ∈ pre.replayed.map versionWatermarkSignature :=
          List.mem_map.mpr ⟨e, (List.mem_filter.mp he).1, hsig⟩
        exact (hpreIff v hv).mp hreplayedV hoverlooked
      · obtain ⟨u, hu, i, rfl, -⟩ := hlisted e he
        have hseen : u.source ∈ s.seen := List.mem_map_of_mem hu
        have hub := (hinv.seen_mem _ hseen).1
        refine hnothing v hv hoverlooked _ hub ((hpreIff _ hub).mp ?_)
        exact List.mem_map.mpr ⟨_, he, rfl⟩

/-! ## An overtaken write -/

/-- A version whose write took place at second `seconds`. -/
def writtenAt (key versionId : String) (seconds : ℕ) (hkey : key ≠ "") (hversionId : versionId ≠ "") :
    SourceVersion where
  key := key
  versionId := versionId
  isDeleteMarker := false
  lastModified := seconds * 1000000
  size := 1
  etag := none
  storageClass := none
  key_ne := hkey
  versionId_ne := hversionId

/-- The scan reads `a`; then `a` is written again, and after it `z`; then the scan reads the rest. -/
def overtakenRun : SourceScan :=
  let initial : SourceScan :=
    { bucket := [writtenAt "a" "a1" 0 (by decide) (by decide), writtenAt "m" "m1" 0 (by decide) (by decide)] }
  (((initial.readPage 1).write (writtenAt "a" "a2" 1 (by decide) (by decide))).write
    (writtenAt "z" "z1" 2 (by decide) (by decide))).readPage 1000

theorem overtakenRun_reaches : ScanReaches
    [writtenAt "a" "a1" 0 (by decide) (by decide), writtenAt "m" "m1" 0 (by decide) (by decide)]
    overtakenRun := by
  refine ⟨⟨by decide, by decide⟩, ?_⟩
  refine .tail (.tail (.tail (.tail .refl (.page _ 1 (by decide) (by decide)))
    (.write _ _ (by decide) (by decide))) (.write _ _ (by decide) (by decide)))
    (.page _ 1000 (by decide) (by decide))

/-- The pre-sync of the run, with no interruption and no failed call. -/
def overtakenPresync : Except (ReplayStop × ReplayState) (ℕ × Option Watermark × ReplayState) :=
  replayBucketVersions (⟨fun _ => .run, fun _ => false⟩) (preSyncPlan {}).watermark
    (iterBucketVersionTimelines overtakenRun.pages) []

/-- The state a replay ends in. -/
def finalState : Except (ReplayStop × ReplayState) (ℕ × Option Watermark × ReplayState) → ReplayState
  | .ok (_, _, st) => st
  | .error (_, st) => st

/-- The watermark it leaves: the write of `z`. -/
def overtakenWatermark : Option Watermark := some ⟨some 2000000, [("z", "z1", false)]⟩

def overtakenCutover : Except (ReplayStop × ReplayState) (ℕ × Option Watermark × ReplayState) :=
  replayBucketVersions (⟨fun _ => .run, fun _ => false⟩) (cutoverPlan {} overtakenWatermark).watermark
    (iterBucketVersionTimelines
      [pageOf (overtakenRun.bucket.map (SourceVersion.listed overtakenRun.bucket)) none])
    (finalState overtakenPresync).target

theorem overtaken_iff : DeltaComplete overtakenRun (finalState overtakenPresync)
    (finalState overtakenCutover) ↔ NothingOvertaken overtakenRun none :=
  deltaComplete_iff_nothingOvertaken overtakenRun_reaches rfl
    (show overtakenPresync = .ok (3, overtakenWatermark, finalState overtakenPresync) from rfl)
    (.last (pageOf_carries _ none) rfl)
    (show overtakenCutover = .ok (0, none, finalState overtakenCutover) from rfl)

/-- The second version of `a` was written behind the scan and is older than the replayed `z`: neither
the pre-sync nor the cutover replays it. -/
theorem overtaken_write_lost :
    (ScanReaches [writtenAt "a" "a1" 0 (by decide) (by decide),
        writtenAt "m" "m1" 0 (by decide) (by decide)] overtakenRun ∧
      overtakenRun.position = .done) ∧
    overtakenPresync = .ok (3, overtakenWatermark, finalState overtakenPresync) ∧
    overtakenCutover = .ok (0, none, finalState overtakenCutover) ∧
    writtenAt "a" "a2" 1 (by decide) (by decide) ∈ overtakenRun.bucket ∧
    ("a", "a2", false) ∉ (finalState overtakenPresync).replayed.map versionWatermarkSignature ∧
    ("a", "a2", false) ∉ (finalState overtakenCutover).replayed.map versionWatermarkSignature ∧
    ¬ DeltaComplete overtakenRun (finalState overtakenPresync) (finalState overtakenCutover) := by
  have hmem : writtenAt "a" "a2" 1 (by decide) (by decide) ∈ overtakenRun.bucket := by decide
  have hpre : ("a", "a2", false) ∉
      (finalState overtakenPresync).replayed.map versionWatermarkSignature := by decide
  have hcut : ("a", "a2", false) ∉
      (finalState overtakenCutover).replayed.map versionWatermarkSignature := by decide
  exact ⟨⟨overtakenRun_reaches, rfl⟩, rfl, rfl, hmem, hpre, hcut,
    fun h => hcut ((h _ hmem).mpr hpre)⟩

end Versions
end BucketReef

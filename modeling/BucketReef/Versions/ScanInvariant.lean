import BucketReef.Versions.ScanRun

/-!
# What a finished scan has read

The invariant of a scan under concurrent writes: every version of the bucket that the scan has
passed was either carried by a page or written behind the scan, and no version ahead of it was.
-/

namespace BucketReef
namespace Versions

/-- The versions the pages carried. -/
def SourceScan.seen (s : SourceScan) : List SourceVersion := s.scanned.map ListedVersion.source

/-- Pages that a conforming continuation completes. -/
def PagedOpen (listing : List ListedVersion) (pages : List Page) : Prop :=
  ∀ listing' pages', Paged listing' pages' → Paged (listing ++ listing') (pages ++ pages')

theorem PagedOpen.nil : PagedOpen [] [] := fun _ _ h => h

theorem PagedOpen.more {listing chunk : List ListedVersion} {pages : List Page} {page : Page}
    (h : PagedOpen listing pages) (hcarries : page.Carries chunk) (hmore : page.isLast = false) :
    PagedOpen (listing ++ chunk) (pages ++ [page]) := by
  intro listing' pages' hpaged
  have := h _ _ (Paged.more hcarries hmore hpaged)
  simpa using this

structure ScanInvariant (initial : List SourceVersion) (s : SourceScan) : Prop where
  ordered : SourceBucket s.bucket
  split : ∃ passed ahead, SplitAt s.position s.bucket passed ahead ∧
    (∀ v ∈ passed, v ∈ s.seen ∨ (v, true) ∈ s.writes) ∧
    ∀ v ∈ ahead, v ∉ s.seen ∧ (v, true) ∉ s.writes
  seen_ascending : s.seen.Pairwise fun a b => a.key ≤ b.key
  seen_mem : ∀ v ∈ s.seen, v ∈ s.bucket ∧ (v, true) ∉ s.writes
  written_mem : ∀ p ∈ s.writes, p.1 ∈ s.bucket
  written_once : ∀ v, (v, true) ∈ s.writes → (v, false) ∉ s.writes
  origin : ∀ v ∈ s.bucket, v ∈ initial ∨ ∃ behind, (v, behind) ∈ s.writes
  initial_mem : ∀ v ∈ initial, v ∈ s.bucket
  initial_unwritten : ∀ v ∈ initial, ∀ behind, (v, behind) ∉ s.writes
  initial_oldest : ∀ v ∈ initial, ∀ p ∈ s.writes, v.lastModified ≤ p.1.lastModified
  pages : if s.position = .done then Paged s.scanned s.pages else PagedOpen s.scanned s.pages

theorem ScanInvariant.scanned_ascending {initial : List SourceVersion} {s : SourceScan}
    (h : ScanInvariant initial s) : s.scanned.Pairwise fun a b => a.key ≤ b.key := by
  have hseen := h.seen_ascending
  rw [SourceScan.seen, List.pairwise_map] at hseen
  exact hseen

theorem ScanInvariant.start {bucket : List SourceVersion} (h : SourceBucket bucket) :
    ScanInvariant bucket { bucket := bucket } where
  ordered := h
  split := ⟨[], bucket, ⟨rfl, rfl⟩, by simp, by simp [SourceScan.seen]⟩
  seen_ascending := List.Pairwise.nil
  seen_mem := by simp [SourceScan.seen]
  written_mem := by simp
  written_once := by simp
  origin := fun v hv => .inl hv
  initial_mem := fun v hv => hv
  initial_unwritten := by simp
  initial_oldest := by simp
  pages := PagedOpen.nil

theorem ScanInvariant.write {initial : List SourceVersion} {s : SourceScan}
    (h : ScanInvariant initial s) {v : SourceVersion} (hfresh : ∀ w ∈ s.bucket, w.ident ≠ v.ident)
    (hnewest : ∀ w ∈ s.bucket, w.lastModified ≤ v.lastModified) :
    ScanInvariant initial (s.write v) := by
  obtain ⟨passed, ahead, hsplit, hpassed, hahead⟩ := h.split
  obtain ⟨passed', ahead', hsplit', hmemPassed, hmemAhead⟩ := hsplit.write h.ordered v
  have hnew : v ∉ s.bucket := fun hv => hfresh v hv rfl
  have hunwritten : ∀ behind, (v, behind) ∉ s.writes := fun behind hv => hnew (h.written_mem _ hv)
  exact
    { ordered := h.ordered.insertVersion hfresh
      split := by
        refine ⟨passed', ahead', hsplit', ?_, ?_⟩
        · intro w hw
          rcases (hmemPassed w).mp hw with hw | ⟨rfl, hbehind⟩
          · exact (hpassed w hw).imp id fun hw => by simp [SourceScan.write, hw]
          · exact .inr (by simp [SourceScan.write, hbehind])
        · intro w hw
          rcases (hmemAhead w).mp hw with hw | ⟨rfl, hbehind⟩
          · have hwb : w ∈ s.bucket := by rw [hsplit.1]; simp [hw]
            refine ⟨(hahead w hw).1, ?_⟩
            have hwv : w ≠ v := fun heq => hnew (heq ▸ hwb)
            simp [SourceScan.write, (hahead w hw).2, hwv]
          · refine ⟨fun hseen => hnew (h.seen_mem w hseen).1, ?_⟩
            simp [SourceScan.write, hunwritten, hbehind]
      seen_ascending := h.seen_ascending
      seen_mem := by
        intro w hw
        obtain ⟨hwb, hbehind⟩ := h.seen_mem w hw
        have hwv : w ≠ v := fun heq => hnew (heq ▸ hwb)
        exact ⟨mem_insertVersion.mpr (.inr hwb), by simp [SourceScan.write, hbehind, hwv]⟩
      written_mem := by
        intro p hp
        rcases List.mem_append.mp hp with hp | hp
        · exact mem_insertVersion.mpr (.inr (h.written_mem p hp))
        · rw [List.mem_singleton.mp hp]
          exact mem_insertVersion.mpr (.inl rfl)
      written_once := by
        intro w htrue hfalse
        have htrue' := List.mem_append.mp htrue
        have hfalse' := List.mem_append.mp hfalse
        simp only [List.mem_singleton, Prod.mk.injEq] at htrue' hfalse'
        rcases htrue' with htrue | ⟨rfl, htrue⟩ <;> rcases hfalse' with hfalse | ⟨hwv, hfalse⟩
        · exact h.written_once w htrue hfalse
        · exact hunwritten true (hwv ▸ htrue)
        · exact hunwritten false hfalse
        · rw [← htrue] at hfalse
          cases hfalse
      origin := by
        intro w hw
        rcases mem_insertVersion.mp hw with rfl | hw
        · exact .inr ⟨_, List.mem_append_right _ (List.mem_singleton_self _)⟩
        · exact (h.origin w hw).imp id fun ⟨behind, hp⟩ => ⟨behind, List.mem_append_left _ hp⟩
      initial_mem := fun w hw => mem_insertVersion.mpr (.inr (h.initial_mem w hw))
      initial_unwritten := by
        intro w hw behind hp
        rcases List.mem_append.mp hp with hp | hp
        · exact h.initial_unwritten w hw behind hp
        · have heq : w = v := congrArg Prod.fst (List.mem_singleton.mp hp)
          exact hnew (heq ▸ h.initial_mem w hw)
      initial_oldest := by
        intro w hw p hp
        rcases List.mem_append.mp hp with hp | hp
        · exact h.initial_oldest w hw p hp
        · rw [List.mem_singleton.mp hp]
          exact hnewest w (h.initial_mem w hw)
      pages := h.pages }

theorem pageOf_carries (chunk : List ListedVersion) (next : Option (String × String)) :
    (pageOf chunk next).Carries chunk := ⟨rfl, rfl⟩

/-- A key or version id in a response is never empty, so a truncated page is not the last. -/
theorem pageOf_isLast_none (chunk : List ListedVersion) : (pageOf chunk none).isLast = true := rfl

theorem pageOf_isLast_some (chunk : List ListedVersion) (v : SourceVersion) :
    (pageOf chunk (some v.ident)).isLast = false := by
  simp [pageOf, Page.isLast, markerSet, SourceVersion.ident, v.key_ne]

/-- What a request does: the listing ahead is split at the page's end. -/
theorem SplitAt.page {s : SourceScan} {passed ahead : List SourceVersion}
    (h : SplitAt s.position s.bucket passed ahead) (hbucket : SourceBucket s.bucket)
    {maxKeys : ℕ} (hpositive : 0 < maxKeys) :
    (s.readPage maxKeys).scanned =
        s.scanned ++ (ahead.take maxKeys).map (SourceVersion.listed s.bucket) ∧
      SplitAt (s.readPage maxKeys).position s.bucket (passed ++ ahead.take maxKeys)
        (ahead.drop maxKeys) ∧
      ∃ page, (s.readPage maxKeys).pages = s.pages ++ [page] ∧
        page.Carries ((ahead.take maxKeys).map (SourceVersion.listed s.bucket)) ∧
        (page.isLast = true ↔ (s.readPage maxKeys).position = .done) := by
  have hremaining := h.remaining_eq hbucket
  have hbucketEq : s.bucket = (passed ++ ahead.take maxKeys) ++ ahead.drop maxKeys := by
    rw [List.append_assoc, List.take_append_drop, h.1]
  refine ⟨by simp [SourceScan.readPage, hremaining], ?_⟩
  by_cases hmore : maxKeys < ahead.length
  · -- a truncated page names its last entry
    have hne : ahead.take maxKeys ≠ [] := by
      intro hnil
      have hlength := congrArg List.length hnil
      rw [List.length_take, List.length_nil] at hlength
      omega
    obtain ⟨front, m, hfront⟩ : ∃ front m, ahead.take maxKeys = front ++ [m] :=
      ⟨_, _, (List.dropLast_append_getLast hne).symm⟩
    have hnext : (ahead.take maxKeys).getLast? = some m := by rw [hfront]; simp
    have hposition : (s.readPage maxKeys).position = .after m.key m.versionId := by
      simp [SourceScan.readPage, hremaining, hmore, hnext, SourceVersion.ident]
    refine ⟨⟨hbucketEq, ?_⟩, _, rfl, ?_, ?_⟩
    · rw [hposition]
      exact ⟨passed ++ front, m, by rw [hfront, List.append_assoc], rfl⟩
    · rw [hremaining]
      exact pageOf_carries _ _
    · rw [hposition]
      simp only [hremaining, hmore, if_true, hnext, Option.map_some, pageOf_isLast_some]
      simp
  · -- the last page leaves nothing ahead
    have hposition : (s.readPage maxKeys).position = .done := by
      simp [SourceScan.readPage, hremaining, hmore]
    refine ⟨⟨hbucketEq, ?_⟩, _, rfl, ?_, ?_⟩
    · rw [hposition]
      exact List.drop_eq_nil_of_le (not_lt.mp hmore)
    · rw [hremaining]
      exact pageOf_carries _ _
    · rw [hposition]
      simp [hremaining, hmore, pageOf_isLast_none]

theorem ScanInvariant.readPage {initial : List SourceVersion} {s : SourceScan}
    (h : ScanInvariant initial s) (hopen : s.position ≠ .done) {maxKeys : ℕ}
    (hpositive : 0 < maxKeys) : ScanInvariant initial (s.readPage maxKeys) := by
  obtain ⟨passed, ahead, hsplit, hpassed, hahead⟩ := h.split
  obtain ⟨hscanned, hsplit', page, hpages, hcarries, hlast⟩ := hsplit.page h.ordered hpositive
  have hseen : (s.readPage maxKeys).seen = s.seen ++ ahead.take maxKeys := by
    rw [SourceScan.seen, hscanned, List.map_append, map_source_listed, SourceScan.seen]
  have hbucket : ∀ v ∈ ahead, v ∈ s.bucket := fun v hv => by rw [hsplit.1]; simp [hv]
  have htake : ∀ v ∈ ahead.take maxKeys, v ∈ ahead := fun v hv => List.mem_of_mem_take hv
  have hseenPassed : ∀ v ∈ s.seen, v ∈ passed := by
    intro v hv
    have hvb := (h.seen_mem v hv).1
    rw [hsplit.1] at hvb
    rcases List.mem_append.mp hvb with hvp | hva
    · exact hvp
    · exact absurd hv (hahead v hva).1
  have hkeys := h.ordered.keys_ascending
  rw [hsplit.1] at hkeys
  obtain ⟨-, haheadKeys, hcross⟩ := List.pairwise_append.mp hkeys
  exact
    { ordered := h.ordered
      split := by
        refine ⟨_, _, hsplit', ?_, ?_⟩
        · intro v hv
          rw [hseen]
          rcases List.mem_append.mp hv with hv | hv
          · exact (hpassed v hv).imp (fun hv => List.mem_append_left _ hv) id
          · exact .inl (List.mem_append_right _ hv)
        · intro v hv
          have hva : v ∈ ahead := List.mem_of_mem_drop hv
          refine ⟨?_, (hahead v hva).2⟩
          rw [hseen]
          intro hv'
          rcases List.mem_append.mp hv' with hv' | hv'
          · exact (hahead v hva).1 hv'
          · -- an entry is listed once
            have hdistinct := h.ordered.distinct
            rw [hsplit.1, ← List.take_append_drop maxKeys ahead] at hdistinct
            have := (List.pairwise_append.mp (List.pairwise_append.mp hdistinct).2.1).2.2 v hv' v hv
            exact this rfl
      seen_ascending := by
        rw [hseen]
        refine List.pairwise_append.mpr ⟨h.seen_ascending, haheadKeys.sublist (List.take_sublist ..), ?_⟩
        exact fun v hv w hw => hcross v (hseenPassed v hv) w (htake w hw)
      seen_mem := by
        intro v hv
        rw [hseen] at hv
        rcases List.mem_append.mp hv with hv | hv
        · exact h.seen_mem v hv
        · exact ⟨hbucket v (htake v hv), (hahead v (htake v hv)).2⟩
      written_mem := h.written_mem
      written_once := h.written_once
      origin := h.origin
      initial_mem := h.initial_mem
      initial_unwritten := h.initial_unwritten
      initial_oldest := h.initial_oldest
      pages := by
        have hopenPages := h.pages
        rw [if_neg hopen] at hopenPages
        rw [hpages, hscanned]
        split
        · rename_i hdone
          exact hopenPages _ _ (.last hcarries (hlast.mpr hdone))
        · rename_i hmore
          exact hopenPages.more hcarries (by simpa using mt hlast.mp hmore) }

theorem scanInvariant_of_reaches {bucket : List SourceVersion} {s : SourceScan}
    (h : ScanReaches bucket s) : ScanInvariant bucket s := by
  obtain ⟨hbucket, hsteps⟩ := h
  induction hsteps with
  | refl => exact ScanInvariant.start hbucket
  | tail _ hstep ih =>
    cases hstep with
    | write v hfresh hnewest => exact ih.write hfresh hnewest
    | page maxKeys hopen hpositive => exact ih.readPage hopen hpositive

/-- **A finished scan** has read exactly the versions that were not written behind it. -/
theorem seen_iff_not_behind {bucket : List SourceVersion} {s : SourceScan}
    (h : ScanInvariant bucket s) (hdone : s.position = .done) {v : SourceVersion}
    (hv : v ∈ s.bucket) : v ∈ s.seen ↔ (v, true) ∉ s.writes := by
  obtain ⟨passed, ahead, ⟨hsplit, hposition⟩, hpassed, -⟩ := h.split
  rw [hdone] at hposition
  obtain rfl : ahead = [] := hposition
  rw [List.append_nil] at hsplit
  refine ⟨fun hseen => (h.seen_mem v hseen).2, fun hbehind => ?_⟩
  exact (hpassed v (hsplit ▸ hv)).resolve_right hbehind

end Versions
end BucketReef

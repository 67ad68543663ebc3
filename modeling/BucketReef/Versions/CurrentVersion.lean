import BucketReef.Versions.Conforming
import Mathlib.Data.List.Pairwise
import BucketReef.Versions.Replay
import BucketReef.Versions.Comparison

/-!
# The current version of a timeline

A timeline is sorted by datetime, then objects before delete markers, then newest arrival last. The
entry flagged `IsLatest` therefore ends its timeline except in one case: it is an object version
and a delete marker of the same key carries the same datetime. Then the marker ends the timeline,
the replay leaves the key deleted, and a clean diff no longer says that the key is visible on both
sides.
-/

namespace BucketReef
namespace Versions

open Lists

/-- No delete marker carries the datetime of its key's current object version. -/
def NoDeletionTie (listing : List ListedVersion) : Prop :=
  ∀ v ∈ listing, v.isLatest = true → v.isDeleteMarker = false →
    ∀ w ∈ listing, w.key = v.key → w.isDeleteMarker = true → w.lastModified ≠ v.lastModified

/-- A key is visible when its `IsLatest` entry is an object version. -/
def currentlyVisible (listing : List ListedVersion) (key : String) : Bool :=
  match listing.find? fun v => v.key = key ∧ v.isLatest = true with
  | none => false
  | some v => !v.isDeleteMarker

def EndsWithLatest (timelines : List (String × Timeline)) : Prop :=
  ∀ p ∈ timelines, ∃ entry, p.2.getLast? = some entry ∧ entry.isLatest = true

/-! ## Where the latest entry stands -/

/-- Distinct members of a list are related one way or the other. -/
theorem pairwise_or {α : Type*} {R : α → α → Prop} {l : List α} (h : l.Pairwise R) {a b : α}
    (ha : a ∈ l) (hb : b ∈ l) (hne : a ≠ b) : R a b ∨ R b a :=
  haveI : Std.Symm fun a b => R a b ∨ R b a := ⟨fun _ _ => Or.symm⟩
  List.Pairwise.forall (R := fun a b => R a b ∨ R b a) (h.imp .inl) ha hb hne

/-- Entries numbered over an arrival order of a listing. -/
structure Arrived (listing : List ListedVersion) (entries : List BucketVersionEntry) : Prop where
  listed : ∀ e ∈ entries, ∃ v ∈ listing, ∃ i, e = v.entry i
  present : ∀ v ∈ listing, ∃ i, v.entry i ∈ entries
  /-- Within a kind and key, the later arrival is not the latest version. -/
  ordered : ∀ a ∈ entries, ∀ b ∈ entries, a ≠ b → a.key = b.key →
    a.isDeleteMarker = b.isDeleteMarker →
      (a.orderIndex < b.orderIndex ∧ b.isLatest = false) ∨
        (b.orderIndex < a.orderIndex ∧ a.isLatest = false)

theorem Arrived.of_perm {listing arrival : List ListedVersion} {entries : List BucketVersionEntry}
    {orderIndex : ℕ} (hlisting : Listing listing) (harrival : ArrivalOf listing arrival)
    (hperm : entries.Perm (numbered orderIndex arrival)) : Arrived listing entries where
  listed := by
    intro e he
    obtain ⟨v, hv, i, -, rfl⟩ := mem_numbered (hperm.mem_iff.mp he)
    exact ⟨v, harrival.mem_iff.mp hv, i, rfl⟩
  present := by
    intro v hv
    obtain ⟨i, hi⟩ := entry_mem_numbered (harrival.mem_iff.mpr hv) orderIndex
    exact ⟨i, hperm.mem_iff.mpr hi⟩
  ordered := by
    intro a ha b hb hne hkey hkind
    have hpairs := numbered_pairwise (harrival.pairwise hlisting.latest_is_newest) orderIndex
    rcases pairwise_or hpairs (hperm.mem_iff.mp ha) (hperm.mem_iff.mp hb) hne with
      ⟨hlt, v, w, i, j, rfl, rfl, hR⟩ | ⟨hlt, v, w, i, j, rfl, rfl, hR⟩
    · exact .inl ⟨hlt, hR hkind hkey⟩
    · exact .inr ⟨hlt, hR hkind.symm hkey.symm⟩

/-- Every other version of the key is older, or tied, and not the latest. -/
theorem Listing.newest {listing : List ListedVersion} (h : Listing listing) {v w : ListedVersion}
    (hv : v ∈ listing) (hlatest : v.isLatest = true) (hw : w ∈ listing) (hkey : w.key = v.key)
    (hne : w ≠ v) : w.lastModified ≤ v.lastModified ∧ w.isLatest = false := by
  rcases pairwise_or (h.newest_first.and h.latest_is_newest) hv hw (Ne.symm hne) with
    ⟨hold, hnot⟩ | ⟨-, hnot⟩
  · exact ⟨hold hkey.symm, hnot hkey.symm⟩
  · rw [hnot hkey] at hlatest
    cases hlatest

theorem replaySortKey_lt_of_lastModified {a b : BucketVersionEntry}
    (h : normalizeDatetime a.lastModified < normalizeDatetime b.lastModified) :
    versionReplaySortKey a < versionReplaySortKey b :=
  Prod.Lex.toLex_lt_toLex.mpr (.inl h)

theorem replaySortKey_lt_of_marker {a b : BucketVersionEntry}
    (h : normalizeDatetime a.lastModified = normalizeDatetime b.lastModified)
    (ha : a.isDeleteMarker = false) (hb : b.isDeleteMarker = true) :
    versionReplaySortKey a < versionReplaySortKey b :=
  Prod.Lex.toLex_lt_toLex.mpr (.inr ⟨h, Prod.Lex.toLex_lt_toLex.mpr (.inl (by simp [ha, hb]))⟩)

theorem replaySortKey_lt_of_orderIndex {a b : BucketVersionEntry}
    (h : normalizeDatetime a.lastModified = normalizeDatetime b.lastModified)
    (hkind : a.isDeleteMarker = b.isDeleteMarker) (hlt : b.orderIndex < a.orderIndex) :
    versionReplaySortKey a < versionReplaySortKey b :=
  Prod.Lex.toLex_lt_toLex.mpr (.inr ⟨h, Prod.Lex.toLex_lt_toLex.mpr
    (.inr ⟨by simp [hkind], by simpa using hlt⟩)⟩)

section Timelines

variable {listing : List ListedVersion} {entries : List BucketVersionEntry}
  (hlisting : Listing listing) (harrived : Arrived listing entries)
include hlisting harrived

/-- An untied latest version sorts strictly after every other entry of its key. -/
theorem replaySortKey_lt_latest {v : ListedVersion} {i : ℕ} (hv : v ∈ listing)
    (hlatest : v.isLatest = true) (hi : v.entry i ∈ entries)
    (htie : v.isDeleteMarker = false → ∀ w ∈ listing, w.key = v.key → w.isDeleteMarker = true →
      w.lastModified ≠ v.lastModified)
    {e : BucketVersionEntry} (he : e ∈ entries) (hkey : e.key = v.key) (hne : e ≠ v.entry i) :
    versionReplaySortKey e < versionReplaySortKey (v.entry i) := by
  obtain ⟨w, hw, j, rfl⟩ := harrived.listed e he
  have htime : w.lastModified ≤ v.lastModified := by
    by_cases hwv : w = v
    · rw [hwv]
    · exact (hlisting.newest hv hlatest hw hkey hwv).1
  rcases lt_or_eq_of_le htime with hlt | heq
  · exact replaySortKey_lt_of_lastModified hlt
  · by_cases hkind : w.isDeleteMarker = v.isDeleteMarker
    · refine replaySortKey_lt_of_orderIndex heq hkind ?_
      rcases harrived.ordered _ he _ hi hne hkey hkind with ⟨-, hnot⟩ | ⟨hlt, -⟩
      · exact absurd hlatest (by rw [show v.isLatest = false from hnot]; simp)
      · exact hlt
    · -- the tie is with an entry of the other kind, so the latest is the delete marker
      cases hvk : v.isDeleteMarker with
      | false =>
        exact absurd heq (htie hvk w hw hkey (by simpa [hvk] using hkind))
      | true =>
        have hwk : w.isDeleteMarker = false := by simpa [hvk] using hkind
        exact replaySortKey_lt_of_marker heq hwk hvk

/-- An untied latest version ends its timeline. -/
theorem timelineOf_getLast?_latest {v : ListedVersion} (hv : v ∈ listing)
    (hlatest : v.isLatest = true)
    (htie : v.isDeleteMarker = false → ∀ w ∈ listing, w.key = v.key → w.isDeleteMarker = true →
      w.lastModified ≠ v.lastModified) :
    ∃ i, (timelineOf v.key entries).getLast? = some (v.entry i) := by
  obtain ⟨i, hi⟩ := harrived.present v hv
  have hlt := fun e he hkey hne => replaySortKey_lt_latest hlisting harrived hv hlatest hi htie
    (e := e) he hkey hne
  refine ⟨i, getLast?_sortedBy_eq (mem_ofKey.mpr ⟨hi, rfl⟩) ?_ ?_⟩
  · intro e he
    obtain ⟨he, hkey⟩ := mem_ofKey.mp he
    by_cases hne : e = v.entry i
    · rw [hne]
    · exact (hlt e he hkey hne).le
  · intro e he hsame
    obtain ⟨he, hkey⟩ := mem_ofKey.mp he
    by_contra hne
    exact (hlt e he hkey hne).ne hsame

/-- A tied latest object version does not end its timeline. -/
theorem timelineOf_getLast?_tied {v w : ListedVersion} (hv : v ∈ listing)
    (hlatest : v.isLatest = true) (hobject : v.isDeleteMarker = false) (hw : w ∈ listing)
    (hkey : w.key = v.key) (hmarker : w.isDeleteMarker = true)
    (htie : w.lastModified = v.lastModified) {e : BucketVersionEntry}
    (he : (timelineOf v.key entries).getLast? = some e) : e.isLatest = false := by
  obtain ⟨hemem, hekey⟩ := mem_timelineOf.mp (List.mem_of_getLast? he)
  obtain ⟨u, hu, i, rfl⟩ := harrived.listed e hemem
  by_cases huv : u = v
  · obtain ⟨j, hj⟩ := harrived.present w hw
    have hle := le_of_getLast?_sortedBy he (mem_ofKey.mpr ⟨hj, hkey⟩)
    have hlt : versionReplaySortKey (u.entry i) < versionReplaySortKey (w.entry j) :=
      replaySortKey_lt_of_marker (by simp [ListedVersion.entry, huv, htie])
        (by simp [ListedVersion.entry, huv, hobject]) hmarker
    exact absurd hle (not_le.mpr hlt)
  · exact (hlisting.newest hv hlatest hu hekey huv).2

variable {timelines : List (String × Timeline)} (hyields : YieldsTimelines entries timelines)
include hyields

/-- The timelines end with the latest entry exactly when no deletion is tied. -/
theorem endsWithLatest_iff : EndsWithLatest timelines ↔ NoDeletionTie listing := by
  constructor
  · intro hends v hv hlatest hobject w hw hkey hmarker htie
    obtain ⟨i, hi⟩ := harrived.present v hv
    obtain ⟨e, he, helatest⟩ := hends _ (hyields.covered _ hi)
    rw [timelineOf_getLast?_tied hlisting harrived hv hlatest hobject hw hkey hmarker htie he]
      at helatest
    cases helatest
  · rintro hties ⟨key, timeline⟩ hp
    obtain ⟨⟨e, he, hkey⟩, htimeline⟩ := hyields.timelines _ hp
    obtain ⟨u, hu, i, rfl⟩ := harrived.listed e he
    obtain ⟨v, hv, hvkey, hlatest⟩ := hlisting.latest_exists u hu
    obtain ⟨j, hj⟩ := timelineOf_getLast?_latest hlisting harrived hv hlatest
      fun hobject w hw hwkey hmarker => hties v hv hlatest hobject w hw hwkey hmarker
    refine ⟨v.entry j, ?_, hlatest⟩
    have hvk : v.key = key := hvkey.trans hkey
    rw [htimeline, ← hvk]
    exact hj

end Timelines

theorem YieldsTimelines.keys {entries : List BucketVersionEntry}
    {timelines : List (String × Timeline)} (h : YieldsTimelines entries timelines) :
    ∀ p ∈ timelines, ∀ e ∈ p.2, e.key = p.1 := by
  intro p hp e he
  rw [(h.timelines p hp).2] at he
  exact (mem_timelineOf.mp he).2

/-! ## The replay -/

theorem ofKey_of_keys {key : String} {timeline : Timeline} (h : ∀ e ∈ timeline, e.key = key) :
    ofKey key timeline = timeline := by
  rw [ofKey, List.filter_eq_self]
  simpa using h

/-- The entries of a key over all timelines are its own timeline. -/
theorem ofKey_flatMap {timelines : List (String × Timeline)} {p : String × Timeline}
    (hkeys : ∀ p ∈ timelines, ∀ e ∈ p.2, e.key = p.1)
    (hincreasing : timelines.Pairwise fun p q => p.1 < q.1) (hp : p ∈ timelines) :
    ofKey p.1 (timelines.flatMap Prod.snd) = p.2 := by
  induction timelines with
  | nil => simp at hp
  | cons q rest ih =>
    obtain ⟨hhead, htail⟩ := List.pairwise_cons.mp hincreasing
    have hrest : ∀ p ∈ rest, ∀ e ∈ p.2, e.key = p.1 := fun p hp => hkeys p (by simp [hp])
    rw [List.flatMap_cons, ofKey_append]
    rcases List.mem_cons.mp hp with rfl | hp
    · rw [ofKey_of_keys (hkeys p (by simp)), ofKey_eq_nil, List.append_nil]
      intro e he
      obtain ⟨q, hq, heq⟩ := List.mem_flatMap.mp he
      rw [hrest q hq e heq]
      exact (hhead q hq).ne'
    · rw [ih hrest htail hp, ofKey_eq_nil, List.nil_append]
      intro e he
      rw [hkeys q (by simp) e he]
      exact (hhead p hp).ne

theorem visibleOn_applyEntry (target : TargetBucket) (e : BucketVersionEntry) (key : String) :
    visibleOn (applyEntry target e) key =
      if e.key = key then !e.isDeleteMarker else visibleOn target key := by
  by_cases hkey : e.key = key <;> cases hkind : e.isDeleteMarker <;>
    simp [applyEntry, hkind, visibleOn, copyObject, replayDeleteMarker, hkey]

/-- A key is as visible as the last of its replayed entries. -/
theorem visibleOn_foldl_applyEntry (entries : List BucketVersionEntry) (target : TargetBucket)
    (key : String) :
    visibleOn (entries.foldl applyEntry target) key =
      match (ofKey key entries).getLast? with
      | none => visibleOn target key
      | some e => !e.isDeleteMarker := by
  induction entries generalizing target with
  | nil => rfl
  | cons e rest ih =>
    rw [List.foldl_cons, ih]
    by_cases hkey : e.key = key
    · have hofKey : ofKey key (e :: rest) = e :: ofKey key rest := by simp [ofKey, hkey]
      rw [hofKey, List.getLast?_cons, visibleOn_applyEntry, if_pos hkey]
      cases (ofKey key rest).getLast? <;> rfl
    · have hofKey : ofKey key (e :: rest) = ofKey key rest := by simp [ofKey, hkey]
      rw [hofKey, visibleOn_applyEntry, if_neg hkey]

/-! ## The diff -/

/-- Both timelines list the same kinds. -/
def SameKinds (source target : Timeline) : Prop :=
  List.Forall₂ (fun a b : BucketVersionEntry => a.isDeleteMarker = b.isDeleteMarker) source target

theorem SameKinds.hasCurrentObject {source target : Timeline} (h : SameKinds source target) :
    timelineHasCurrentObject source = timelineHasCurrentObject target := by
  induction h with
  | nil => rfl
  | @cons a b l m hab hrest ih =>
    simp only [timelineHasCurrentObject, List.getLast?_cons] at ih ⊢
    cases hl : l.getLast? with
    | none =>
      have hm : m = [] := by
        rw [List.getLast?_eq_none_iff] at hl
        subst hl
        exact List.forall₂_nil_left_iff.mp hrest
      simp [hm, hab]
    | some x =>
      cases hm : m.getLast? with
      | none =>
        rw [List.getLast?_eq_none_iff] at hm
        subst hm
        rw [List.forall₂_nil_right_iff.mp hrest] at hl
        cases hl
      | some y => simpa [hl, hm] using ih

theorem compareVersionTimelineEntryPair_kind {reader : DetailsReader} {key : String}
    {a b : BucketVersionEntry} {pair : Option VersionTimelineDiffKey}
    (h : compareVersionTimelineEntryPair reader key a b = some (.inr pair)) :
    a.isDeleteMarker = b.isDeleteMarker := by
  by_contra hne
  rw [compareVersionTimelineEntryPair, if_pos hne] at h
  cases h

theorem compareEntries_sameKinds {reader : DetailsReader} {key : String} {source target : Timeline}
    {pairs : List VersionTimelineDiffKey} {comparison : VersionTimelineComparison}
    (hlength : source.length = target.length)
    (h : compareEntries reader key (source.zip target) pairs = some comparison)
    (hequal : comparison.firstDifference = none) : SameKinds source target := by
  induction source generalizing target pairs with
  | nil =>
    rw [List.length_nil] at hlength
    rw [List.eq_nil_of_length_eq_zero hlength.symm]
    exact List.Forall₂.nil
  | cons a rest ih =>
    cases target with
    | nil => simp at hlength
    | cons b rest' =>
      rw [List.zip_cons_cons, compareEntries] at h
      have hlength' : rest.length = rest'.length := by simpa using hlength
      split at h
      · cases h
      · cases h
        cases hequal
      · rename_i hpair
        exact .cons (compareVersionTimelineEntryPair_kind hpair) (ih hlength' h)
      · rename_i hpair
        exact .cons (compareVersionTimelineEntryPair_kind hpair) (ih hlength' h)

theorem compareVersionTimelinePair_sameKinds {reader : DetailsReader} {key : String}
    {source target : Timeline} {comparison : VersionTimelineComparison}
    (h : compareVersionTimelinePair reader key source target = some comparison)
    (hequal : comparison.firstDifference = none) : SameKinds source target := by
  unfold compareVersionTimelinePair at h
  split at h
  · cases h
    cases hequal
  · rename_i hlength
    exact compareEntries_sameKinds (not_not.mp hlength) h hequal

/-- A merged key that leaves the diff clean. -/
def Matched (reader : DetailsReader) (merged : MergedTimeline) : Prop :=
  ∃ key source target comparison, merged = .both key source target ∧
    compareVersionTimelinePair reader key source target = some comparison ∧
    comparison.firstDifference = none

theorem recordMerged_clean {reader : DetailsReader} {proceed : ℕ → Bool} {scannedKeys : ℕ}
    {diff diff' : VersionAwareDiff} {merged : MergedTimeline}
    (h : recordMerged reader proceed scannedKeys diff merged = some diff') (hclean : diff'.IsClean) :
    diff.IsClean ∧ Matched reader merged := by
  unfold recordMerged at h
  split at h
  · cases h
  · cases merged with
    | onlyTarget key timeline =>
      cases h
      exact absurd hclean.2.2 (Nat.succ_ne_zero _)
    | onlySource key timeline =>
      cases h
      exact absurd hclean.2.1 (Nat.succ_ne_zero _)
    | both key source target =>
      obtain ⟨comparison, hcomparison, rfl⟩ := Option.map_eq_some_iff.mp h
      cases hdifference : comparison.firstDifference with
      | some difference =>
        simp only [VersionAwareDiff.recordPair, hdifference] at hclean
        exact absurd hclean.1 (Nat.succ_ne_zero _)
      | none =>
        simp only [VersionAwareDiff.recordPair, hdifference] at hclean
        exact ⟨hclean, key, source, target, comparison, rfl, hcomparison, hdifference⟩

theorem compareMerged_clean {reader : DetailsReader} {proceed : ℕ → Bool}
    {merged : List MergedTimeline} {scannedKeys : ℕ} {diff diff' : VersionAwareDiff}
    (h : compareMerged reader proceed merged scannedKeys diff = some diff')
    (hclean : diff'.IsClean) : diff.IsClean ∧ ∀ m ∈ merged, Matched reader m := by
  induction merged generalizing scannedKeys diff with
  | nil =>
    cases h
    exact ⟨hclean, by simp⟩
  | cons m rest ih =>
    obtain ⟨mid, hstep, hrest⟩ := Option.bind_eq_some_iff.mp h
    obtain ⟨hmid, hmatched⟩ := ih hrest
    obtain ⟨hdiff, hm⟩ := recordMerged_clean hstep hmid
    exact ⟨hdiff, by simpa using ⟨hm, hmatched⟩⟩

/-- When every merged key matches, the two iterations list the same keys with the same kinds. -/
theorem iterMerged_matched {reader : DetailsReader} {sources targets : List (String × Timeline)}
    (h : ∀ m ∈ iterMergedVersionTimelines sources targets, Matched reader m) :
    List.Forall₂ (fun s t : String × Timeline => s.1 = t.1 ∧ SameKinds s.2 t.2) sources targets := by
  fun_induction iterMergedVersionTimelines sources targets with
  | case1 targets =>
    cases targets with
    | nil => exact List.Forall₂.nil
    | cons t rest =>
      obtain ⟨_, _, _, _, hboth, -⟩ := h (.onlyTarget t.1 t.2) (by simp)
      cases hboth
  | case2 sources hne =>
    cases sources with
    | nil => exact absurd rfl hne
    | cons s rest =>
      obtain ⟨_, _, _, _, hboth, -⟩ := h (.onlySource s.1 s.2) (by simp)
      cases hboth
  | case3 s sources t targets hlt ih =>
    obtain ⟨_, _, _, _, hboth, -⟩ := h (.onlySource s.1 s.2) (by simp)
    cases hboth
  | case4 s sources t targets _ hlt ih =>
    obtain ⟨_, _, _, _, hboth, -⟩ := h (.onlyTarget t.1 t.2) (by simp)
    cases hboth
  | case5 s sources t targets hge hle ih =>
    obtain ⟨key, source, target, comparison, hboth, hcomparison, hequal⟩ :=
      h (.both s.1 s.2 t.2) (by simp)
    cases hboth
    refine .cons ⟨le_antisymm (not_lt.mp hle) (not_lt.mp hge), ?_⟩ (ih fun m hm => h m (by simp [hm]))
    exact compareVersionTimelinePair_sameKinds hcomparison hequal

theorem compareVersionedTimelines_clean {reader : DetailsReader} {proceed : ℕ → Bool}
    {sources targets : List (String × Timeline)} {diff : VersionAwareDiff}
    (h : compareVersionedTimelines reader proceed sources targets = some diff)
    (hclean : diff.IsClean) :
    List.Forall₂ (fun s t : String × Timeline => s.1 = t.1 ∧ SameKinds s.2 t.2) sources targets :=
  iterMerged_matched (compareMerged_clean h hclean).2

end Versions
end BucketReef

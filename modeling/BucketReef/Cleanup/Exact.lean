import BucketReef.Cleanup.Progress
import BucketReef.Cleanup.Ranks

/-!
# What a cleanup deletes

Every run of either cleanup keeps the latest versions and the visible keys, deletes a delete marker only
when its key has no version left, and when it completes has deleted exactly the versions its query
selects on the listing it indexed. The rows a cursor has still to read are those of that listing, because
only rows it has handed on are removed.
-/

namespace BucketReef
namespace Cleanup

open Lists Transitions Versions

/-! ## What the invariant speaks of -/

/-- The query sees the keys one after the other, and every row at a place of its own. -/
structure VersionQuery.Orders (query : VersionQuery) (table : List VersionRow) : Prop where
  distinct : (table.map query.order).Nodup
  keys : ∀ a b, query.order a ≤ query.order b → a.key ≤ b.key

/-- The tables hold the entries of the listing, under their names. -/
structure Indexed (bucket : List Listed) (store : ObjectVersionCleanupStore) : Prop where
  identity : ∀ a ∈ store.cleanupVersions, ∀ b ∈ store.cleanupVersions, a.identity = b.identity → a = b
  entries : ∀ a ∈ bucket, ∀ b ∈ bucket, entryIdentity a = entryIdentity b → a = b
  version : ∀ row ∈ store.cleanupVersions, ∃ entry ∈ bucket, entry.isDeleteMarker = false ∧
    entryIdentity entry = some row.identity
  marker : ∀ row ∈ store.cleanupDeleteMarkers, ∃ entry ∈ bucket, entry.isDeleteMarker = true ∧
    entryIdentity entry = some row.identity
  /-- The versions of an indexed marker's key are indexed. -/
  siblings : ∀ row ∈ store.cleanupDeleteMarkers, ∀ entry ∈ bucket, entry.isDeleteMarker = false →
    entryKey entry = some row.key → ∃ version ∈ store.cleanupVersions,
      entryIdentity entry = some version.identity ∧ version.key = row.key

section Runs

variable (plan : CleanupPlan) (bucket : List Listed) (store : ObjectVersionCleanupStore)

/-- The query selects the row of the indexed listing. -/
def Chosen (row : VersionRow) : Prop :=
  row ∈ store.cleanupVersions ∧
    plan.query.selects (place plan.query.order VersionRow.key store.cleanupVersions row) row = true

/-- No entry of the name is left. -/
def Absent (left : List Listed) (identity : Identity) : Prop :=
  ∀ entry ∈ left, entryIdentity entry ≠ some identity

/-- What a delete request may name. -/
def Deletable (now : ObjectVersionCleanupStore) (identity : Identity) : Prop :=
  (∃ row, Chosen plan store row ∧ row.identity = identity) ∨
    ∃ marker ∈ store.cleanupDeleteMarkers, marker.identity = identity ∧
      ∀ row ∈ now.cleanupVersions, row.key ≠ marker.key

/-- The bucket and the tables of a run that began with `bucket` and `store`. -/
structure Sound (left : List Listed) (now : ObjectVersionCleanupStore) : Prop where
  rest : ∃ keep : Listed → Bool, left = bucket.filter keep
  versionGone : ∀ entry ∈ bucket, entry ∉ left → entry.isDeleteMarker = false →
    ∃ row, Chosen plan store row ∧ entryIdentity entry = some row.identity
  markerGone : ∀ entry ∈ bucket, entry ∉ left → entry.isDeleteMarker = true →
    ∃ marker ∈ store.cleanupDeleteMarkers, entryIdentity entry = some marker.identity ∧
      ∀ row ∈ now.cleanupVersions, row.key ≠ marker.key
  rows : ∀ row ∈ now.cleanupVersions, row ∈ store.cleanupVersions
  dropped : ∀ row ∈ store.cleanupVersions, row ∉ now.cleanupVersions → Absent left row.identity

/-- Every selected version is gone. -/
def AllGone (left : List Listed) : Prop := ∀ row, Chosen plan store row → Absent left row.identity

/-- What holds between the steps of a pass. -/
def PhaseInv (left : List Listed) (now : ObjectVersionCleanupStore) : Phase → Prop
  | .versions cursor batch =>
    AgreeAfter plan.query.order cursor.position now.cleanupVersions store.cleanupVersions ∧
      (∀ last, cursor.position = some last → last ∈ store.cleanupVersions ∧
        cursor.keyIndex = place plan.query.order VersionRow.key store.cleanupVersions last) ∧
      (∀ row, row ∈ cursor.queue ∨ row ∈ batch →
        Chosen plan store row ∧ isAfter plan.query.order cursor.position row = false) ∧
      ∀ row, Chosen plan store row → isAfter plan.query.order cursor.position row = false →
        row ∈ cursor.queue ∨ row ∈ batch ∨ Absent left row.identity
  | .markers rest =>
    AllGone plan store left ∧ ∀ marker ∈ rest, marker ∈ store.cleanupDeleteMarkers ∧
      ∀ row ∈ now.cleanupVersions, row.key ≠ marker.key
  | .completed => AllGone plan store left
  | .aborted => True

def Inv (s : State) : Prop :=
  Sound plan bucket store s.bucket s.store ∧ PhaseInv plan store s.bucket s.store s.phase

end Runs

variable {plan : CleanupPlan} {bucket left : List Listed} {store now : ObjectVersionCleanupStore}

/-! ## Deleting -/

theorem mem_deleteEntries {identities : List Identity} {entry : Listed} :
    entry ∈ deleteEntries left identities ↔
      entry ∈ left ∧ ∀ identity, entryIdentity entry = some identity → identity ∉ identities := by
  unfold deleteEntries
  rw [List.mem_filter]
  cases hidentity : entryIdentity entry with
  | none => simp
  | some identity => simp

theorem Absent.delete {identity : Identity} (h : Absent left identity) (identities : List Identity) :
    Absent (deleteEntries left identities) identity :=
  fun entry hentry => h entry (mem_deleteEntries.mp hentry).1

theorem absent_deleteEntries {identity : Identity} {identities : List Identity}
    (h : identity ∈ identities) : Absent (deleteEntries left identities) identity :=
  fun _ hentry heq => (mem_deleteEntries.mp hentry).2 identity heq h

theorem Sound.delete (hindexed : Indexed bucket store) (h : Sound plan bucket store left now)
    {identities : List Identity}
    (hdeletable : ∀ identity ∈ identities, Deletable plan store now identity) :
    Sound plan bucket store (deleteEntries left identities) now := by
  -- an entry goes by an earlier call or by this one, under its name
  have hgone : ∀ entry, entry ∉ deleteEntries left identities → entry ∉ left ∨
      ∃ identity, entryIdentity entry = some identity ∧ Deletable plan store now identity := by
    intro entry hout
    by_cases hin : entry ∈ left
    · right
      rw [mem_deleteEntries] at hout
      push Not at hout
      obtain ⟨identity, hidentity, hlisted⟩ := hout hin
      exact ⟨identity, hidentity, hdeletable identity hlisted⟩
    · exact Or.inl hin
  refine ⟨?_, ?_, ?_, h.rows, ?_⟩
  · obtain ⟨keep, rfl⟩ := h.rest
    exact ⟨_, List.filter_filter ..⟩
  · intro entry hentry hout hkind
    rcases hgone entry hout with hin | ⟨identity, hidentity, hrow | hmarker⟩
    · exact h.versionGone entry hentry hin hkind
    · obtain ⟨row, hrow, rfl⟩ := hrow
      exact ⟨row, hrow, hidentity⟩
    · obtain ⟨marker, hmarker, rfl, -⟩ := hmarker
      obtain ⟨other, hother, hkind', hidentity'⟩ := hindexed.marker marker hmarker
      rw [hindexed.entries entry hentry other hother (hidentity.trans hidentity'.symm), hkind'] at hkind
      cases hkind
  · intro entry hentry hout hkind
    rcases hgone entry hout with hin | ⟨identity, hidentity, hrow | hmarker⟩
    · exact h.markerGone entry hentry hin hkind
    · obtain ⟨row, hrow, rfl⟩ := hrow
      obtain ⟨other, hother, hkind', hidentity'⟩ := hindexed.version row hrow.1
      rw [hindexed.entries entry hentry other hother (hidentity.trans hidentity'.symm), hkind'] at hkind
      cases hkind
    · obtain ⟨marker, hmarker, rfl, horphan⟩ := hmarker
      exact ⟨marker, hmarker, hidentity, horphan⟩
  · intro row hrow hout
    exact (h.dropped row hrow hout).delete identities

theorem Sound.removeRows (h : Sound plan bucket store left now) {identities : List Identity}
    (hgone : ∀ identity ∈ identities, Absent left identity) :
    Sound plan bucket store left (removeVersions now identities) := by
  have hsub : ∀ row ∈ (removeVersions now identities).cleanupVersions, row ∈ now.cleanupVersions :=
    fun row hrow => List.mem_of_mem_filter hrow
  refine ⟨h.rest, h.versionGone, ?_, fun row hrow => h.rows row (hsub row hrow), ?_⟩
  · intro entry hentry hout hkind
    obtain ⟨marker, hmarker, hidentity, horphan⟩ := h.markerGone entry hentry hout hkind
    exact ⟨marker, hmarker, hidentity, fun row hrow => horphan row (hsub row hrow)⟩
  · intro row hrow hout
    by_cases hin : row ∈ now.cleanupVersions
    · apply hgone
      by_contra hkeep
      exact hout (List.mem_filter.mpr ⟨hin, decide_eq_true hkeep⟩)
    · exact h.dropped row hrow hin

/-! ## The steps -/

theorem chosen_of_read (horders : plan.query.Orders store.cleanupVersions) {cursor : Cursor}
    {batch : List VersionRow} {row : VersionRow}
    (hinv : PhaseInv plan store left now (.versions cursor batch))
    (hnext : IsNext plan.query.order cursor.position now.cleanupVersions row) :
    (cursor.read plan.query row).keyIndex =
      place plan.query.order VersionRow.key store.cleanupVersions row := by
  obtain ⟨hagree, hposition, -, -⟩ := hinv
  have hgroups : ∀ a b c, plan.query.order a ≤ plan.query.order b →
      plan.query.order b ≤ plan.query.order c → a.key = c.key → b.key = c.key := by
    intro a b c hab hbc hac
    have hab := horders.keys a b hab
    have hbc := horders.keys b c hbc
    exact le_antisymm hbc (hac ▸ hab)
  rw [place_next horders.distinct hgroups (fun last hlast => (hposition last hlast).1)
    (hagree.isNext hnext)]
  obtain ⟨position, keyIndex, queue⟩ := cursor
  cases position with
  | none => rfl
  | some last =>
    show (if _ then keyIndex + 1 else 0) = if last.key = row.key then _ else 0
    rw [← (hposition last rfl).2]
    simp

theorem mem_read_queue {query : VersionQuery} {cursor : Cursor} {row other : VersionRow} :
    other ∈ (cursor.read query row).queue ↔
      other ∈ cursor.queue ∨
        (other = row ∧ query.selects (cursor.read query row).keyIndex row = true) := by
  show other ∈ (if query.selects (cursor.read query row).keyIndex row then cursor.queue ++ [row]
    else cursor.queue) ↔ _
  split
  · rename_i hselects
    rw [List.mem_append, List.mem_singleton, hselects]
    simp
  · rename_i hselects
    simp [hselects]

theorem inv_read (horders : plan.query.Orders store.cleanupVersions) {cursor : Cursor}
    {batch : List VersionRow} {row : VersionRow}
    (hinv : PhaseInv plan store left now (.versions cursor batch))
    (hnext : IsNext plan.query.order cursor.position now.cleanupVersions row) :
    PhaseInv plan store left now (.versions (cursor.read plan.query row) batch) := by
  have hindex := chosen_of_read horders hinv hnext
  obtain ⟨hagree, hposition, hpending, hhandled⟩ := hinv
  have hnext' := hagree.isNext hnext
  have hafter := hnext.2.1
  have hself : isAfter plan.query.order (some row) row = false := by
    by_contra h
    rw [Bool.not_eq_false, isAfter_some] at h
    exact lt_irrefl _ h
  refine ⟨hagree.advance hafter, ?_, ?_, ?_⟩
  · intro last hlast
    cases hlast
    exact ⟨hnext'.1, hindex⟩
  · intro other hother
    rw [mem_read_queue] at hother
    have hcases : (other ∈ cursor.queue ∨ other ∈ batch) ∨
        (other = row ∧ plan.query.selects (cursor.read plan.query row).keyIndex row = true) := by
      tauto
    rcases hcases with h | ⟨rfl, hselects⟩
    · exact ⟨(hpending other h).1, not_isAfter_advance hafter (hpending other h).2⟩
    · rw [hindex] at hselects
      exact ⟨⟨hnext'.1, hselects⟩, hself⟩
  · intro other hchosen hpassed
    rw [mem_read_queue]
    by_cases hold : isAfter plan.query.order cursor.position other = true
    · -- the row the position passed is the one read now
      have hinj : ∀ a ∈ store.cleanupVersions, ∀ b ∈ store.cleanupVersions,
          plan.query.order a = plan.query.order b → a = b :=
        fun a ha b hb heq => List.inj_on_of_nodup_map horders.distinct ha hb heq
      have heq := eq_of_passed hinj hnext' hchosen.1 hold hpassed
      subst heq
      left
      right
      rw [hindex]
      exact ⟨rfl, hchosen.2⟩
    · rcases hhandled other hchosen (by simpa using hold) with h | h
      · exact Or.inl (Or.inl h)
      · exact Or.inr h

theorem inv_fetch {cursor : Cursor} {batch queue : List VersionRow} {row : VersionRow}
    (hinv : PhaseInv plan store left now (.versions cursor batch)) (hqueue : cursor.queue = row :: queue) :
    PhaseInv plan store left now (.versions { cursor with queue := queue } (batch ++ [row])) := by
  obtain ⟨hagree, hposition, hpending, hhandled⟩ := hinv
  rw [hqueue] at hpending hhandled
  refine ⟨hagree, hposition, ?_, ?_⟩
  · intro other hother
    apply hpending
    simp only [List.mem_append, List.mem_singleton] at hother
    simp only [List.mem_cons]
    tauto
  · intro other hchosen hpassed
    have h := hhandled other hchosen hpassed
    simp only [List.mem_cons] at h
    simp only [List.mem_append, List.mem_singleton]
    tauto

/-- The batch is gone from the bucket and from the table. -/
theorem inv_deleteVersions (hindexed : Indexed bucket store) (hsound : Sound plan bucket store left now)
    {cursor : Cursor} {batch : List VersionRow}
    (hinv : PhaseInv plan store left now (.versions cursor batch)) :
    PhaseInv plan store (deleteEntries left (batch.map VersionRow.identity))
      (removeVersions now (batch.map VersionRow.identity)) (.versions cursor []) := by
  obtain ⟨hagree, hposition, hpending, hhandled⟩ := hinv
  refine ⟨?_, hposition, ?_, ?_⟩
  · apply hagree.remove
    intro row hrow hafter
    apply decide_eq_true
    intro hlisted
    obtain ⟨other, hother, hidentity⟩ := List.mem_map.mp hlisted
    have hchosen := hpending other (Or.inr hother)
    have heq := hindexed.identity other hchosen.1.1 row (hsound.rows row hrow) hidentity
    rw [heq, hafter] at hchosen
    exact absurd hchosen.2 (by simp)
  · intro row hrow
    exact hpending row (by simpa using Or.inl (by simpa using hrow))
  · intro row hchosen hpassed
    rcases hhandled row hchosen hpassed with h | h | h
    · exact Or.inl h
    · exact Or.inr (Or.inr (absent_deleteEntries (List.mem_map_of_mem h)))
    · exact Or.inr (Or.inr (h.delete _))

theorem allGone_of_exhausted {cursor : Cursor}
    (hinv : PhaseInv plan store left now (.versions cursor []))
    (hend : cursor.Exhausted plan.query now) : AllGone plan store left := by
  obtain ⟨hagree, -, -, hhandled⟩ := hinv
  obtain ⟨hqueue, hend⟩ := hend
  intro row hchosen
  rcases hhandled row hchosen (hagree.atEnd hend row hchosen.1) with h | h | h
  · rw [hqueue] at h
    cases h
  · cases h
  · exact h

theorem inv_afterVersions (hgone : AllGone plan store left)
    (hmarkers : now.cleanupDeleteMarkers = store.cleanupDeleteMarkers) :
    PhaseInv plan store left now (plan.afterVersions now) := by
  unfold CleanupPlan.afterVersions
  split
  · refine ⟨hgone, ?_⟩
    intro marker hmarker
    unfold iterOrphanMarkers at hmarker
    rw [mem_sortedBy, List.mem_filter, List.all_eq_true, hmarkers] at hmarker
    exact ⟨hmarker.1, fun row hrow => of_decide_eq_true (hmarker.2 row hrow)⟩
  · exact hgone

/-- The marker table is only read, and a run keeps to its invariant. -/
theorem step_inv (hindexed : Indexed bucket store) (horders : plan.query.Orders store.cleanupVersions)
    {s s' : State} {label : Label} (hinv : Inv plan bucket store s)
    (hmarkers : s.store.cleanupDeleteMarkers = store.cleanupDeleteMarkers)
    (hs : step plan s label = some s') :
    Inv plan bucket store s' ∧
      s'.store.cleanupDeleteMarkers = store.cleanupDeleteMarkers := by
  obtain ⟨left, now, phase, deletedVersions, deletedDeleteMarkers, bytesFreed⟩ := s
  obtain ⟨hsound, hphase⟩ := hinv
  unfold step at hs
  dsimp only at hsound hphase hmarkers hs
  have habort : ∀ {identities : List Identity},
      (∀ identity ∈ identities, Deletable plan store now identity) →
      Sound plan bucket store (deleteEntries left identities) now := hsound.delete hindexed
  cases label with
  | abort =>
    cases phase <;> cases hs <;> exact ⟨⟨hsound, trivial⟩, hmarkers⟩
  | read row =>
    cases phase with
    | versions cursor batch =>
      simp only [advance, Option.ite_none_right_eq_some, Option.some.injEq] at hs
      obtain ⟨hnext, rfl⟩ := hs
      exact ⟨⟨hsound, inv_read horders hphase hnext⟩, hmarkers⟩
    | markers rest => cases hs
    | completed => cases hs
    | aborted => cases hs
  | fetch =>
    cases phase with
    | versions cursor batch =>
      simp only [advance] at hs
      split at hs
      · rename_i row queue hqueue
        rw [Option.ite_none_right_eq_some] at hs
        obtain ⟨-, hs⟩ := hs
        cases hs
        exact ⟨⟨hsound, inv_fetch hphase hqueue⟩, hmarkers⟩
      · cases hs
    | markers rest => cases hs
    | completed => cases hs
    | aborted => cases hs
  | deleteVersions answer =>
    cases phase with
    | versions cursor batch =>
      simp only [advance, Option.ite_none_right_eq_some, Option.some.injEq] at hs
      obtain ⟨-, rfl⟩ := hs
      have hdeletable : ∀ identity ∈ batch.map VersionRow.identity,
          Deletable plan store now identity := by
        intro identity hidentity
        obtain ⟨row, hrow, rfl⟩ := List.mem_map.mp hidentity
        exact Or.inl ⟨row, (hphase.2.2.1 row (Or.inr hrow)).1, rfl⟩
      cases answer with
      | deleted =>
        refine ⟨⟨(habort hdeletable).removeRows ?_, ?_⟩, hmarkers⟩
        · intro identity hidentity
          exact absent_deleteEntries hidentity
        · exact inv_deleteVersions hindexed hsound hphase
      | failed removed =>
        refine ⟨⟨habort ?_, trivial⟩, hmarkers⟩
        intro identity hidentity
        exact hdeletable identity (List.mem_of_mem_filter hidentity)
    | markers rest => cases hs
    | completed => cases hs
    | aborted => cases hs
  | endVersions =>
    cases phase with
    | versions cursor batch =>
      simp only [advance, Option.ite_none_right_eq_some, Option.some.injEq] at hs
      obtain ⟨⟨rfl, hend⟩, rfl⟩ := hs
      exact ⟨⟨hsound, inv_afterVersions (allGone_of_exhausted hphase hend) hmarkers⟩, hmarkers⟩
    | markers rest => cases hs
    | completed => cases hs
    | aborted => cases hs
  | deleteMarkers answer =>
    cases phase with
    | versions cursor batch => cases hs
    | markers rest =>
      simp only [advance, Option.ite_none_left_eq_some, Option.some.injEq] at hs
      obtain ⟨-, rfl⟩ := hs
      obtain ⟨hgone, hrest⟩ := hphase
      have hdeletable : ∀ identity ∈ (rest.take batchSize).map MarkerRow.identity,
          Deletable plan store now identity := by
        intro identity hidentity
        obtain ⟨marker, hmarker, rfl⟩ := List.mem_map.mp hidentity
        obtain ⟨hin, horphan⟩ := hrest marker (List.mem_of_mem_take hmarker)
        exact Or.inr ⟨marker, hin, rfl, horphan⟩
      cases answer with
      | deleted =>
        refine ⟨⟨habort hdeletable, ?_, ?_⟩, hmarkers⟩
        · intro row hchosen
          exact (hgone row hchosen).delete _
        · intro marker hmarker
          exact hrest marker (List.mem_of_mem_drop hmarker)
      | failed removed =>
        refine ⟨⟨habort ?_, trivial⟩, hmarkers⟩
        intro identity hidentity
        exact hdeletable identity (List.mem_of_mem_filter hidentity)
    | completed => cases hs
    | aborted => cases hs
  | endMarkers =>
    cases phase with
    | versions cursor batch => cases hs
    | markers rest =>
      cases rest with
      | nil =>
        cases hs
        exact ⟨⟨hsound, hphase.1⟩, hmarkers⟩
      | cons marker rest => cases hs
    | completed => cases hs
    | aborted => cases hs

/-! ## Runs on a bucket -/

theorem sound_start (plan : CleanupPlan) (bucket : List Listed) (store : ObjectVersionCleanupStore) :
    Sound plan bucket store bucket store where
  rest := ⟨fun _ => true, by simp⟩
  versionGone := fun _ hentry hout => absurd hentry hout
  markerGone := fun _ hentry hout => absurd hentry hout
  rows := fun _ hrow => hrow
  dropped := fun _ hrow hout => absurd hrow hout

/-- A plan that skips the versions selects none. -/
def CleanupPlan.Consistent (plan : CleanupPlan) : Prop :=
  plan.versionsPass = false → ∀ keyIndex row, plan.query.selects keyIndex row = false

/-- What neither cleanup ever changes. -/
structure Safe (bucket left : List Listed) : Prop where
  rest : ∀ entry ∈ left, entry ∈ bucket
  latest : ∀ entry ∈ bucket, entry.isDeleteMarker = false → entry.raw.isLatest = true → entry ∈ left
  visible : ∀ key, visible left key = visible bucket key
  markers : ∀ entry ∈ bucket, entry.isDeleteMarker = true → entry ∉ left →
    ∀ other ∈ left, other.isDeleteMarker = false → entryKey other ≠ entryKey entry

end Cleanup
end BucketReef

import BucketReef.Cleanup.VersionStore

/-!
# A cleanup comes to its end

Every row is read, taken and deleted once. As long as no call fails and nobody cancels a run, it has a
next step until it is completed, and each of its steps leaves less to do.
-/

namespace BucketReef
namespace Cleanup

open Lists Transitions Versions

/-- The calls answer, and the run goes on. -/
def Label.GoesOn : Label → Prop
  | .abort | .deleteVersions (.failed _) | .deleteMarkers (.failed _) => False
  | _ => True

/-- A batch keeps to its size. -/
def Phase.Fits : Phase → Prop
  | .versions _ batch => batch.length ≤ batchSize
  | _ => True

/-- What is left to read, to take, to delete. -/
def State.remaining (plan : CleanupPlan) (s : State) : ℕ :=
  match s.phase with
  | .versions cursor batch =>
    3 * unread plan.query.order cursor.position s.store.cleanupVersions + 2 * cursor.queue.length +
      batch.length + s.store.cleanupDeleteMarkers.length + 2
  | .markers rest => rest.length + 1
  | .completed | .aborted => 0

variable {plan : CleanupPlan} {s s' : State}

theorem fits_afterVersions (plan : CleanupPlan) (store : ObjectVersionCleanupStore) :
    (plan.afterVersions store).Fits := by
  unfold CleanupPlan.afterVersions
  split <;> trivial

theorem fits_step {label : Label} (h : s.phase.Fits) (hs : step plan s label = some s') :
    s'.phase.Fits := by
  unfold step advance at hs
  split at hs
  · next cursor batch hphase =>
    rw [Option.ite_none_right_eq_some] at hs
    obtain ⟨-, hs⟩ := hs
    cases hs
    rw [hphase] at h
    exact h
  · split at hs
    · rw [Option.ite_none_right_eq_some] at hs
      obtain ⟨hroom, hs⟩ := hs
      cases hs
      show (_ ++ [_]).length ≤ batchSize
      rw [List.length_append]
      exact hroom
    · cases hs
  · next answer cursor batch hphase =>
    rw [Option.ite_none_right_eq_some] at hs
    obtain ⟨-, hs⟩ := hs
    cases hs
    cases answer with
    | deleted => exact Nat.zero_le _
    | failed removed => trivial
  · rw [Option.ite_none_right_eq_some] at hs
    obtain ⟨-, hs⟩ := hs
    cases hs
    exact fits_afterVersions _ _
  · next answer rest hphase =>
    rw [Option.ite_none_left_eq_some] at hs
    obtain ⟨-, hs⟩ := hs
    cases hs
    cases answer <;> trivial
  · cases hs
    trivial
  · cases hs
    trivial
  · cases hs

theorem fits_reachable {bucket : List Listed} {pages : List Page} (h : Reachable plan bucket pages s) :
    s.phase.Fits := by
  have hstart : (start plan bucket pages).phase.Fits := by
    unfold start
    dsimp only
    split
    · exact Nat.zero_le _
    · exact fits_afterVersions _ _
  induction h with
  | init => exact hstart
  | step _ _ hs ih => exact fits_step ih hs

/-! ## The next step -/

theorem remaining_afterVersions (plan : CleanupPlan) (s : State) :
    ({ s with phase := plan.afterVersions s.store } : State).remaining plan ≤
      s.store.cleanupDeleteMarkers.length + 1 := by
  unfold CleanupPlan.afterVersions State.remaining
  by_cases hmarkers : plan.markersPass = true
  · simp only [hmarkers, if_true]
    unfold iterOrphanMarkers
    rw [length_sortedBy]
    exact Nat.succ_le_succ (List.length_filter_le _ _)
  · simp [hmarkers]

theorem unread_removeVersions {κ : Type} [LinearOrder κ] (order : VersionRow → κ)
    (position : Option VersionRow) (store : ObjectVersionCleanupStore) (identities : List Identity) :
    unread order position (removeVersions store identities).cleanupVersions ≤
      unread order position store.cleanupVersions :=
  List.filter_sublist.countP_le

theorem length_queue_read (query : VersionQuery) (cursor : Cursor) (row : VersionRow) :
    (cursor.read query row).queue.length ≤ cursor.queue.length + 1 := by
  unfold Cursor.read
  generalize (if cursor.position.any fun last => last.key = row.key then cursor.keyIndex + 1 else 0) =
    keyIndex
  dsimp only
  split
  · rw [List.length_append]
    exact le_rfl
  · exact Nat.le_succ _

/-- A step that goes on leaves less to do. -/
def Advances (plan : CleanupPlan) (s : State) : Prop :=
  ∃ label s', label.GoesOn ∧ step plan s label = some s' ∧ s'.phase ≠ .aborted ∧
    s'.remaining plan < s.remaining plan

theorem advances_versions {cursor : Cursor} {batch : List VersionRow}
    (hphase : s.phase = .versions cursor batch) (hfits : batch.length ≤ batchSize) :
    Advances plan s := by
  have hbefore : s.remaining plan =
      3 * unread plan.query.order cursor.position s.store.cleanupVersions + 2 * cursor.queue.length +
        batch.length + s.store.cleanupDeleteMarkers.length + 2 := by
    unfold State.remaining
    rw [hphase]
  have hdelete : batch.length = batchSize ∨ (batch ≠ [] ∧ cursor.Exhausted plan.query s.store) →
      0 < batch.length → Advances plan s := by
    intro hready hpos
    refine ⟨.deleteVersions .deleted, s.deleteVersionBatch cursor batch .deleted, trivial, ?_,
      by simp [State.deleteVersionBatch], ?_⟩
    · unfold step
      rw [hphase]
      exact if_pos hready
    · rw [hbefore]
      have hless := unread_removeVersions plan.query.order cursor.position s.store
        (batch.map VersionRow.identity)
      show 3 * unread plan.query.order cursor.position
          (removeVersions s.store (batch.map VersionRow.identity)).cleanupVersions +
        2 * cursor.queue.length + 0 + s.store.cleanupDeleteMarkers.length + 2 < _
      omega
  by_cases hfull : batch.length = batchSize
  · exact hdelete (.inl hfull) (by rw [hfull]; exact Nat.succ_pos _)
  cases hqueue : cursor.queue with
  | cons row queue =>
    refine ⟨.fetch, { s with phase := .versions { cursor with queue := queue } (batch ++ [row]) },
      trivial, ?_, by simp, ?_⟩
    · unfold step
      rw [hphase]
      simp only [advance, hqueue]
      exact if_pos (lt_of_le_of_ne hfits hfull)
    · rw [hbefore, hqueue]
      simp only [State.remaining, List.length_append, List.length_cons, List.length_nil]
      omega
  | nil =>
    by_cases hend : AtEnd plan.query.order cursor.position s.store.cleanupVersions
    · by_cases hbatch : batch = []
      · refine ⟨.endVersions, { s with phase := plan.afterVersions s.store }, trivial, ?_, ?_, ?_⟩
        · unfold step
          rw [hphase]
          exact if_pos ⟨hbatch, hqueue, hend⟩
        · unfold CleanupPlan.afterVersions
          split <;> simp
        · have hafter := remaining_afterVersions plan s
          rw [hbefore]
          omega
      · exact hdelete (.inr ⟨hbatch, hqueue, hend⟩) (List.length_pos_iff.mpr hbatch)
    · obtain ⟨row, hnext⟩ := exists_isNext hend
      refine ⟨.read row, { s with phase := .versions (cursor.read plan.query row) batch }, trivial, ?_,
        by simp, ?_⟩
      · unfold step
        rw [hphase]
        exact if_pos hnext
      · have hless := unread_advance_lt hnext
        have hselected := length_queue_read plan.query cursor row
        rw [hbefore]
        show 3 * unread plan.query.order (some row) s.store.cleanupVersions +
          2 * (cursor.read plan.query row).queue.length + batch.length +
            s.store.cleanupDeleteMarkers.length + 2 < _
        omega

theorem advances_markers {rest : List MarkerRow} (hphase : s.phase = .markers rest) :
    Advances plan s := by
  have hbefore : s.remaining plan = rest.length + 1 := by
    unfold State.remaining
    rw [hphase]
  cases rest with
  | nil =>
    refine ⟨.endMarkers, { s with phase := .completed }, trivial, ?_, by simp, ?_⟩
    · unfold step
      rw [hphase]
      rfl
    · rw [hbefore]
      exact Nat.succ_pos _
  | cons marker rest =>
    refine ⟨.deleteMarkers .deleted, s.deleteMarkerBatch ((marker :: rest).take batchSize)
      ((marker :: rest).drop batchSize) .deleted, trivial, ?_, by simp [State.deleteMarkerBatch], ?_⟩
    · unfold step
      rw [hphase]
      simp only [advance, reduceCtorEq, if_false]
    · rw [hbefore]
      show ((marker :: rest).drop batchSize).length + 1 < _
      rw [List.length_drop, List.length_cons]
      unfold batchSize
      omega

/-- A run that has not been aborted can be completed. -/
theorem exists_completed {bucket : List Listed} {pages : List Page}
    (h : Reachable plan bucket pages s) (hphase : s.phase ≠ .aborted) :
    ∃ s', Reached (step plan) (fun _ label => label.GoesOn) s s' ∧ s'.phase = .completed := by
  have hdown : ∀ s : State, (s.phase.Fits ∧ s.phase ≠ .aborted) → ¬ s.phase = .completed →
      ∃ label next, label.GoesOn ∧ step plan s label = some next ∧
        (next.phase.Fits ∧ next.phase ≠ .aborted) ∧ next.remaining plan < s.remaining plan := by
    rintro s ⟨hfits, hkept⟩ hopen
    have hadvances : Advances plan s := by
      cases hphase : s.phase with
      | versions cursor batch =>
        rw [hphase] at hfits
        exact advances_versions hphase hfits
      | markers rest => exact advances_markers hphase
      | completed => exact absurd hphase hopen
      | aborted => exact absurd hphase hkept
    obtain ⟨label, next, hgoes, hstep, hnext, hless⟩ := hadvances
    exact ⟨label, next, hgoes, hstep, ⟨fits_step hfits hstep, hnext⟩, hless⟩
  exact Reached.of_rank hdown ⟨fits_reachable h, hphase⟩

end Cleanup
end BucketReef

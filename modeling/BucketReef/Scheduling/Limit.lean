import BucketReef.Scheduling.Ranks

/-!
# The endpoint limit

Every step but the three that break the ranks keeps the invariant, so a run without such a step
stays within the limit on every endpoint. A run in which a worker claims on a stale reading of the
usage does not.
-/

namespace BucketReef
namespace Scheduling

open Lists Migration

/-! ## Every step keeps the invariant -/

theorem init_inv (settings : Settings) (clock : ℕ) : Inv settings (.init clock) where
  ids := by simp [State.init]
  nodup := by simp [State.init]
  ranked := by simp [State.init, Ranked]
  known := by simp [State.init, ClaimPhase.known]
  readings := by simp [State.init, ClaimPhase.readings]

theorem tick_inv {settings : Settings} {s : State} (h : Inv settings s) :
    Inv settings { s with clock := s.clock + 1 } where
  ids := h.ids
  nodup := h.nodup
  ranked := by
    have hid : KeepsIdentity id := fun _ => ⟨rfl, rfl, rfl, rfl⟩
    have hmap : Ranked settings (s.clock + 1) (s.rows.map id) := h.ranked.map hid ?_ ?_
    · rwa [List.map_id] at hmap
    · intro row _ key hholds
      obtain ⟨hprogress, hheld, hkey⟩ := MigrationRow.holds_iff.mp hholds
      exact MigrationRow.holds_iff.mpr
        ⟨hprogress, MigrationRow.leaseHeld_mono (Nat.le_succ _) hheld, hkey⟩
    · intro row _ key hrunning
      obtain ⟨hprogress, hheld, hkey⟩ := MigrationRow.running_iff.mp hrunning
      exact MigrationRow.running_iff.mpr
        ⟨hprogress, MigrationRow.leaseHeld_mono (Nat.le_succ _) hheld, hkey⟩
  known := h.known
  readings worker t ht := (h.readings worker t ht).trans (Nat.le_succ _)

theorem create_inv {settings : Settings} {s : State} (h : Inv settings s) {row : MigrationRow}
    (hid : row.id = s.nextId) (hprogress : row.progress = .unclaimed) :
    Inv settings { s with nextId := s.nextId + 1, rows := s.rows ++ [row] } where
  ids := by
    intro r hr
    rcases List.mem_append.mp hr with hr | hr
    · exact (h.ids r hr).trans (Nat.lt_succ_self _)
    · rw [List.mem_singleton.mp hr, hid]
      exact Nat.lt_succ_self _
  nodup := by
    rw [List.map_append, List.nodup_append]
    refine ⟨h.nodup, by simp, ?_⟩
    intro a ha b hb
    obtain ⟨r, hr, rfl⟩ := List.mem_map.mp ha
    have hlt := h.ids r hr
    have hb : b = s.nextId := by simpa [hid] using hb
    omega
  ranked := by
    have hidle : ∀ key, row.holds settings s.clock key = false := by
      intro key
      simp [MigrationRow.holds, hprogress]
    intro key y hy hrunning
    rcases List.mem_append.mp hy with hy | hy
    · rw [List.countP_append]
      simpa [hidle] using h.ranked key y hy hrunning
    · rw [List.mem_singleton.mp hy] at hrunning
      have := MigrationRow.running.holds hrunning
      rw [hidle] at this
      cases this
  known worker c hc := by
    obtain ⟨hlt, hrows⟩ := h.known worker c hc
    refine ⟨hlt.trans (Nat.lt_succ_self _), ?_⟩
    intro r hr hidc
    rcases List.mem_append.mp hr with hr | hr
    · exact hrows r hr hidc
    · -- the new id was never read before
      rw [List.mem_singleton.mp hr, hid] at hidc
      omega
  readings := h.readings

theorem delete_inv {settings : Settings} {s : State} (h : Inv settings s) (migrationId : ℕ) :
    Inv settings { s with rows := s.rows.filter fun row => row.id ≠ migrationId } where
  ids row hrow := h.ids row (List.mem_of_mem_filter hrow)
  nodup := List.Nodup.sublist (List.filter_sublist.map _) h.nodup
  ranked := h.ranked.sublist List.filter_sublist
  known worker c hc := by
    obtain ⟨hlt, hrows⟩ := h.known worker c hc
    exact ⟨hlt, fun row hrow => hrows row (List.mem_of_mem_filter hrow)⟩
  readings := h.readings

/-- A candidate of the query describes its row. -/
theorem describes_of_candidate {settings : Settings} {s : State} (h : Inv settings s) {now : ℕ}
    {c : Candidate} (hc : c ∈ runnableCandidateRows now s.rows) : Describes s.nextId s.rows c := by
  obtain ⟨row, hrow, rfl⟩ := List.mem_map.mp hc
  have hmem : row ∈ s.rows :=
    (List.mem_filter.mp (mem_sortedBy.mp (List.mem_of_mem_take hrow))).1
  refine ⟨h.ids row hmem, ?_⟩
  intro r hr hid
  rw [eq_of_id_eq h.nodup hr hmem hid]
  exact ⟨rfl, rfl⟩

/-- The next statement of a claim. -/
theorem advance_inv {settings : Settings} {s : State} (h : Inv settings s) (workerId : String)
    (hovertake : overtakingClaim settings s (s.claims workerId) = false)
    (hoverlook : overlookingRecheck settings s (s.claims workerId) = false) :
    Inv settings
      { s with
        rows := (advanceClaim settings s.clock workerId s.rows (s.claims workerId)).2
        claims := setPhase workerId
          (advanceClaim settings s.clock workerId s.rows (s.claims workerId)).1 s.claims } := by
  have hknown := h.known workerId
  have hreadings := h.readings workerId
  cases hphase : s.claims workerId with
  | idle =>
    exact h.setPhase (by simp [advanceClaim, ClaimPhase.known])
      (by simp [advanceClaim, ClaimPhase.readings])
  | readUsage locals =>
    rw [hphase] at hknown hreadings
    exact h.setPhase hknown hreadings
  | readCandidates locals =>
    rw [hphase] at hreadings
    exact h.setPhase (fun c hc => describes_of_candidate h hc) hreadings
  | nextCandidate locals =>
    rw [hphase] at hknown hreadings hovertake
    cases hcandidates : locals.candidates with
    | nil =>
      simp only [advanceClaim, hcandidates]
      exact h.setPhase (by simp [ClaimPhase.known]) (by simp [ClaimPhase.readings])
    | cons row candidates =>
      have hrest : ∀ c ∈ candidates, Describes s.nextId s.rows c := fun c hc =>
        hknown c (by simp [ClaimPhase.known, hcandidates, hc])
      simp only [advanceClaim, hcandidates]
      split
      · exact h.setPhase hrest hreadings
      · rename_i hfree
        split
        · rename_i claimed hclaimed
          obtain rfl := claimMigrationLease_eq_some hclaimed
          have hfair : ¬ Overtakes settings s row.id := by
            simpa [overtakingClaim, hcandidates, hfree] using hovertake
          have hmap := h.map (claimLease_keeps row.id workerId locals.now locals.leaseUntil)
            (claimLease_ranked h workerId locals.leaseUntil hfair)
          refine hmap.setPhase ?_ hreadings
          intro c hc
          refine Describes.map (claimLease_keeps _ _ _ _) ?_
          rcases List.mem_cons.mp hc with rfl | hc
          · exact hknown c (by simp [ClaimPhase.known, hcandidates])
          · exact hrest c hc
        · exact h.setPhase hrest hreadings
  | readRecheckClock locals migration =>
    rw [hphase] at hknown hreadings
    refine h.setPhase hknown ?_
    intro t ht
    rcases List.mem_cons.mp ht with rfl | ht
    · exact hreadings _ (by simp [ClaimPhase.readings])
    · exact (List.mem_singleton.mp ht).le
  | recheck locals migration now =>
    rw [hphase] at hknown hreadings hoverlook
    simp only [advanceClaim]
    split
    · rename_i hpass
      have hfair : ¬ Overlooks settings s migration := by
        simpa [overlookingRecheck, hpass] using hoverlook
      have hmap := h.map (markReturned_keeps migration.id workerId)
        (markReturned_ranked h workerId (hreadings now (by simp [ClaimPhase.readings]))
          (hknown migration (by simp [ClaimPhase.known])) hpass hfair)
      exact hmap.setPhase (by simp [ClaimPhase.known]) (by simp [ClaimPhase.readings])
    · exact h.setPhase hknown fun t ht => hreadings t (by
        simp only [ClaimPhase.readings, List.mem_singleton] at ht
        simp [ClaimPhase.readings, ht])
  | release locals migration =>
    rw [hphase] at hknown hreadings
    have hmap := h.map (releaseMigrationLease_keeps migration.id workerId)
      (releaseMigrationLease_ranked h.ranked migration.id workerId)
    refine hmap.setPhase ?_ hreadings
    intro c hc
    exact (hknown c (List.mem_cons_of_mem _ hc)).map (releaseMigrationLease_keeps _ _)
  | readUsageClock locals =>
    rw [hphase] at hknown hreadings
    refine h.setPhase hknown ?_
    intro t ht
    rcases List.mem_cons.mp ht with rfl | ht
    · exact hreadings _ (by simp [ClaimPhase.readings])
    · exact (List.mem_singleton.mp ht).le
  | rereadUsage locals now =>
    rw [hphase] at hknown hreadings
    exact h.setPhase hknown fun t ht =>
      hreadings t (List.mem_cons.mpr (.inl (List.mem_singleton.mp ht)))

theorem step_inv {settings : Settings} {s s' : State} {event : Event} (h : Inv settings s)
    (hok : stepKeepsLimit settings s event = true) (hstep : step settings s event = some s') :
    Inv settings s' := by
  cases event with
  | tick =>
    cases hstep
    exact tick_inv h
  | create createdAt sourceContextId targetContextId =>
    cases hstep
    exact create_inv h rfl rfl
  | delete migrationId =>
    cases hstep
    exact delete_inv h migrationId
  | setStatus migrationId status preparation maintenance =>
    cases hstep
    exact h.map (setStatuses_keeps _ _ _ _) (setStatuses_ranked h.ranked _ _ _ _)
  | clearLease migrationId =>
    cases hstep
    exact h.map (clearLease_keeps _) (clearLease_ranked h.ranked _)
  | claimPreparation migrationId workerId now leaseSeconds =>
    simp only [step, Option.ite_none_right_eq_some, Option.some.injEq] at hstep
    obtain ⟨-, rfl⟩ := hstep
    exact h.map (claimPreparation_keeps _ _ _ _) (claimPreparation_ranked h.ranked _ _ _ _)
  | renew migrationId workerId now leaseSeconds =>
    simp only [step, Option.ite_none_right_eq_some, Option.some.injEq] at hstep
    obtain ⟨-, rfl⟩ := hstep
    have hfair : ¬ Revives settings s migrationId workerId := by simpa [stepKeepsLimit] using hok
    exact h.map (renewMigrationLease_keeps _ _ _ _)
      (renewMigrationLease_ranked h now leaseSeconds hfair)
  | startClaim workerId leaseSeconds =>
    simp only [step] at hstep
    split at hstep
    · cases hstep
    · split at hstep
      · cases hstep
        exact h.setPhase (by simp [ClaimPhase.known]) (by simp [ClaimPhase.readings])
      · cases hstep
  | advance workerId =>
    cases hstep
    obtain ⟨hovertake, hoverlook⟩ := Bool.and_eq_true_iff.mp hok
    exact advance_inv h workerId (by simpa using hovertake) (by simpa using hoverlook)
  | crash workerId =>
    cases hstep
    exact h.setPhase (by simp [ClaimPhase.known]) (by simp [ClaimPhase.readings])

theorem Reachable.inv {settings : Settings} {s : State}
    (h : Reachable settings (stepKeepsLimit settings) s) : Inv settings s := by
  induction h with
  | init clock => exact init_inv settings clock
  | step _ hok hstep ih => exact step_inv ih hok hstep

/-- While no claim overtakes a running migration on a full endpoint, no recheck overlooks a lease
and no renewal revives one, every endpoint stays within its limit. -/
theorem withinLimit_of_reachable {settings : Settings} {s : State}
    (h : Reachable settings (stepKeepsLimit settings) s) : WithinLimit settings s :=
  h.inv.withinLimit

/-! ## Runs -/

/-- The state after a list of events; `none` when a step is impossible or not `ok`. -/
def run (settings : Settings) (ok : State → Event → Bool) (s : State) :
    List Event → Option State
  | [] => some s
  | event :: events =>
    if ok s event then (step settings s event).bind fun s' => run settings ok s' events else none

theorem reachable_run {settings : Settings} {ok : State → Event → Bool} {s s' : State}
    {events : List Event} (h : Reachable settings ok s) (hrun : run settings ok s events = some s') :
    Reachable settings ok s' := by
  induction events generalizing s with
  | nil =>
    cases hrun
    exact h
  | cons event events ih =>
    simp only [run, Option.ite_none_right_eq_some, Option.bind_eq_some_iff] at hrun
    obtain ⟨hok, next, hstep, hrun⟩ := hrun
    exact ih (h.step hok hstep) hrun

/-- One migration at a time; every context lives on one endpoint. -/
def oneAtATime : Settings where
  maxActivePerEndpoint := 1
  resolveEndpoint _ := some (some "https://s3.example.test/")

/-- Both workers claim at the same time; the younger claim is released after its recheck. -/
def rivalClaims : List Event :=
  [.create 1 "source" "target", .create 2 "source" "target",
    .setStatus 0 .queued .ready .idle, .setStatus 1 .queued .ready .idle,
    .startClaim "a" 60, .startClaim "b" 60,
    .advance "a", .advance "a", .advance "b", .advance "b",
    .advance "a", .advance "a", .advance "a",
    .advance "b", .advance "b", .advance "b", .advance "b", .advance "b"]

/-- Worker `a` reads the usage before worker `b` claims the younger migration, and then claims the
older one, which has just become runnable. -/
def staleUsage : List Event :=
  [.create 1 "source" "target", .create 2 "source" "target",
    .setStatus 1 .queued .ready .idle,
    .startClaim "a" 60, .advance "a",
    .startClaim "b" 60, .advance "b", .advance "b", .advance "b", .advance "b", .advance "b",
    .setStatus 0 .queued .ready .idle,
    .advance "a", .advance "a", .advance "a", .advance "a"]

theorem withinLimit_rivalClaims :
    ∃ s, run oneAtATime (stepKeepsLimit oneAtATime) (.init 0) rivalClaims = some s ∧
      s.rows.map MigrationRow.progress = [.returned, .unclaimed] ∧ WithinLimit oneAtATime s := by
  have hrun : (run oneAtATime (stepKeepsLimit oneAtATime) (.init 0) rivalClaims).any
      (fun s => s.rows.map MigrationRow.progress = [.returned, .unclaimed]) = true := by
    decide +kernel
  obtain ⟨s, hs, hprogress⟩ := (Option.any_eq_true _ _).mp hrun
  exact ⟨s, hs, of_decide_eq_true hprogress,
    withinLimit_of_reachable (reachable_run (.init 0) hs)⟩

/-- The recheck ranks by age: it lets the claim of the older migration through. -/
theorem stale_usage_exceeds_limit :
    ¬ ∀ (settings : Settings) (s : State),
      Reachable settings (fun _ _ => true) s → WithinLimit settings s := by
  intro h
  have hrun : (run oneAtATime (fun _ _ => true) (.init 0) staleUsage).any
      (fun s => s.rows.countP
        (MigrationRow.running oneAtATime s.clock "endpoint:https://s3.example.test") = 2) = true := by
    decide +kernel
  obtain ⟨s, hs, hrunning⟩ := (Option.any_eq_true _ _).mp hrun
  have hwithin := h oneAtATime s (reachable_run (.init 0) hs) "endpoint:https://s3.example.test"
  rw [of_decide_eq_true hrunning] at hwithin
  exact absurd hwithin (by decide)

end Scheduling
end BucketReef

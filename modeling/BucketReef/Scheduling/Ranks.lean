import BucketReef.Lists.Counting
import BucketReef.Scheduling.Claim

/-!
# The ranks of the leases on an endpoint

A migration runs on an endpoint while its claim has returned and its lease has not expired. The
recheck of a claim ranks the leased migrations by age, not by the time of their claims, so it bounds
the running migrations only as far as the claims come in that order: among the leases not younger
than a running migration there are at most as many as the limit allows. Three kinds of steps break
this: the claim of an older migration on an endpoint that has filled up since its usage was read, a
recheck that does not see the lease of a migration that is no longer runnable, and the renewal of an
expired lease whose place was taken.
-/

namespace BucketReef
namespace Scheduling

open Lists Migration

/-! ## Leases on an endpoint -/

namespace MigrationRow

/-- A claim, returned or not, holds a place on the endpoint. -/
def holds (settings : Settings) (clock : ℕ) (key : String) (row : MigrationRow) : Bool :=
  row.progress ≠ .unclaimed && row.leaseHeld clock && decide (key ∈ row.endpointKeys settings)

/-- A migration whose claim returned runs on the endpoint. -/
def running (settings : Settings) (clock : ℕ) (key : String) (row : MigrationRow) : Bool :=
  row.progress = .returned && row.leaseHeld clock && decide (key ∈ row.endpointKeys settings)

theorem holds_iff {settings : Settings} {clock : ℕ} {key : String} {row : MigrationRow} :
    row.holds settings clock key = true ↔
      row.progress ≠ .unclaimed ∧ row.leaseHeld clock = true ∧ key ∈ row.endpointKeys settings := by
  simp [holds, and_assoc]

theorem running_iff {settings : Settings} {clock : ℕ} {key : String} {row : MigrationRow} :
    row.running settings clock key = true ↔
      row.progress = .returned ∧ row.leaseHeld clock = true ∧ key ∈ row.endpointKeys settings := by
  simp [running, and_assoc]

theorem running.holds {settings : Settings} {clock : ℕ} {key : String} {row : MigrationRow}
    (h : row.running settings clock key = true) : row.holds settings clock key = true := by
  obtain ⟨hprogress, hheld, hkey⟩ := running_iff.mp h
  exact holds_iff.mpr ⟨by simp [hprogress], hheld, hkey⟩

theorem leaseHeld_iff {clock : ℕ} {row : MigrationRow} :
    row.leaseHeld clock = true ↔ ∃ until_, row.workerLeaseUntil = some until_ ∧ clock ≤ until_ := by
  simp [leaseHeld, Option.any_eq_true]

theorem leaseHeld_mono {now clock : ℕ} {row : MigrationRow} (hle : now ≤ clock)
    (h : row.leaseHeld clock = true) : row.leaseHeld now = true := by
  obtain ⟨until_, huntil, hclock⟩ := leaseHeld_iff.mp h
  exact leaseHeld_iff.mpr ⟨until_, huntil, hle.trans hclock⟩

end MigrationRow

def holders (settings : Settings) (s : State) (key : String) : ℕ :=
  s.rows.countP (MigrationRow.holds settings s.clock key)

/-- No endpoint has more running migrations than its limit. -/
def WithinLimit (settings : Settings) (s : State) : Prop :=
  ∀ key, s.rows.countP (MigrationRow.running settings s.clock key) ≤ settings.maxActivePerEndpoint

/-! ## The steps that break the limit -/

/-- The claim would take a migration older than a running one, on an endpoint without a free place. -/
def Overtakes (settings : Settings) (s : State) (migrationId : ℕ) : Prop :=
  ∃ m ∈ s.rows, m.id = migrationId ∧ ∃ key ∈ m.endpointKeys settings,
    settings.maxActivePerEndpoint ≤ holders settings s key ∧
      ∃ y ∈ s.rows, y.running settings s.clock key = true ∧ m.age < y.age

/-- The recheck does not count a lease of an endpoint that is over its limit. -/
def Overlooks (settings : Settings) (s : State) (migration : Candidate) : Prop :=
  ∃ key ∈ migration.endpointKeys settings,
    settings.maxActivePerEndpoint < holders settings s key ∧
      ∃ v ∈ s.rows, v.holds settings s.clock key = true ∧ v.runnableWork = false

/-- The renewal brings an expired lease back to an endpoint without a free place. -/
def Revives (settings : Settings) (s : State) (migrationId : ℕ) (workerId : String) : Prop :=
  ∃ m ∈ s.rows, renewable migrationId workerId m = true ∧ m.leaseHeld s.clock = false ∧
    ∃ key ∈ m.endpointKeys settings, settings.maxActivePerEndpoint ≤ holders settings s key

instance (settings : Settings) (s : State) (migrationId : ℕ) :
    Decidable (Overtakes settings s migrationId) :=
  inferInstanceAs (Decidable (∃ m ∈ s.rows, _))

instance (settings : Settings) (s : State) (migration : Candidate) :
    Decidable (Overlooks settings s migration) :=
  inferInstanceAs (Decidable (∃ key ∈ migration.endpointKeys settings, _))

instance (settings : Settings) (s : State) (migrationId : ℕ) (workerId : String) :
    Decidable (Revives settings s migrationId workerId) :=
  inferInstanceAs (Decidable (∃ m ∈ s.rows, _))

def overtakingClaim (settings : Settings) (s : State) : ClaimPhase → Bool
  | .nextCandidate locals =>
    match locals.candidates with
    | [] => false
    | row :: _ =>
      !endpointSaturated settings locals.endpointUsage row && Overtakes settings s row.id
  | _ => false

def overlookingRecheck (settings : Settings) (s : State) : ClaimPhase → Bool
  | .recheck _ migration now =>
    claimedMigrationWithinEndpointLimit settings now s.rows migration &&
      Overlooks settings s migration
  | _ => false

/-- The step is none of the three that break the limit. -/
def stepKeepsLimit (settings : Settings) (s : State) : Event → Bool
  | .advance workerId =>
    !overtakingClaim settings s (s.claims workerId) &&
      !overlookingRecheck settings s (s.claims workerId)
  | .renew migrationId workerId _ _ => ¬ Revives settings s migrationId workerId
  | _ => true

/-- The states of all runs whose steps all satisfy `ok`. -/
inductive Reachable (settings : Settings) (ok : State → Event → Bool) : State → Prop
  | init (clock : ℕ) : Reachable settings ok (.init clock)
  | step {s s' : State} {event : Event} : Reachable settings ok s → ok s event = true →
      step settings s event = some s' → Reachable settings ok s'

/-! ## The invariant -/

/-- Among the leases not younger than a running migration at most the limit are held. -/
def Ranked (settings : Settings) (clock : ℕ) (rows : List MigrationRow) : Prop :=
  ∀ key, ∀ y ∈ rows, y.running settings clock key = true →
    rows.countP (fun v => v.holds settings clock key && decide (v.age ≤ y.age)) ≤
      settings.maxActivePerEndpoint

/-- What a worker read about a migration still describes its row. -/
def Describes (nextId : ℕ) (rows : List MigrationRow) (c : Candidate) : Prop :=
  c.id < nextId ∧ ∀ row ∈ rows, row.id = c.id →
    row.sourceContextId = c.sourceContextId ∧ row.targetContextId = c.targetContextId

namespace ClaimPhase

/-- The candidates a worker still works on. -/
def known : ClaimPhase → List Candidate
  | .idle => []
  | .readUsage locals | .readCandidates locals | .nextCandidate locals | .readUsageClock locals
  | .rereadUsage locals _ => locals.candidates
  | .readRecheckClock locals migration | .recheck locals migration _
  | .release locals migration => migration :: locals.candidates

/-- The readings of the clock a worker still uses. -/
def readings : ClaimPhase → List ℕ
  | .idle => []
  | .readUsage locals | .readCandidates locals | .nextCandidate locals | .readUsageClock locals
  | .readRecheckClock locals _ | .release locals _ => [locals.now]
  | .rereadUsage locals now | .recheck locals _ now => [locals.now, now]

end ClaimPhase

structure Inv (settings : Settings) (s : State) : Prop where
  ids : ∀ row ∈ s.rows, row.id < s.nextId
  nodup : (s.rows.map MigrationRow.id).Nodup
  ranked : Ranked settings s.clock s.rows
  known : ∀ worker, ∀ c ∈ (s.claims worker).known, Describes s.nextId s.rows c
  readings : ∀ worker, ∀ t ∈ (s.claims worker).readings, t ≤ s.clock

/-- The youngest running migration of an endpoint bounds them all. -/
theorem Inv.withinLimit {settings : Settings} {s : State} (h : Inv settings s) :
    WithinLimit settings s := by
  intro key
  let running := s.rows.filter (MigrationRow.running settings s.clock key)
  cases hlast : (sortedBy MigrationRow.age running).getLast? with
  | none =>
    have hempty : running.length = 0 := by
      rw [← length_sortedBy MigrationRow.age running, List.getLast?_eq_none_iff.mp hlast]
      rfl
    rw [List.countP_eq_length_filter]
    exact hempty.le.trans (Nat.zero_le _)
  | some y =>
    have hy : y ∈ running := mem_sortedBy.mp (List.mem_of_getLast? hlast)
    obtain ⟨hyRows, hyRunning⟩ := List.mem_filter.mp hy
    calc s.rows.countP (MigrationRow.running settings s.clock key)
        ≤ s.rows.countP (fun v => v.holds settings s.clock key && decide (v.age ≤ y.age)) := by
          apply List.countP_mono_left
          intro v hv hvRunning
          have hage : v.age ≤ y.age :=
            le_of_getLast?_sortedBy hlast (List.mem_filter.mpr ⟨hv, hvRunning⟩)
          simp [MigrationRow.running.holds hvRunning, hage]
      _ ≤ settings.maxActivePerEndpoint := h.ranked key y hyRows hyRunning

/-! ## Steps that take no place -/

/-- The update leaves the identity of every row as it is. -/
def KeepsIdentity (f : MigrationRow → MigrationRow) : Prop :=
  ∀ row, (f row).id = row.id ∧ (f row).createdAt = row.createdAt ∧
    (f row).sourceContextId = row.sourceContextId ∧ (f row).targetContextId = row.targetContextId

theorem KeepsIdentity.age {f : MigrationRow → MigrationRow} (h : KeepsIdentity f)
    (row : MigrationRow) : (f row).age = row.age := by
  obtain ⟨hid, hcreated, -, -⟩ := h row
  rw [MigrationRow.age, MigrationRow.age, hid, hcreated]

theorem KeepsIdentity.endpointKeys {f : MigrationRow → MigrationRow} (h : KeepsIdentity f)
    (settings : Settings) (row : MigrationRow) :
    (f row).endpointKeys settings = row.endpointKeys settings := by
  obtain ⟨-, -, hsource, htarget⟩ := h row
  rw [MigrationRow.endpointKeys, MigrationRow.endpointKeys, hsource, htarget]

theorem Describes.map {nextId : ℕ} {rows : List MigrationRow} {c : Candidate}
    {f : MigrationRow → MigrationRow} (hf : KeepsIdentity f) (h : Describes nextId rows c) :
    Describes nextId (rows.map f) c := by
  refine ⟨h.1, ?_⟩
  intro row hrow hid
  obtain ⟨old, hold, rfl⟩ := List.mem_map.mp hrow
  obtain ⟨hidOld, -, hsource, htarget⟩ := hf old
  rw [hsource, htarget]
  exact h.2 old hold (hidOld.symm.trans hid)

/-- An update under which no lease becomes held and no migration starts to run. -/
theorem Ranked.map {settings : Settings} {clock clock' : ℕ} {rows : List MigrationRow}
    {f : MigrationRow → MigrationRow} (h : Ranked settings clock rows) (hf : KeepsIdentity f)
    (hholds : ∀ row ∈ rows, ∀ key, (f row).holds settings clock' key = true →
      row.holds settings clock key = true)
    (hrunning : ∀ row ∈ rows, ∀ key, (f row).running settings clock' key = true →
      row.running settings clock key = true) :
    Ranked settings clock' (rows.map f) := by
  intro key y hy hyRunning
  obtain ⟨old, hold, rfl⟩ := List.mem_map.mp hy
  refine le_trans ?_ (h key old hold (hrunning old hold key hyRunning))
  rw [List.countP_map]
  apply List.countP_mono_left
  intro row hrow hrowHolds
  simp only [Function.comp, hf.age, Bool.and_eq_true] at hrowHolds ⊢
  exact ⟨hholds row hrow key hrowHolds.1, hrowHolds.2⟩

/-- Rows may disappear. -/
theorem Ranked.sublist {settings : Settings} {clock : ℕ} {rows rows' : List MigrationRow}
    (h : Ranked settings clock rows) (hsub : rows'.Sublist rows) : Ranked settings clock rows' :=
  fun key y hy hyRunning => (hsub.countP_le).trans (h key y (hsub.subset hy) hyRunning)

/-- The rows of a state after an update of the table, with its claims and its clock. -/
theorem Inv.map {settings : Settings} {s : State} {f : MigrationRow → MigrationRow}
    (h : Inv settings s) (hf : KeepsIdentity f) (hranked : Ranked settings s.clock (s.rows.map f)) :
    Inv settings { s with rows := s.rows.map f } where
  ids := by
    intro row hrow
    obtain ⟨old, hold, rfl⟩ := List.mem_map.mp hrow
    rw [(hf old).1]
    exact h.ids old hold
  nodup := by
    have hids : (s.rows.map f).map MigrationRow.id = s.rows.map MigrationRow.id := by
      rw [List.map_map]
      exact List.map_congr_left fun row _ => (hf row).1
    show ((s.rows.map f).map MigrationRow.id).Nodup
    rw [hids]
    exact h.nodup
  ranked := hranked
  known worker c hc := (h.known worker c hc).map hf
  readings := h.readings

/-- A worker moves to a phase that knows rows of the table and readings of the clock. -/
theorem Inv.setPhase {settings : Settings} {s : State} {workerId : String} {phase : ClaimPhase}
    (h : Inv settings s) (hknown : ∀ c ∈ phase.known, Describes s.nextId s.rows c)
    (hreadings : ∀ t ∈ phase.readings, t ≤ s.clock) :
    Inv settings { s with claims := setPhase workerId phase s.claims } where
  ids := h.ids
  nodup := h.nodup
  ranked := h.ranked
  known worker := by
    by_cases hworker : worker = workerId
    · simpa [Scheduling.setPhase, hworker] using hknown
    · simpa [Scheduling.setPhase, hworker] using h.known worker
  readings worker := by
    by_cases hworker : worker = workerId
    · simpa [Scheduling.setPhase, hworker] using hreadings
    · simpa [Scheduling.setPhase, hworker] using h.readings worker

theorem releaseMigrationLease_keeps (migrationId : ℕ) (workerId : String) :
    KeepsIdentity (releaseMigrationLease migrationId workerId) := by
  intro row
  unfold releaseMigrationLease
  split <;> simp

theorem renewMigrationLease_keeps (migrationId : ℕ) (workerId : String) (now leaseSeconds : ℕ) :
    KeepsIdentity (renewMigrationLease migrationId workerId now leaseSeconds) := by
  intro row
  unfold renewMigrationLease
  split <;> simp

theorem markReturned_keeps (migrationId : ℕ) (workerId : String) :
    KeepsIdentity (markReturned migrationId workerId) := by
  intro row
  unfold markReturned
  split <;> simp

theorem setStatuses_keeps (migrationId : ℕ) (status : MigrationStatus)
    (preparation : PreparationStatus) (maintenance : MaintenanceStatus) :
    KeepsIdentity (setStatuses migrationId status preparation maintenance) := by
  intro row
  unfold setStatuses
  split <;> simp

theorem clearLease_keeps (migrationId : ℕ) : KeepsIdentity (clearLease migrationId) := by
  intro row
  unfold clearLease
  split <;> simp

theorem claimPreparation_keeps (migrationId : ℕ) (workerId : String) (now leaseSeconds : ℕ) :
    KeepsIdentity (claimPreparation migrationId workerId now leaseSeconds) := by
  intro row
  unfold claimPreparation
  split <;> simp

/-- An update that leaves a row as it is or takes its claim away makes no lease held. -/
theorem Ranked.map_unclaimed {settings : Settings} {clock : ℕ} {rows : List MigrationRow}
    {f : MigrationRow → MigrationRow} (h : Ranked settings clock rows) (hf : KeepsIdentity f)
    (hclaim : ∀ row ∈ rows, (f row).progress = .unclaimed ∨
      (f row).progress = row.progress ∧ (f row).workerLeaseUntil = row.workerLeaseUntil) :
    Ranked settings clock (rows.map f) := by
  refine h.map hf ?_ ?_
  · intro row hrow key hholds
    obtain ⟨hprogress, hheld, hkey⟩ := MigrationRow.holds_iff.mp hholds
    rcases hclaim row hrow with hclaim | ⟨hsame, huntil⟩
    · exact absurd hclaim hprogress
    · rw [MigrationRow.leaseHeld, huntil] at hheld
      rw [hf.endpointKeys] at hkey
      exact MigrationRow.holds_iff.mpr ⟨hsame ▸ hprogress, hheld, hkey⟩
  · intro row hrow key hrunning
    obtain ⟨hprogress, hheld, hkey⟩ := MigrationRow.running_iff.mp hrunning
    rcases hclaim row hrow with hclaim | ⟨hsame, huntil⟩
    · rw [hclaim] at hprogress
      cases hprogress
    · rw [MigrationRow.leaseHeld, huntil] at hheld
      rw [hf.endpointKeys] at hkey
      exact MigrationRow.running_iff.mpr ⟨hsame ▸ hprogress, hheld, hkey⟩

theorem releaseMigrationLease_ranked {settings : Settings} {clock : ℕ} {rows : List MigrationRow}
    (h : Ranked settings clock rows) (migrationId : ℕ) (workerId : String) :
    Ranked settings clock (rows.map (releaseMigrationLease migrationId workerId)) := by
  refine h.map_unclaimed (releaseMigrationLease_keeps migrationId workerId) ?_
  intro row _
  unfold releaseMigrationLease
  split <;> simp

theorem setStatuses_ranked {settings : Settings} {clock : ℕ} {rows : List MigrationRow}
    (h : Ranked settings clock rows) (migrationId : ℕ) (status : MigrationStatus)
    (preparation : PreparationStatus) (maintenance : MaintenanceStatus) :
    Ranked settings clock
      (rows.map (setStatuses migrationId status preparation maintenance)) := by
  refine h.map_unclaimed (setStatuses_keeps migrationId status preparation maintenance) ?_
  intro row _
  unfold setStatuses
  split <;> simp

theorem clearLease_ranked {settings : Settings} {clock : ℕ} {rows : List MigrationRow}
    (h : Ranked settings clock rows) (migrationId : ℕ) :
    Ranked settings clock (rows.map (clearLease migrationId)) := by
  refine h.map_unclaimed (clearLease_keeps migrationId) ?_
  intro row _
  unfold clearLease
  split <;> simp

theorem claimPreparation_ranked {settings : Settings} {clock : ℕ} {rows : List MigrationRow}
    (h : Ranked settings clock rows) (migrationId : ℕ) (workerId : String)
    (now leaseSeconds : ℕ) :
    Ranked settings clock
      (rows.map (claimPreparation migrationId workerId now leaseSeconds)) := by
  refine h.map_unclaimed (claimPreparation_keeps migrationId workerId now leaseSeconds) ?_
  intro row _
  unfold claimPreparation
  split <;> simp

/-! ## Steps that take a place -/

/-- Two different rows of the table have different ids. -/
theorem eq_of_id_eq {rows : List MigrationRow} (hnodup : (rows.map MigrationRow.id).Nodup)
    {a b : MigrationRow} (ha : a ∈ rows) (hb : b ∈ rows) (hid : a.id = b.id) : a = b :=
  List.inj_on_of_nodup_map hnodup ha hb hid

theorem eq_of_age_eq {rows : List MigrationRow} (hnodup : (rows.map MigrationRow.id).Nodup)
    {a b : MigrationRow} (ha : a ∈ rows) (hb : b ∈ rows) (hage : a.age = b.age) : a = b :=
  eq_of_id_eq hnodup ha hb (congrArg (fun age => (ofLex age).2) hage)

/-- The lease a claim takes. -/
def claimLease (migrationId : ℕ) (workerId : String) (now leaseUntil : ℕ) (row : MigrationRow) :
    MigrationRow :=
  if claimable migrationId now row then
    { row with
      workerLeaseOwner := some workerId
      workerLeaseUntil := some leaseUntil
      progress := .claimed }
  else row

theorem claimMigrationLease_eq_some {migrationId now leaseUntil : ℕ} {workerId : String}
    {rows claimed : List MigrationRow}
    (h : claimMigrationLease migrationId workerId now leaseUntil rows = some claimed) :
    claimed = rows.map (claimLease migrationId workerId now leaseUntil) := by
  unfold claimMigrationLease at h
  split at h
  · exact (Option.some.inj h).symm
  · cases h

theorem claimLease_keeps (migrationId : ℕ) (workerId : String) (now leaseUntil : ℕ) :
    KeepsIdentity (claimLease migrationId workerId now leaseUntil) := by
  intro row
  unfold claimLease
  split <;> simp

theorem claimable_iff {migrationId now : ℕ} {row : MigrationRow} :
    claimable migrationId now row = true ↔
      row.id = migrationId ∧ row.runnableWork = true ∧ row.availableLease now = true := by
  simp [claimable, and_assoc]

/-- A claim that overtakes no running migration keeps the ranks. -/
theorem claimLease_ranked {settings : Settings} {s : State} (h : Inv settings s) {migrationId : ℕ}
    (workerId : String) {now : ℕ} (leaseUntil : ℕ) (hfair : ¬ Overtakes settings s migrationId) :
    Ranked settings s.clock (s.rows.map (claimLease migrationId workerId now leaseUntil)) := by
  set f := claimLease migrationId workerId now leaseUntil with hf
  have hkeeps : KeepsIdentity f := claimLease_keeps _ _ _ _
  have hother : ∀ row, claimable migrationId now row = false → f row = row := by
    intro row hrow
    simp [hf, claimLease, hrow]
  intro key y' hy' hrunning
  obtain ⟨y, hy, rfl⟩ := List.mem_map.mp hy'
  -- a row that has just been claimed does not run
  have hyOther : claimable migrationId now y = false := by
    rw [Bool.eq_false_iff]
    intro hclaimable
    obtain ⟨hprogress, -, -⟩ := MigrationRow.running_iff.mp hrunning
    simp [hf, claimLease, hclaimable] at hprogress
  rw [hother y hyOther] at hrunning ⊢
  by_cases hplace : ∃ m ∈ s.rows, claimable migrationId now m = true ∧
      key ∈ m.endpointKeys settings ∧ m.age ≤ y.age
  · obtain ⟨m, hm, hclaimable, hkey, hage⟩ := hplace
    have hmy : m.age < y.age := by
      refine lt_of_le_of_ne hage ?_
      intro heq
      rw [eq_of_age_eq h.nodup hm hy heq, hyOther] at hclaimable
      cases hclaimable
    have hfree : holders settings s key < settings.maxActivePerEndpoint := by
      by_contra hfull
      exact hfair ⟨m, hm, (claimable_iff.mp hclaimable).1, key, hkey, not_lt.mp hfull, y, hy,
        hrunning, hmy⟩
    have hadd : (s.rows.map f).countP (MigrationRow.holds settings s.clock key) ≤
        holders settings s key + 1 := by
      refine countP_map_le_add_one (t := migrationId) h.nodup (p := claimable migrationId now) ?_ ?_
      · exact fun row hrow => (claimable_iff.mp hrow).1
      · intro row _ hrow hholds
        rwa [hother row hrow] at hholds
    calc (s.rows.map f).countP (fun v => v.holds settings s.clock key && decide (v.age ≤ y.age))
        ≤ (s.rows.map f).countP (MigrationRow.holds settings s.clock key) := by
          apply List.countP_mono_left
          intro v _ hv
          exact (Bool.and_eq_true_iff.mp hv).1
      _ ≤ settings.maxActivePerEndpoint := by omega
  · -- the claimed row does not count here
    refine le_trans ?_ (h.ranked key y hy hrunning)
    rw [List.countP_map]
    apply List.countP_mono_left
    intro row hrow hcount
    cases hclaimable : claimable migrationId now row with
    | true =>
      simp only [Function.comp, hkeeps.age, Bool.and_eq_true, decide_eq_true_eq] at hcount
      obtain ⟨-, -, hkey⟩ := MigrationRow.holds_iff.mp hcount.1
      rw [hkeeps.endpointKeys] at hkey
      exact absurd ⟨row, hrow, hclaimable, hkey, hcount.2⟩ hplace
    | false => simpa [hother row hclaimable] using hcount

theorem renewable_id {migrationId : ℕ} {workerId : String} {row : MigrationRow}
    (h : renewable migrationId workerId row = true) : row.id = migrationId := by
  simp only [renewable, Bool.and_eq_true, decide_eq_true_eq] at h
  exact h.1.1

/-- A renewal that revives no expired lease on a full endpoint keeps the ranks. -/
theorem renewMigrationLease_ranked {settings : Settings} {s : State} (h : Inv settings s)
    {migrationId : ℕ} {workerId : String} (now leaseSeconds : ℕ)
    (hfair : ¬ Revives settings s migrationId workerId) :
    Ranked settings s.clock
      (s.rows.map (renewMigrationLease migrationId workerId now leaseSeconds)) := by
  set f := renewMigrationLease migrationId workerId now leaseSeconds with hf
  have hkeeps : KeepsIdentity f := renewMigrationLease_keeps _ _ _ _
  have hprogress : ∀ row, (f row).progress = row.progress := by
    intro row
    rw [hf, renewMigrationLease]
    split <;> rfl
  have hother : ∀ row, renewable migrationId workerId row = false → f row = row := by
    intro row hrow
    simp [hf, renewMigrationLease, hrow]
  intro key y' hy' hrunning
  by_cases hplace : ∃ m ∈ s.rows, renewable migrationId workerId m = true ∧
      m.leaseHeld s.clock = false ∧ key ∈ m.endpointKeys settings
  · obtain ⟨m, hm, hrenewable, hexpired, hkey⟩ := hplace
    have hfree : holders settings s key < settings.maxActivePerEndpoint := by
      by_contra hfull
      exact hfair ⟨m, hm, hrenewable, hexpired, key, hkey, not_lt.mp hfull⟩
    have hadd : (s.rows.map f).countP (MigrationRow.holds settings s.clock key) ≤
        holders settings s key + 1 := by
      refine countP_map_le_add_one (t := migrationId) h.nodup
        (p := renewable migrationId workerId) (fun row => renewable_id) ?_
      intro row _ hrow hholds
      rwa [hother row hrow] at hholds
    calc (s.rows.map f).countP (fun v => v.holds settings s.clock key && decide (v.age ≤ y'.age))
        ≤ (s.rows.map f).countP (MigrationRow.holds settings s.clock key) := by
          apply List.countP_mono_left
          intro v _ hv
          exact (Bool.and_eq_true_iff.mp hv).1
      _ ≤ settings.maxActivePerEndpoint := by omega
  · -- every lease on this endpoint that is held now was held before
    have hheld : ∀ row ∈ s.rows, (f row).leaseHeld s.clock = true →
        key ∈ row.endpointKeys settings → row.leaseHeld s.clock = true := by
      intro row hrow hheld hkey
      cases hrenewable : renewable migrationId workerId row with
      | false => rwa [hother row hrenewable] at hheld
      | true =>
        by_contra hexpired
        exact hplace ⟨row, hrow, hrenewable, Bool.eq_false_iff.mpr hexpired, hkey⟩
    obtain ⟨y, hy, rfl⟩ := List.mem_map.mp hy'
    obtain ⟨hreturned, hyHeld, hyKey⟩ := MigrationRow.running_iff.mp hrunning
    rw [hprogress] at hreturned
    rw [hkeeps.endpointKeys] at hyKey
    refine le_trans ?_ (h.ranked key y hy
      (MigrationRow.running_iff.mpr ⟨hreturned, hheld y hy hyHeld hyKey, hyKey⟩))
    rw [List.countP_map]
    apply List.countP_mono_left
    intro row hrow hcount
    simp only [Function.comp, hkeeps.age, Bool.and_eq_true] at hcount ⊢
    obtain ⟨hclaim, hrowHeld, hrowKey⟩ := MigrationRow.holds_iff.mp hcount.1
    rw [hprogress] at hclaim
    rw [hkeeps.endpointKeys] at hrowKey
    exact ⟨MigrationRow.holds_iff.mpr ⟨hclaim, hheld row hrow hrowHeld hrowKey, hrowKey⟩, hcount.2⟩

/-- The leases the recheck counts for one endpoint and one age are those ranked before it. -/
theorem countP_lt_le_rank (settings : Settings) (now : ℕ) {rows : List MigrationRow}
    (hnodup : (rows.map MigrationRow.id).Nodup) {y : MigrationRow} (hy : y ∈ rows) (key : String) :
    rows.countP (fun v => (v.runnableWork && v.leaseHeld now) &&
        (decide (key ∈ v.endpointKeys settings) && decide (v.age < y.age))) ≤
      (rankedIds settings now rows key).idxOf y.id := by
  set leased := rows.filter fun row => row.runnableWork && row.leaseHeld now with hleased
  set ranked := (sortedBy MigrationRow.age leased).filter fun row => key ∈ row.endpointKeys settings
    with hranked
  have hmem : ∀ b ∈ ranked, b ∈ rows := fun b hb =>
    (List.mem_filter.mp (mem_sortedBy.mp (List.mem_filter.mp hb).1)).1
  calc rows.countP (fun v => (v.runnableWork && v.leaseHeld now) &&
        (decide (key ∈ v.endpointKeys settings) && decide (v.age < y.age)))
      = leased.countP (fun v => decide (key ∈ v.endpointKeys settings) && decide (v.age < y.age)) := by
        rw [hleased, List.countP_filter]
        exact List.countP_congr fun v _ => by rw [Bool.and_comm]
    _ = (sortedBy MigrationRow.age leased).countP
          (fun v => decide (key ∈ v.endpointKeys settings) && decide (v.age < y.age)) :=
        ((sortedBy_perm MigrationRow.age leased).countP_eq _).symm
    _ = ranked.countP (fun v => v.age < y.age) := by
        rw [hranked, List.countP_filter]
        exact List.countP_congr fun v _ => by rw [Bool.and_comm]
    _ ≤ (rankedIds settings now rows key).idxOf y.id := by
        refine countP_lt_le_idxOf ((sortedBy_pairwise _ _).filter _) ?_
        intro b hb hid
        rw [eq_of_id_eq hnodup (hmem b hb) hy hid]

theorem markReturned_holds (settings : Settings) (clock : ℕ) (key : String) (migrationId : ℕ)
    (workerId : String) (row : MigrationRow) :
    (markReturned migrationId workerId row).holds settings clock key =
      row.holds settings clock key := by
  have hkeys := (markReturned_keeps migrationId workerId).endpointKeys settings row
  by_cases hmark : row.id = migrationId ∧ row.workerLeaseOwner = some workerId ∧
      row.progress = .claimed
  · have hmarked : markReturned migrationId workerId row = { row with progress := .returned } :=
      if_pos hmark
    rw [Bool.eq_iff_iff, MigrationRow.holds_iff, MigrationRow.holds_iff, hkeys, hmarked]
    simp [MigrationRow.leaseHeld, hmark.2.2]
  · rw [markReturned, if_neg hmark]

/-- A recheck that overlooks no lease returns a migration whose rank is below the limit. -/
theorem markReturned_ranked {settings : Settings} {s : State} (h : Inv settings s)
    {migration : Candidate} (workerId : String) {now : ℕ} (hnow : now ≤ s.clock)
    (hknown : Describes s.nextId s.rows migration)
    (hpass : claimedMigrationWithinEndpointLimit settings now s.rows migration = true)
    (hfair : ¬ Overlooks settings s migration) :
    Ranked settings s.clock (s.rows.map (markReturned migration.id workerId)) := by
  have hkeeps : KeepsIdentity (markReturned migration.id workerId) := markReturned_keeps _ _
  intro key y' hy' hrunning
  obtain ⟨y, hy, rfl⟩ := List.mem_map.mp hy'
  have hcount : (s.rows.map (markReturned migration.id workerId)).countP
        (fun v => v.holds settings s.clock key &&
          decide (v.age ≤ (markReturned migration.id workerId y).age)) =
      s.rows.countP (fun v => v.holds settings s.clock key && decide (v.age ≤ y.age)) := by
    rw [List.countP_map]
    exact List.countP_congr fun v _ => by
      simp only [Function.comp, markReturned_holds, hkeeps.age]
  rw [hcount]
  by_cases hmark : y.id = migration.id ∧ y.workerLeaseOwner = some workerId ∧ y.progress = .claimed
  · -- the migration whose claim returns now
    have hyHolds : y.holds settings s.clock key = true := by
      rw [← markReturned_holds settings s.clock key migration.id workerId]
      exact MigrationRow.running.holds hrunning
    obtain ⟨-, -, hkey⟩ := MigrationRow.holds_iff.mp hyHolds
    have hmigrationKey : key ∈ migration.endpointKeys settings := by
      obtain ⟨hsource, htarget⟩ := hknown.2 y hy hmark.1
      rwa [MigrationRow.endpointKeys, hsource, htarget] at hkey
    have hrank : (rankedIds settings now s.rows key).idxOf y.id < settings.maxActivePerEndpoint := by
      have := List.all_eq_true.mp hpass key hmigrationKey
      simp only [Bool.and_eq_true, decide_eq_true_eq] at this
      rw [hmark.1]
      exact this.2
    by_cases hseen : ∀ v ∈ s.rows, v.holds settings s.clock key = true → v.runnableWork = true
    · have hsplit : s.rows.countP (fun v => v.holds settings s.clock key && decide (v.age ≤ y.age)) ≤
          s.rows.countP (fun v => ((v.runnableWork && v.leaseHeld now) &&
            (decide (key ∈ v.endpointKeys settings) && decide (v.age < y.age))) ||
              decide (v.id = y.id)) := by
        apply List.countP_mono_left
        intro v hv hvCount
        obtain ⟨hvHolds, hvAge⟩ := Bool.and_eq_true_iff.mp hvCount
        obtain ⟨-, hvHeld, hvKey⟩ := MigrationRow.holds_iff.mp hvHolds
        rcases lt_or_eq_of_le (of_decide_eq_true hvAge) with hlt | heq
        · simp [hseen v hv hvHolds, MigrationRow.leaseHeld_mono hnow hvHeld, hvKey, hlt]
        · simp [eq_of_age_eq h.nodup hv hy heq]
      have hself : s.rows.countP (fun v => decide (v.id = y.id)) ≤ 1 :=
        countP_le_one_of_tag h.nodup fun v hv => of_decide_eq_true hv
      have := countP_lt_le_rank settings now h.nodup hy key
      have := countP_or_le (fun v : MigrationRow => (v.runnableWork && v.leaseHeld now) &&
            (decide (key ∈ v.endpointKeys settings) && decide (v.age < y.age)))
          (fun v => decide (v.id = y.id)) s.rows
      omega
    · push Not at hseen
      obtain ⟨v, hv, hvHolds, hvIdle⟩ := hseen
      have hfew : holders settings s key ≤ settings.maxActivePerEndpoint := by
        by_contra hmany
        exact hfair ⟨key, hmigrationKey, not_le.mp hmany, v, hv, hvHolds,
          Bool.eq_false_iff.mpr hvIdle⟩
      refine le_trans ?_ hfew
      apply List.countP_mono_left
      intro w _ hw
      exact (Bool.and_eq_true_iff.mp hw).1
  · have hsame : markReturned migration.id workerId y = y := by
      rw [markReturned, if_neg hmark]
    rw [hsame] at hrunning
    exact h.ranked key y hy hrunning

end Scheduling
end BucketReef

import BucketReef.Expiration.Attempts

/-!
# Which rows are attempted

Rows that are retried stay at the front of the next batch. A set of due rows is attempted in full
exactly when the last run finds no more than one batch of them still due. Apart from that no row is
enforced or removed without what it rests on, and the counters of a run add up.
-/

namespace BucketReef.Expiration

/-- Due rows and the worlds of the runs to come. -/
structure Schedule where
  rows : List ManagerAccessKeyMetadata
  worlds : ℕ → World
  ids : (rows.map ManagerAccessKeyMetadata.id).Nodup
  allDue : ∀ row ∈ rows, due (worlds 0).now row = true
  ordered : ∀ i, (worlds i).now ≤ (worlds (i + 1)).now

namespace Schedule

variable (fold strip : String → String)

/-- The table before the run `i`. -/
def table (schedule : Schedule) : ℕ → List ManagerAccessKeyMetadata
  | 0 => schedule.rows
  | i + 1 => runDue fold strip (schedule.worlds i) (schedule.table i)

/-- The attempts of the run `i`. -/
def attempts (schedule : Schedule) (i : ℕ) : List Attempt :=
  Expiration.attempts fold strip (schedule.worlds i) (schedule.table fold strip i)

/-- The rows still due before the run `i`. -/
def stillDue (schedule : Schedule) (i : ℕ) : List ManagerAccessKeyMetadata :=
  (schedule.table fold strip i).filter (due (schedule.worlds i).now)

/-- The runs `0` to `k` attempt every row. -/
def AllAttempted (schedule : Schedule) (k : ℕ) : Prop :=
  ∀ row ∈ schedule.rows, ∃ i ≤ k, ∃ attempt ∈ schedule.attempts fold strip i,
    attempt.rowId = row.id

variable {fold strip}

theorem now_mono (schedule : Schedule) {i j : ℕ} (hij : i ≤ j) :
    (schedule.worlds i).now ≤ (schedule.worlds j).now := by
  induction hij with
  | refl => exact le_rfl
  | step _ ih => exact ih.trans (schedule.ordered _)

/-! ## The table over the runs -/

theorem mem_filterMap_after {world : World} {rows : List ManagerAccessKeyMetadata}
    {row : ManagerAccessKeyMetadata} (h : row ∈ rows.filterMap (after fold strip world rows)) :
    ∃ before ∈ rows, after fold strip world rows before = some row ∧ row.id = before.id ∧
      row.expiresAt = before.expiresAt := by
  obtain ⟨before, hbefore, hafter⟩ := List.mem_filterMap.mp h
  refine ⟨before, hbefore, hafter, ?_⟩
  unfold after at hafter
  split_ifs at hafter with hselected
  · exact (process_sound fold strip before _).keeps row hafter
  · obtain rfl := Option.some.inj hafter
    exact ⟨rfl, rfl⟩

theorem ids_filterMap {rows : List ManagerAccessKeyMetadata}
    (hids : (rows.map ManagerAccessKeyMetadata.id).Nodup)
    (f : ManagerAccessKeyMetadata → Option ManagerAccessKeyMetadata)
    (hf : ∀ row left, f row = some left → left.id = row.id) :
    ((rows.filterMap f).map ManagerAccessKeyMetadata.id).Nodup := by
  refine hids.sublist ?_
  clear hids
  induction rows with
  | nil => simp
  | cons row rows ih =>
    rcases hrow : f row with - | left
    · rw [List.filterMap_cons_none hrow]
      exact ih.trans (List.sublist_cons_self _ _)
    · rw [List.filterMap_cons_some hrow, List.map_cons, List.map_cons, hf row left hrow]
      exact ih.cons_cons _

theorem after_id {world : World} {rows : List ManagerAccessKeyMetadata}
    {row left : ManagerAccessKeyMetadata} (h : after fold strip world rows row = some left) :
    left.id = row.id := by
  unfold after at h
  split_ifs at h
  · exact ((process_sound fold strip row _).keeps left h).1
  · rw [Option.some.inj h]

theorem table_ids (schedule : Schedule) (i : ℕ) :
    ((schedule.table fold strip i).map ManagerAccessKeyMetadata.id).Nodup := by
  induction i with
  | zero => exact schedule.ids
  | succ i ih =>
    show ((runDue fold strip (schedule.worlds i) (schedule.table fold strip i)).map _).Nodup
    rw [runDue_eq ih]
    exact ids_filterMap ih _ fun _ _ => after_id

theorem table_succ (schedule : Schedule) (i : ℕ) :
    schedule.table fold strip (i + 1) = (schedule.table fold strip i).filterMap
      (after fold strip (schedule.worlds i) (schedule.table fold strip i)) :=
  runDue_eq (schedule.table_ids i)

/-- Every row of the table is one of the first rows, with its expiry. -/
theorem mem_table (schedule : Schedule) {i : ℕ} {row : ManagerAccessKeyMetadata}
    (h : row ∈ schedule.table fold strip i) :
    ∃ first ∈ schedule.rows, row.id = first.id ∧ row.expiresAt = first.expiresAt := by
  induction i generalizing row with
  | zero => exact ⟨row, h, rfl, rfl⟩
  | succ i ih =>
    rw [schedule.table_succ] at h
    obtain ⟨before, hbefore, -, hid, hexpires⟩ := mem_filterMap_after h
    obtain ⟨first, hfirst, hid', hexpires'⟩ := ih hbefore
    exact ⟨first, hfirst, hid.trans hid', hexpires.trans hexpires'⟩

theorem expired (schedule : Schedule) {i j : ℕ} {row : ManagerAccessKeyMetadata}
    (h : row ∈ schedule.table fold strip i) :
    (row.expiresAt.any fun expiresAt => expiresAt ≤ (schedule.worlds j).now) = true := by
  obtain ⟨first, hfirst, -, hexpires⟩ := schedule.mem_table h
  have hdue := schedule.allDue first hfirst
  unfold due at hdue
  rw [Bool.and_eq_true] at hdue
  rw [hexpires]
  rcases hexp : first.expiresAt with - | time
  · rw [hexp] at hdue
    simp at hdue
  · rw [hexp] at hdue
    have hle : time ≤ (schedule.worlds 0).now := by simpa using hdue.1
    simpa using hle.trans (schedule.now_mono (Nat.zero_le j))

/-- Whether a row is still due depends on its state alone. -/
theorem due_iff (schedule : Schedule) {i j : ℕ} {row : ManagerAccessKeyMetadata}
    (h : row ∈ schedule.table fold strip i) :
    due (schedule.worlds j).now row = true ↔
      (row.expirationState.all fun state => state = .scheduled || state = .retrying) = true := by
  unfold due
  rw [schedule.expired h, Bool.true_and]

/-- The keys of the rows still due before the run `i`. -/
def left (fold strip : String → String) (schedule : Schedule) (i : ℕ) : Finset (ℤ ×ₗ ℕ) :=
  ((schedule.stillDue fold strip i).map orderKey).toFinset

theorem orderKey_inj {row row' : ManagerAccessKeyMetadata} (h : orderKey row = orderKey row') :
    row.id = row'.id :=
  congrArg (fun key : ℤ ×ₗ ℕ => (ofLex key).2) h

theorem stillDue_keys (schedule : Schedule) (i : ℕ) :
    ((schedule.stillDue fold strip i).map orderKey).Nodup := by
  have hids : ((schedule.stillDue fold strip i).map ManagerAccessKeyMetadata.id).Nodup :=
    (schedule.table_ids i).sublist (List.filter_sublist.map _)
  rw [List.nodup_map_iff_inj_on (List.Nodup.of_map _ hids)]
  exact fun row hrow row' hrow' hkey =>
    List.inj_on_of_nodup_map hids hrow hrow' (orderKey_inj hkey)

theorem mem_left {schedule : Schedule} {i : ℕ} {key : ℤ ×ₗ ℕ} :
    key ∈ schedule.left fold strip i ↔ ∃ row ∈ schedule.table fold strip i,
      due (schedule.worlds i).now row = true ∧ orderKey row = key := by
  unfold left stillDue
  rw [List.mem_toFinset, List.mem_map]
  simp only [List.mem_filter, and_assoc]

theorem card_left (schedule : Schedule) (i : ℕ) :
    (schedule.left fold strip i).card = (schedule.stillDue fold strip i).length := by
  unfold left
  rw [List.toFinset_card_of_nodup (schedule.stillDue_keys i), List.length_map]

/-- A row is in the batch exactly when its key is at the front of those left. -/
theorem mem_selectDue (schedule : Schedule) {i : ℕ} {row : ManagerAccessKeyMetadata} :
    row ∈ selectDue (schedule.worlds i).now (schedule.table fold strip i) ↔
      row ∈ schedule.stillDue fold strip i ∧
        orderKey row ∈ Lists.frontOf batchLimit (schedule.left fold strip i) :=
  Lists.mem_take_sortedBy (schedule.stillDue_keys i)

theorem treats (schedule : Schedule) :
    Lists.Treats batchLimit (schedule.left fold strip) where
  shrinks i := by
    intro key hkey
    obtain ⟨row, hrow, hdue, rfl⟩ := mem_left.mp hkey
    have hstate := (schedule.due_iff hrow).mp hdue
    rw [schedule.table_succ] at hrow
    obtain ⟨before, hbefore, hafter, hid, hexpires⟩ := mem_filterMap_after hrow
    have hsame : orderKey row = orderKey before := by
      unfold orderKey
      rw [hid, hexpires]
    refine mem_left.mpr ⟨before, hbefore, ?_, hsame.symm⟩
    unfold after at hafter
    split_ifs at hafter with hselected
    · exact (mem_of_mem_selectDue hselected).2
    · obtain rfl := Option.some.inj hafter
      exact (schedule.due_iff hbefore).mpr hstate
  keeps i := by
    intro key hkey
    obtain ⟨hkey, hnot⟩ := Finset.mem_sdiff.mp hkey
    obtain ⟨row, hrow, hdue, rfl⟩ := mem_left.mp hkey
    refine mem_left.mpr ⟨row, ?_, ?_, rfl⟩
    · rw [schedule.table_succ]
      refine List.mem_filterMap.mpr ⟨row, hrow, ?_⟩
      unfold after
      rw [if_neg]
      exact fun hselected => hnot (schedule.mem_selectDue.mp hselected).2
    · exact (schedule.due_iff hrow).mpr ((schedule.due_iff hrow).mp hdue)

/-- A row is attempted in a run exactly when its key is at the front. -/
theorem attempted_iff (schedule : Schedule) {i : ℕ} {row : ManagerAccessKeyMetadata}
    (h : row ∈ schedule.rows) :
    (∃ attempt ∈ schedule.attempts fold strip i, attempt.rowId = row.id) ↔
      orderKey row ∈ Lists.frontOf batchLimit (schedule.left fold strip i) := by
  have hkey : ∀ other ∈ schedule.table fold strip i, other.id = row.id →
      orderKey other = orderKey row := by
    intro other hother hid
    obtain ⟨first, hfirst, hid', hexpires⟩ := schedule.mem_table hother
    have heq := eq_of_id_eq schedule.ids hfirst h (hid'.symm.trans hid)
    unfold orderKey
    rw [hid, hexpires, heq]
  constructor
  · rintro ⟨attempt, hattempt, hid⟩
    obtain ⟨other, hother, rfl⟩ := List.mem_map.mp hattempt
    rw [(process_sound fold strip other _).rowId] at hid
    have hselected := schedule.mem_selectDue.mp hother
    rw [← hkey other (List.mem_of_mem_filter hselected.1) hid]
    exact hselected.2
  · intro hfront
    obtain ⟨other, hother, hdue, hsame⟩ := mem_left.mp (Lists.mem_frontOf.mp hfront).1
    refine ⟨_, List.mem_map_of_mem (schedule.mem_selectDue.mpr
      ⟨List.mem_filter.mpr ⟨hother, hdue⟩, hsame ▸ hfront⟩), ?_⟩
    rw [(process_sound fold strip other _).rowId]
    exact orderKey_inj hsame

theorem allAttempted_iff (schedule : Schedule) (k : ℕ) :
    schedule.AllAttempted fold strip k ↔
      (schedule.stillDue fold strip k).length ≤ batchLimit := by
  rw [← schedule.card_left, ← schedule.treats.all_treated_iff k]
  unfold AllAttempted
  constructor
  · intro h key hkey
    obtain ⟨row, hrow, -, rfl⟩ := mem_left.mp hkey
    obtain ⟨i, hi, hattempt⟩ := h row hrow
    exact ⟨i, hi, (schedule.attempted_iff hrow).mp hattempt⟩
  · intro h row hrow
    obtain ⟨i, hi, hfront⟩ := h (orderKey row)
      (mem_left.mpr ⟨row, hrow, schedule.allDue row hrow, rfl⟩)
    exact ⟨i, hi, (schedule.attempted_iff hrow).mpr hfront⟩

/-! ## What enforcing and removing rest on -/

/-- A row marked as enforced was attempted, and its key was last seen inactive. -/
theorem enforced_rests_on (schedule : Schedule) {k : ℕ} {row : ManagerAccessKeyMetadata}
    (h : row ∈ schedule.table fold strip k) (henforced : row.expirationState = some .enforced) :
    ∃ i < k, ∃ before ∈ schedule.table fold strip i, ∃ attempt ∈ schedule.attempts fold strip i,
      before.id = row.id ∧ attempt.rowId = row.id ∧ attempt.outcome = .enforced ∧
        LastSeen attempt.observed (Observation.ReportsInactive fold strip before) := by
  induction k with
  | zero =>
    have hdue := (schedule.due_iff h).mp (schedule.allDue row h)
    rw [henforced] at hdue
    simp at hdue
  | succ k ih =>
    rw [schedule.table_succ] at h
    obtain ⟨before, hbefore, hafter, hid, -⟩ := mem_filterMap_after h
    unfold after at hafter
    split_ifs at hafter with hselected
    · have hsound := process_sound fold strip before
        ((schedule.worlds k).meets before.id)
      have houtcome := hsound.marked row hafter henforced
      exact ⟨k, Nat.lt_succ_self k, before, hbefore, _, List.mem_map_of_mem hselected, hid.symm,
        hsound.rowId.trans hid.symm, houtcome, hsound.enforced houtcome⟩
    · obtain rfl := Option.some.inj hafter
      obtain ⟨i, hi, hrest⟩ := ih hbefore
      exact ⟨i, Nat.lt_succ_of_lt hi, hrest⟩

/-- A row that is no longer in the table was attempted, and its key or owner was last seen absent. -/
theorem removed_rests_on (schedule : Schedule) {k : ℕ} {row : ManagerAccessKeyMetadata}
    (h : row ∈ schedule.rows)
    (hremoved : ∀ left ∈ schedule.table fold strip k, left.id ≠ row.id) :
    ∃ i < k, ∃ before ∈ schedule.table fold strip i, ∃ attempt ∈ schedule.attempts fold strip i,
      before.id = row.id ∧ attempt.rowId = row.id ∧ attempt.outcome = .missing ∧
        LastSeen attempt.observed (Observation.ReportsAbsent before) := by
  induction k with
  | zero => exact absurd rfl (hremoved row h)
  | succ k ih =>
    by_cases hpresent : ∀ left ∈ schedule.table fold strip k, left.id ≠ row.id
    · obtain ⟨i, hi, hrest⟩ := ih hpresent
      exact ⟨i, Nat.lt_succ_of_lt hi, hrest⟩
    · push_neg at hpresent
      obtain ⟨before, hbefore, hid⟩ := hpresent
      have hnone : after fold strip (schedule.worlds k) (schedule.table fold strip k) before =
          none := by
        rcases hafter : after fold strip (schedule.worlds k) (schedule.table fold strip k) before
          with - | left
        · rfl
        · refine absurd ((after_id hafter).trans hid) (hremoved left ?_)
          rw [schedule.table_succ]
          exact List.mem_filterMap.mpr ⟨before, hbefore, hafter⟩
      unfold after at hnone
      split_ifs at hnone with hselected
      have hsound := process_sound fold strip before
        ((schedule.worlds k).meets before.id)
      have houtcome := hsound.removed hnone
      exact ⟨k, Nat.lt_succ_self k, before, hbefore, _, List.mem_map_of_mem hselected, hid,
        hsound.rowId.trans hid, houtcome, hsound.missing houtcome⟩

end Schedule

/-- What holds of the first `k` runs whatever the provider answers: no row is enforced or removed
without what it rests on, and the counters of every run add up. -/
structure Schedule.Safe (fold strip : String → String) (schedule : Schedule) (k : ℕ) : Prop where
  enforced : ∀ row ∈ schedule.table fold strip k, row.expirationState = some .enforced →
    ∃ i < k, ∃ before ∈ schedule.table fold strip i, ∃ attempt ∈ schedule.attempts fold strip i,
      before.id = row.id ∧ attempt.rowId = row.id ∧ attempt.outcome = .enforced ∧
        LastSeen attempt.observed (Observation.ReportsInactive fold strip before)
  removed : ∀ row ∈ schedule.rows, (∀ left ∈ schedule.table fold strip k, left.id ≠ row.id) →
    ∃ i < k, ∃ before ∈ schedule.table fold strip i, ∃ attempt ∈ schedule.attempts fold strip i,
      before.id = row.id ∧ attempt.rowId = row.id ∧ attempt.outcome = .missing ∧
        LastSeen attempt.observed (Observation.ReportsAbsent before)
  counters : ∀ i < k, ∀ counts,
    counts = runCounts fold strip (schedule.worlds i) (schedule.table fold strip i) →
      counts.enforced + counts.retried + counts.blocked + counts.missing = counts.processed ∧
        counts.processed = (schedule.attempts fold strip i).length

/-- The first `k + 1` runs are safe, and they attempt every row exactly when the last of them finds
at most one batch of rows still due. -/
theorem due_rows_attempted_iff (fold strip : String → String) (schedule : Schedule) (k : ℕ) :
    schedule.Safe fold strip (k + 1) ∧
      (schedule.AllAttempted fold strip k ↔
        (schedule.stillDue fold strip k).length ≤ batchLimit) :=
  ⟨⟨fun _ hrow henforced => schedule.enforced_rests_on hrow henforced,
    fun _ hrow hremoved => schedule.removed_rests_on hrow hremoved,
    fun i _ counts hcounts =>
      hcounts ▸ runCounts_sum (schedule.worlds i) (schedule.table fold strip i)⟩,
    schedule.allAttempted_iff k⟩

/-! ## A provider that is out of order -/

/-- A row of an RGW user, due at time 0. -/
def dueUserRow (id : ℕ) : ManagerAccessKeyMetadata where
  id := id
  accountId := none
  s3UserId := some 1
  principalName := none
  accessKeyId := "AK" ++ toString id
  expiresAt := some 0
  expirationState := some .scheduled
  expirationEnforcedAt := none
  expirationLastAttemptAt := none
  expirationLastError := none

/-- Listing the keys of the user fails. -/
def unreachableProvider : Encounter where
  now := 0
  account := none
  s3User := some ⟨true, "UI", false⟩
  listAccessKeys := .error "unreachable"
  updateAccessKeyStatus := .error "unreachable"
  listAccessKeysAgain := .error "unreachable"
  listKeys := .error "unreachable"
  setAccessKeyStatus := .error "unreachable"
  listKeysAgain := .error "unreachable"
  recordAction := .ok ()

def outage : World := ⟨0, fun _ => unreachableProvider⟩

/-- Due rows and a provider that fails in every run. -/
def outageSchedule (count : ℕ) : Schedule where
  rows := (List.range count).map dueUserRow
  worlds := fun _ => outage
  ids := by
    rw [List.map_map]
    exact (List.map_id (List.range count)).symm ▸ List.nodup_range
  allDue row hrow := by
    obtain ⟨id, -, rfl⟩ := List.mem_map.mp hrow
    rfl
  ordered _ := le_rfl

theorem outageSchedule_length (count : ℕ) : (outageSchedule count).rows.length = count := by
  simp [outageSchedule]

theorem processS3User_unreachable (strip : String → String) {row : ManagerAccessKeyMetadata}
    (hkey : row.accessKeyId ≠ "UI") :
    processS3User strip row unreachableProvider = Observed.fail (.transient "unreachable") := by
  show (if row.accessKeyId = "UI" then _ else _) = _
  rw [if_neg hkey]
  rfl

/-- In an outage no row leaves the due ones. -/
theorem outage_after {rows : List ManagerAccessKeyMetadata} {row : ManagerAccessKeyMetadata}
    (fold strip : String → String) (haccount : row.accountId = none)
    (huser : row.s3UserId = some 1) (hkey : row.accessKeyId ≠ "UI") (hdue : due 0 row = true) :
    ∃ left, after fold strip outage rows row = some left ∧ due 0 left = true := by
  unfold after
  split_ifs
  · have hscope : processS3User strip { row with
        expirationLastAttemptAt := some 0, expirationLastError := none } unreachableProvider =
          Observed.fail (.transient "unreachable") := processS3User_unreachable strip hkey
    refine ⟨markFailure { row with
      expirationLastAttemptAt := some 0, expirationLastError := none } 0 "unreachable"
        .retrying, ?_, ?_⟩
    · simp only [outage, process, processScope, unreachableProvider, haccount, huser] at hscope ⊢
      rw [hscope]
      rfl
    · unfold due at hdue ⊢
      rw [Bool.and_eq_true] at hdue
      simp only [markFailure, hdue.1, Bool.true_and]
      rfl
  · exact ⟨_, rfl, hdue⟩

theorem dueUserRow_key (id : ℕ) : (dueUserRow id).accessKeyId ≠ "UI" := by
  intro hkey
  have hfirst := congrArg (fun key : String => key.toList.head?) hkey
  simp [dueUserRow, String.toList_append] at hfirst

theorem outage_stillDue (fold strip : String → String) (count : ℕ) :
    ((outageSchedule count).stillDue fold strip 1).length = count := by
  unfold Schedule.stillDue
  rw [(outageSchedule count).table_succ]
  show (((outageSchedule count).rows.filterMap
    (after fold strip outage (outageSchedule count).rows)).filter (due 0)).length = _
  rw [← List.countP_eq_length_filter, List.countP_filterMap, List.countP_eq_length.mpr,
    outageSchedule_length]
  intro row hrow
  obtain ⟨id, -, rfl⟩ := List.mem_map.mp hrow
  obtain ⟨left, hafter, hdue⟩ := outage_after fold strip rfl rfl (dueUserRow_key id) rfl
  rw [hafter]
  exact hdue

/-- With 501 rows and an outage, two runs of 500 leave a row that was never attempted. -/
theorem not_due_rows_attempted :
    ¬∀ (fold strip : String → String) (schedule : Schedule) (k : ℕ),
      schedule.rows.length ≤ batchLimit * (k + 1) → schedule.AllAttempted fold strip k := by
  intro h
  have hfits : (outageSchedule 501).rows.length ≤ batchLimit * (1 + 1) := by
    rw [outageSchedule_length]
    unfold batchLimit
    omega
  have hdue := ((outageSchedule 501).allAttempted_iff 1).mp (h id id _ 1 hfits)
  rw [outage_stillDue] at hdue
  unfold batchLimit at hdue
  omega

end BucketReef.Expiration

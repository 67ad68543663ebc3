import BucketReef.Expiration.AccessKeys

/-!
# What one attempt and one run do

An attempt that enforces has just been told that the key is inactive, and one that removes has just
seen that the key or its owner is absent. A run changes the rows of its batch and no others.
-/

namespace BucketReef.Expiration

open Observed

variable {fold strip : String → String}

/-- The provider reports the key of the row as inactive. -/
def Observation.ReportsInactive (fold strip : String → String) (row : ManagerAccessKeyMetadata) :
    Observation → Prop
  | .iamKeys keys => ∃ key, findIamAccessKey keys row.accessKeyId = some key ∧
      iamKeyIsInactive fold key = true
  | .userKeys keys => ∃ key, (findUserAccessKey keys row.accessKeyId = some key ∨
      findUserAccessKey keys (strip row.accessKeyId) = some key) ∧ key.isActive = false
  | _ => False

/-- The key of the row or its owner is absent. -/
def Observation.ReportsAbsent (row : ManagerAccessKeyMetadata) : Observation → Prop
  | .accountAbsent => row.accountId.isSome = true
  | .userAbsent => row.s3UserId.isSome = true
  | .iamKeys keys => findIamAccessKey keys row.accessKeyId = none
  | .userKeys keys => findUserAccessKey keys row.accessKeyId = none

/-- The last thing that was seen. -/
def LastSeen (seen : List Observation) (p : Observation → Prop) : Prop :=
  ∃ observation, seen.getLast? = some observation ∧ p observation

theorem lastSeen_singleton {p : Observation → Prop} {observation : Observation}
    (h : p observation) : LastSeen [observation] p :=
  ⟨observation, rfl, h⟩

theorem LastSeen.cons {p : Observation → Prop} {seen : List Observation} (h : LastSeen seen p)
    (observation : Observation) : LastSeen (observation :: seen) p := by
  obtain ⟨last, hlast, hp⟩ := h
  refine ⟨last, ?_, hp⟩
  rw [List.getLast?_cons, hlast]
  rfl

theorem ensureIamKeyInactive_spec (fold strip : String → String) (e : Encounter)
    (row : ManagerAccessKeyMetadata) :
    ∀ seen found, ensureIamKeyInactive fold e row.accessKeyId = (seen, .ok found) →
      LastSeen seen (if found = true then Observation.ReportsInactive fold strip row
        else Observation.ReportsAbsent row) := by
  intro seen found h
  unfold ensureIamKeyInactive at h
  rcases hlist : e.listAccessKeys with text | keys <;> simp only [hlist] at h
  · simp [fail] at h
  · rcases hfind : findIamAccessKey keys row.accessKeyId with - | remote <;>
      simp only [hfind] at h
    · obtain ⟨rfl, rfl⟩ : _ ∧ false = found := by simpa [seeing, value] using h
      exact lastSeen_singleton hfind
    · by_cases hinactive : iamKeyIsInactive fold remote = true
      · rw [if_pos hinactive] at h
        obtain ⟨rfl, rfl⟩ : _ ∧ true = found := by simpa [seeing, value] using h
        exact lastSeen_singleton ⟨remote, hfind, hinactive⟩
      · rw [if_neg hinactive] at h
        rcases hupdate : e.updateAccessKeyStatus with text | done <;> simp only [hupdate] at h
        · simp [seeing, fail] at h
        · rcases hagain : e.listAccessKeysAgain with text | keys' <;> simp only [hagain] at h
          · simp [seeing, fail] at h
          · rcases hfind' : findIamAccessKey keys' row.accessKeyId with - | remote' <;>
              simp only [hfind'] at h
            · obtain ⟨rfl, rfl⟩ : _ ∧ false = found := by simpa [seeing, value] using h
              exact (lastSeen_singleton hfind').cons _
            · by_cases hinactive' : iamKeyIsInactive fold remote' = true
              · rw [if_pos hinactive'] at h
                obtain ⟨rfl, rfl⟩ : _ ∧ true = found := by simpa [seeing, value] using h
                exact LastSeen.cons (lastSeen_singleton ⟨remote', hfind', hinactive'⟩) _
              · rw [if_neg hinactive'] at h
                simp [seeing, fail] at h

/-- What the way a row is settled was seen to rest on. -/
def Settled.RestsOn (fold strip : String → String) (row : ManagerAccessKeyMetadata) :
    Settled → Observation → Prop
  | .enforced => Observation.ReportsInactive fold strip row
  | .missing => Observation.ReportsAbsent row

theorem processIam_spec (e : Encounter) {row : ManagerAccessKeyMetadata}
    (haccount : row.accountId.isSome = true) {seen : List Observation} {settled : Settled}
    (h : processIam fold row e = (seen, .ok settled)) :
    LastSeen seen (settled.RestsOn fold strip row) := by
  unfold processIam at h
  rcases hacc : e.account with - | account <;> simp only [hacc] at h
  · obtain ⟨rfl, rfl⟩ : _ ∧ Settled.missing = settled := by simpa [seeing, value] using h
    exact lastSeen_singleton haccount
  · rcases hvalid : validatedIamPrincipal row account with failure | principal <;>
      simp only [hvalid] at h
    · simp [fail] at h
    · split_ifs at h with hcredentials
      · simp [fail] at h
      · have hspec := ensureIamKeyInactive_spec fold strip e row
        rcases hensure : ensureIamKeyInactive fold e row.accessKeyId with
          ⟨seen', failure | (- | -)⟩ <;> simp only [hensure] at h
        · simp at h
        · obtain ⟨rfl, rfl⟩ : seen' = seen ∧ Settled.missing = settled := by simpa using h
          exact hspec _ _ hensure
        · obtain ⟨rfl, rfl⟩ : seen' = seen ∧ Settled.enforced = settled := by simpa using h
          exact hspec _ _ hensure

theorem setKeyStatus_spec (e : Encounter) (s3User : S3User) (accessKey : String)
    {seen : List Observation} {key : S3UserAccessKey}
    (h : setKeyStatus strip e s3User accessKey = (seen, .ok key)) :
    ∃ keys, seen = [.userKeys keys] ∧ findUserAccessKey keys (strip accessKey) = some key := by
  unfold setKeyStatus at h
  simp only at h
  split_ifs at h
  · simp [fail] at h
  · simp [fail] at h
  · rcases hset : e.setAccessKeyStatus with text | done <;> simp only [hset] at h
    · simp [fail] at h
    · rcases hlist : e.listKeysAgain with text | keys <;> simp only [hlist] at h
      · simp [fail] at h
      · rcases hfind : findUserAccessKey keys (strip accessKey) with - | found <;>
          simp only [hfind] at h
        · simp [seeing, fail] at h
        · obtain ⟨rfl, rfl⟩ : [Observation.userKeys keys] = seen ∧ found = key := by
            simpa [seeing, value] using h
          exact ⟨keys, rfl, hfind⟩

theorem processS3User_spec (e : Encounter) {row : ManagerAccessKeyMetadata}
    (huser : row.s3UserId.isSome = true) {seen : List Observation} {settled : Settled}
    (h : processS3User strip row e = (seen, .ok settled)) :
    LastSeen seen (settled.RestsOn fold strip row) := by
  unfold processS3User at h
  rcases hrecord : e.s3User with - | s3User <;> simp only [hrecord] at h
  · obtain ⟨rfl, rfl⟩ : _ ∧ Settled.missing = settled := by simpa [seeing, value] using h
    exact lastSeen_singleton huser
  · split_ifs at h
    · simp [fail] at h
    · simp [fail] at h
    · simp [fail] at h
    · rcases hlist : e.listKeys with text | keys <;> simp only [hlist] at h
      · simp [fail] at h
      · rcases hfind : findUserAccessKey keys row.accessKeyId with - | remote <;>
          simp only [hfind] at h
        · obtain ⟨rfl, rfl⟩ : _ ∧ Settled.missing = settled := by simpa [seeing, value] using h
          exact lastSeen_singleton hfind
        · by_cases hactive : remote.isActive = true
          · rw [if_pos hactive] at h
            rcases hset : setKeyStatus strip e s3User row.accessKeyId with
              ⟨seen', failure | remote'⟩ <;> simp only [hset] at h
            · simp [seeing] at h
            · obtain ⟨keys', rfl, hfind'⟩ := setKeyStatus_spec e s3User row.accessKeyId hset
              split_ifs at h with hactive'
              · simp [seeing] at h
              · obtain ⟨rfl, rfl⟩ : _ ∧ Settled.enforced = settled := by simpa [seeing] using h
                exact LastSeen.cons (lastSeen_singleton
                  ⟨remote', .inr hfind', Bool.eq_false_iff.mpr hactive'⟩) _
          · rw [if_neg hactive] at h
            obtain ⟨rfl, rfl⟩ : _ ∧ Settled.enforced = settled := by
              simpa [seeing, value] using h
            exact lastSeen_singleton ⟨remote, .inl hfind, Bool.eq_false_iff.mpr hactive⟩

theorem processScope_spec (e : Encounter) {row : ManagerAccessKeyMetadata}
    {seen : List Observation} {settled : Settled}
    (h : processScope fold strip row e = (seen, .ok settled)) :
    LastSeen seen (settled.RestsOn fold strip row) := by
  unfold processScope at h
  split_ifs at h with haccount huser
  · exact processIam_spec e haccount h
  · exact processS3User_spec e huser h
  · simp [fail] at h

/-- What an attempt may do with its row. -/
structure Attempt.Sound (fold strip : String → String) (row : ManagerAccessKeyMetadata)
    (attempt : Attempt) : Prop where
  rowId : attempt.rowId = row.id
  keeps : ∀ left ∈ attempt.left, left.id = row.id ∧ left.expiresAt = row.expiresAt
  enforced : attempt.outcome = .enforced →
    LastSeen attempt.observed (Observation.ReportsInactive fold strip row)
  missing : attempt.outcome = .missing →
    LastSeen attempt.observed (Observation.ReportsAbsent row)
  marked : ∀ left ∈ attempt.left, left.expirationState = some .enforced →
    attempt.outcome = .enforced
  removed : attempt.left = none → attempt.outcome = .missing

theorem process_sound (fold strip : String → String) (row : ManagerAccessKeyMetadata)
    (e : Encounter) :
    (process fold strip row e).Sound fold strip row := by
  unfold process
  simp only
  have hspec : ∀ seen settled, processScope fold strip
      { row with expirationLastAttemptAt := some e.now, expirationLastError := none } e =
        (seen, .ok settled) → LastSeen seen (settled.RestsOn fold strip row) :=
    fun seen settled h => processScope_spec e h
  rcases hscope : processScope fold strip
      { row with expirationLastAttemptAt := some e.now, expirationLastError := none } e with
    ⟨seen, (text | text) | (- | -)⟩
  · exact ⟨rfl, by simp [markFailure], by simp, by simp, by simp [markFailure], by simp⟩
  · exact ⟨rfl, by simp [markFailure], by simp, by simp, by simp [markFailure], by simp⟩
  · have hseen := hspec _ _ hscope
    rcases haudit : e.recordAction with text | done
    · exact ⟨rfl, by simp [markFailure, markEnforced], by simp, by simp,
        by simp [markFailure], by simp⟩
    · exact ⟨rfl, by simp [markEnforced], fun _ => hseen, by simp, by simp, by simp⟩
  · have hseen := hspec _ _ hscope
    exact ⟨rfl, by simp, by simp, fun _ => hseen, by simp, by simp⟩

/-! ## Counters -/

theorem count_foldl (outcomes : List Attempt) (counts : AccessKeyExpirationRunResult)
    (h : counts.enforced + counts.retried + counts.blocked + counts.missing = counts.processed) :
    let result := outcomes.foldl (fun counts attempt => counts.count attempt.outcome) counts
    result.enforced + result.retried + result.blocked + result.missing = result.processed ∧
      result.processed = counts.processed + outcomes.length := by
  induction outcomes generalizing counts with
  | nil => exact ⟨h, rfl⟩
  | cons attempt outcomes ih =>
    have hstep : (counts.count attempt.outcome).enforced + (counts.count attempt.outcome).retried +
        (counts.count attempt.outcome).blocked + (counts.count attempt.outcome).missing =
          (counts.count attempt.outcome).processed ∧
        (counts.count attempt.outcome).processed = counts.processed + 1 := by
      refine ⟨?_, ?_⟩
      · unfold AccessKeyExpirationRunResult.count
        cases attempt.outcome <;> dsimp only <;> omega
      · unfold AccessKeyExpirationRunResult.count
        cases attempt.outcome <;> rfl
    obtain ⟨hsum, hlength⟩ := ih (counts.count attempt.outcome) hstep.1
    refine ⟨hsum, ?_⟩
    show (outcomes.foldl _ (counts.count attempt.outcome)).processed = _
    rw [hlength, hstep.2, List.length_cons]
    omega

/-- The counters of a run sum to the rows it processed, which are its attempts. -/
theorem runCounts_sum (world : World) (rows : List ManagerAccessKeyMetadata) :
    let result := runCounts fold strip world rows
    result.enforced + result.retried + result.blocked + result.missing = result.processed ∧
      result.processed = (attempts fold strip world rows).length := by
  obtain ⟨hsum, hlength⟩ := count_foldl (attempts fold strip world rows) .noneProcessed rfl
  exact ⟨hsum, hlength.trans (Nat.zero_add _)⟩

/-! ## One run -/

/-- What a run makes of one row. -/
def after (fold strip : String → String) (world : World) (rows : List ManagerAccessKeyMetadata)
    (row : ManagerAccessKeyMetadata) : Option ManagerAccessKeyMetadata :=
  if row ∈ selectDue world.now rows then (process fold strip row (world.meets row.id)).left
  else some row

theorem foldl_store (settled : List Attempt) (rows : List ManagerAccessKeyMetadata)
    (hids : (settled.map Attempt.rowId).Nodup)
    (hleft : ∀ attempt ∈ settled, ∀ left ∈ attempt.left, left.id = attempt.rowId) :
    settled.foldl store rows = rows.filterMap fun row =>
      (settled.find? fun attempt => attempt.rowId = row.id).elim (some row) Attempt.left := by
  induction settled generalizing rows with
  | nil => simp
  | cons attempt settled ih =>
    obtain ⟨hnot, hids⟩ := List.nodup_cons.mp hids
    rw [List.foldl_cons, ih _ hids fun other hother => hleft other (List.mem_cons_of_mem _ hother)]
    unfold store
    rw [List.filterMap_filterMap]
    refine List.filterMap_congr fun row _ => ?_
    by_cases hrow : row.id = attempt.rowId
    · rw [if_pos hrow, List.find?_cons_of_pos (by simp [hrow])]
      rcases hleft' : attempt.left with - | left
      · simp [hleft']
      · -- no later attempt is about this row
        have hid := hleft attempt (by simp) left hleft'
        have hnone : (settled.find? fun other => other.rowId = left.id) = none := by
          rw [List.find?_eq_none]
          intro other hother heq
          refine hnot (List.mem_map.mpr ⟨other, hother, ?_⟩)
          rw [← hid]
          simpa using heq
        simp [hleft', hnone]
    · rw [if_neg hrow, List.find?_cons_of_neg (by simpa [eq_comm] using hrow)]
      rfl

theorem mem_of_mem_selectDue {now : ℤ} {rows : List ManagerAccessKeyMetadata}
    {row : ManagerAccessKeyMetadata} (h : row ∈ selectDue now rows) :
    row ∈ rows ∧ due now row = true :=
  List.mem_filter.mp (Lists.mem_sortedBy.mp (List.mem_of_mem_take h))

theorem eq_of_id_eq {rows : List ManagerAccessKeyMetadata}
    (hids : (rows.map ManagerAccessKeyMetadata.id).Nodup) {row row' : ManagerAccessKeyMetadata}
    (h : row ∈ rows) (h' : row' ∈ rows) (hid : row.id = row'.id) : row = row' :=
  List.inj_on_of_nodup_map hids h h' hid

theorem selectDue_ids {now : ℤ} {rows : List ManagerAccessKeyMetadata}
    (hids : (rows.map ManagerAccessKeyMetadata.id).Nodup) :
    ((selectDue now rows).map ManagerAccessKeyMetadata.id).Nodup := by
  have hsorted : ((Lists.sortedBy orderKey (rows.filter (due now))).map
      ManagerAccessKeyMetadata.id).Nodup :=
    ((Lists.sortedBy_perm _ _).map _).nodup_iff.mpr
      (hids.sublist (List.filter_sublist.map _))
  exact hsorted.sublist ((List.take_sublist _ _).map _)

theorem runDue_eq {world : World} {rows : List ManagerAccessKeyMetadata}
    (hids : (rows.map ManagerAccessKeyMetadata.id).Nodup) :
    runDue fold strip world rows = rows.filterMap (after fold strip world rows) := by
  unfold runDue
  have hrow_ids : ((attempts fold strip world rows).map Attempt.rowId).Nodup := by
    unfold attempts
    rw [List.map_map]
    have hsame : ∀ row, (Attempt.rowId ∘ fun row : ManagerAccessKeyMetadata =>
        process fold strip row (world.meets row.id)) row = row.id :=
      fun row => (process_sound fold strip row _).rowId
    rw [List.map_congr_left fun row _ => hsame row]
    exact selectDue_ids hids
  rw [foldl_store _ _ hrow_ids]
  · refine List.filterMap_congr fun row hrow => ?_
    unfold after attempts
    rw [List.find?_map]
    by_cases hselected : row ∈ selectDue world.now rows
    · rw [if_pos hselected]
      have hfind : (selectDue world.now rows).find? ((fun attempt : Attempt =>
          decide (attempt.rowId = row.id)) ∘ fun row =>
            process fold strip row (world.meets row.id)) = some row := by
        rw [List.find?_eq_some_iff_append]
        obtain ⟨before, later, hsplit⟩ := List.append_of_mem hselected
        refine ⟨by simp [(process_sound fold strip row _).rowId], before, later, hsplit, ?_⟩
        intro other hother
        have hne : other.id ≠ row.id := by
          have hnodup : ((selectDue world.now rows).map ManagerAccessKeyMetadata.id).Nodup :=
            selectDue_ids hids
          rw [hsplit, List.map_append, List.map_cons] at hnodup
          intro heq
          refine (List.disjoint_of_nodup_append hnodup) (List.mem_map_of_mem hother) ?_
          rw [heq]
          exact List.mem_cons_self
        simpa [(process_sound fold strip other _).rowId] using hne
      rw [hfind]
      rfl
    · rw [if_neg hselected]
      have hfind : (selectDue world.now rows).find? ((fun attempt : Attempt =>
          decide (attempt.rowId = row.id)) ∘ fun row =>
            process fold strip row (world.meets row.id)) = none := by
        rw [List.find?_eq_none]
        intro other hother hid
        have hid : other.id = row.id := by simpa [(process_sound fold strip other _).rowId] using hid
        exact hselected (eq_of_id_eq hids (mem_of_mem_selectDue hother).1 hrow hid ▸ hother)
      rw [hfind]
      rfl
  · intro attempt hattempt left hleft
    obtain ⟨row, -, rfl⟩ := List.mem_map.mp hattempt
    rw [((process_sound fold strip row _).keeps left hleft).1, (process_sound fold strip row _).rowId]

end BucketReef.Expiration

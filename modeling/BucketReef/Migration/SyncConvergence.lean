import BucketReef.Migration.SyncInvariant
import Mathlib.Data.List.Sort

/-!
# The synchronization converges

A run that ends has recorded the whole diff of the buckets it began with: every object of the source
matches an object of the target, the other objects of the target are gone, and another run finds
nothing to do. Every run can be completed.
-/

namespace BucketReef
namespace CurrentObjects

open Versions Transitions Lists

variable {kind : ContentKind} {target : List (StoredObject kind)} {object other : StoredObject kind}

variable [DecidableEq kind.Content] {options : SyncOptions}
  {source initial : List (StoredObject kind)} {s s' : SyncRunner kind}
  {recorded : List BucketDiffEntry} {entry : BucketDiffEntry}

/-! ## The end of a run -/

variable (options) in
/-- What a finished run has done, key by key. -/
structure Synced (source initial : List (StoredObject kind)) (s : SyncRunner kind) : Prop where
  increasing : Increasing s.target
  counts : ∀ action, s.count action = (queued options action (bucketDiff source initial)).length
  untouched : ∀ object, object.key ∉ queued options .copy (bucketDiff source initial) →
    object.key ∉ queued options .delete (bucketDiff source initial) →
      (object ∈ s.target ↔ object ∈ initial)
  replaced : ∀ key ∈ queued options .copy (bucketDiff source initial),
    ∃ object ∈ s.target, object.key = key ∧ isCopy source object = true
  removed : ∀ key ∈ queued options .delete (bucketDiff source initial),
    ∀ object ∈ s.target, object.key ≠ key
  diff : s.diff = (bucketDiff source initial).foldl recordDiffEntry {}

theorem Inv.synced (h : Inv options source initial recorded s) (hfinished : s.phase = .finished) :
    Synced options source initial s := by
  obtain ⟨hexhausted, hcopies, hdeletes⟩ := h.finished hfinished
  unfold SyncRunner.exhausted at hexhausted
  simp only [Bool.and_eq_true, List.isEmpty_iff] at hexhausted
  obtain ⟨⟨hsources, hbuffered⟩, hended⟩ := hexhausted
  have hall : bucketDiff source initial = recorded := by
    rw [h.merged, hsources, hbuffered, SyncRunner.unread, if_pos hended, bucketDiff]
    exact List.append_nil recorded
  have hbatch : ∀ action, s.batch action = [] := by
    intro action
    cases action with
    | copy => exact hcopies
    | delete => exact hdeletes
  have hnone : ∀ action key, key ∉ s.outstanding action := by
    intro action key
    unfold SyncRunner.outstanding
    rw [hfinished]
    show key ∉ s.batch action
    rw [hbatch]
    exact List.not_mem_nil
  rw [← hall] at h
  exact {
    increasing := h.increasing
    counts := by
      intro action
      rw [h.counts action, hbatch]
      rfl
    untouched := h.untouched
    replaced := fun key hin => h.replaced key hin (hnone .copy key)
    removed := fun key hin => h.removed key hin (hnone .delete key)
    diff := h.diff }

omit [DecidableEq kind.Content] in
theorem queued_copy (hsource : Increasing source) (hinitial : Increasing initial) :
    queued options .copy (bucketDiff source initial) =
      (source.filter (needsCopy initial)).map StoredObject.key :=
  copies_bucketDiff hsource hinitial

omit [DecidableEq kind.Content] in
theorem queued_delete (hallow : options.allowDelete = true) (hsource : Increasing source)
    (hinitial : Increasing initial) :
    queued options .delete (bucketDiff source initial) =
      (initial.filter fun target => !hasKey source target.key).map StoredObject.key := by
  unfold queued required
  rw [hallow]
  exact deletes_bucketDiff hsource hinitial

omit [DecidableEq kind.Content] in
/-- Objects of one content are equal for the diff. -/
theorem matching_of_content (hcontent : object.content = other.content) :
    matching object other = true := by
  unfold matching compareContents
  split
  · rename_i digest digest' hdigest hdigest'
    have h := object.tagged digest hdigest
    have h' := other.tagged digest' hdigest'
    rw [h, h', hcontent]
    exact decide_eq_true rfl
  · show decide (kind.size object.content = kind.size other.content) = true
    rw [hcontent]
    exact decide_eq_true rfl

omit [DecidableEq kind.Content] in
theorem needsCopy_eq_false : needsCopy target object = false ↔
    hasKey target object.key = true ∧
      ∀ other ∈ target, other.key = object.key → matching object other = true := by
  unfold needsCopy differsIn
  rw [Bool.or_eq_false_iff, Bool.not_eq_false', List.any_eq_false]
  simp

omit [DecidableEq kind.Content] in
/-- The object is the only one of its key in the source. -/
theorem needsCopy_of_queued (hsource : Increasing source) (hinitial : Increasing initial)
    (hobject : object ∈ source)
    (h : object.key ∈ queued options .copy (bucketDiff source initial)) :
    needsCopy initial object = true := by
  rw [queued_copy hsource hinitial] at h
  obtain ⟨original, horiginal, hkey⟩ := List.mem_map.mp h
  obtain ⟨hin, hneeds⟩ := List.mem_filter.mp horiginal
  rw [← hsource.eq_of_key hin hobject hkey]
  exact hneeds

theorem Synced.matching (h : Synced options source initial s) (hsource : Increasing source)
    (hinitial : Increasing initial) (hallow : options.allowDelete = true) (hobject : object ∈ source) :
    ∃ other ∈ s.target, other.key = object.key ∧ matching object other = true := by
  cases hneeds : needsCopy initial object with
  | true =>
    have hqueued : object.key ∈ queued options .copy (bucketDiff source initial) := by
      rw [queued_copy hsource hinitial]
      exact List.mem_map_of_mem (List.mem_filter.mpr ⟨hobject, hneeds⟩)
    obtain ⟨other, hother, hkey, hcopy⟩ := h.replaced object.key hqueued
    unfold isCopy at hcopy
    rw [List.any_eq_true] at hcopy
    obtain ⟨original, horiginal, hsame⟩ := hcopy
    rw [Bool.and_eq_true, decide_eq_true_eq, decide_eq_true_eq] at hsame
    rw [hsource.eq_of_key horiginal hobject (hsame.1.trans hkey)] at hsame
    exact ⟨other, hother, hkey, matching_of_content hsame.2⟩
  | false =>
    obtain ⟨hhas, hmatch⟩ := needsCopy_eq_false.mp hneeds
    obtain ⟨other, hother, hkey⟩ := hasKey_iff.mp hhas
    refine ⟨other, ?_, hkey, hmatch other hother hkey⟩
    apply (h.untouched other ?_ ?_).mpr hother
    · intro hqueued
      have := needsCopy_of_queued hsource hinitial hobject (hkey ▸ hqueued)
      rw [hneeds] at this
      cases this
    · intro hqueued
      rw [queued_delete hallow hsource hinitial] at hqueued
      obtain ⟨target, htarget, hkey'⟩ := List.mem_map.mp hqueued
      have hnone := (List.mem_filter.mp htarget).2
      rw [hkey', hkey, hasKey_of_mem hobject] at hnone
      cases hnone

theorem Synced.hasKey_source (h : Synced options source initial s) (hsource : Increasing source)
    (hinitial : Increasing initial) (hallow : options.allowDelete = true) (hobject : object ∈ s.target) :
    hasKey source object.key = true := by
  by_contra hnone
  by_cases hdelete : object.key ∈ queued options .delete (bucketDiff source initial)
  · exact h.removed object.key hdelete object hobject rfl
  · have hcopy : object.key ∉ queued options .copy (bucketDiff source initial) := by
      intro hqueued
      rw [queued_copy hsource hinitial] at hqueued
      obtain ⟨original, horiginal, hkey⟩ := List.mem_map.mp hqueued
      exact hnone (hkey ▸ hasKey_of_mem (List.mem_filter.mp horiginal).1)
    have hold := (h.untouched object hcopy hdelete).mp hobject
    apply hdelete
    rw [queued_delete hallow hsource hinitial]
    apply List.mem_map_of_mem
    rw [List.mem_filter, Bool.eq_false_of_not_eq_true hnone]
    exact ⟨hold, rfl⟩

/-- The target has the keys of the source, and each of its objects matches. -/
def Converged (source target : List (StoredObject kind)) : Prop :=
  target.map StoredObject.key = source.map StoredObject.key ∧
    ∀ original ∈ source, ∀ object ∈ target, object.key = original.key →
      matching original object = true

theorem Synced.converged (h : Synced options source initial s) (hsource : Increasing source)
    (hinitial : Increasing initial) (hallow : options.allowDelete = true) :
    Converged source s.target := by
  constructor
  · apply List.Pairwise.eq_of_mem_iff (r := fun a b : String => a < b)
      (List.pairwise_map.mpr h.increasing) (List.pairwise_map.mpr hsource)
    intro key
    constructor
    · intro hin
      obtain ⟨object, hobject, rfl⟩ := List.mem_map.mp hin
      obtain ⟨original, horiginal, hkey⟩ :=
        hasKey_iff.mp (h.hasKey_source hsource hinitial hallow hobject)
      exact hkey ▸ List.mem_map_of_mem horiginal
    · intro hin
      obtain ⟨original, horiginal, rfl⟩ := List.mem_map.mp hin
      obtain ⟨object, hobject, hkey, -⟩ := h.matching hsource hinitial hallow horiginal
      exact hkey ▸ List.mem_map_of_mem hobject
  · intro original horiginal object hobject hkey
    obtain ⟨other, hother, hkey', hmatch⟩ := h.matching hsource hinitial hallow horiginal
    rw [h.increasing.eq_of_key hobject hother (hkey.trans hkey'.symm)]
    exact hmatch

omit [DecidableEq kind.Content] in
theorem countP_needsCopy (source target : List (StoredObject kind)) :
    source.countP (needsCopy target) =
      (source.countP fun object => !hasKey target object.key) + source.countP (differsIn target) := by
  induction source with
  | nil => rfl
  | cons object rest ih =>
    rw [List.countP_cons, List.countP_cons, List.countP_cons, ih]
    -- an object that differs is under its key
    have hdisjoint : differsIn target object = true → hasKey target object.key = true := by
      intro hdiffers
      obtain ⟨other, hother, hsame⟩ := List.any_eq_true.mp hdiffers
      rw [Bool.and_eq_true, decide_eq_true_eq] at hsame
      exact hasKey_iff.mpr ⟨other, hother, hsame.1⟩
    unfold needsCopy
    cases hdiffers : differsIn target object with
    | true =>
      rw [hdisjoint hdiffers]
      simp
      omega
    | false =>
      cases hasKey target object.key <;> simp
      omega

theorem Synced.copied_eq (h : Synced options source initial s) (hsource : Increasing source)
    (hinitial : Increasing initial) :
    s.copied = (source.countP fun object => !hasKey initial object.key) +
      source.countP (differsIn initial) := by
  have hcount := h.counts .copy
  rw [queued_copy hsource hinitial, List.length_map, ← List.countP_eq_length_filter,
    countP_needsCopy] at hcount
  exact hcount

theorem Synced.deleted_eq (h : Synced options source initial s) (hsource : Increasing source)
    (hinitial : Increasing initial) (hallow : options.allowDelete = true) :
    s.deleted = initial.countP fun object => !hasKey source object.key := by
  have hcount := h.counts .delete
  rw [queued_delete hallow hsource hinitial, List.length_map, ← List.countP_eq_length_filter] at hcount
  exact hcount

omit [DecidableEq kind.Content] in
/-- The diff of converged buckets asks for no action. -/
theorem queued_of_converged (hsource : Increasing source) (htarget : Increasing target)
    (h : Converged source target) (action : Action) :
    queued options action (bucketDiff source target) = [] := by
  have hkeys : ∀ key, hasKey target key = true ↔ hasKey source key = true := by
    intro key
    rw [hasKey_iff, hasKey_iff, ← List.mem_map, ← List.mem_map, h.1]
  cases action with
  | copy =>
    rw [queued_copy hsource htarget, List.map_eq_nil_iff, List.filter_eq_nil_iff]
    intro object hobject
    rw [Bool.not_eq_true, needsCopy_eq_false]
    exact ⟨(hkeys _).mpr (hasKey_of_mem hobject), h.2 object hobject⟩
  | delete =>
    rw [List.eq_nil_iff_forall_not_mem]
    intro key hin
    obtain ⟨entry, hentry, hdelete, -⟩ := mem_queued.mp hin
    have hdelete' : entry ∈ (bucketDiff source target).filter (deleteRequired true) := by
      rw [List.mem_filter]
      unfold required deleteRequired at hdelete
      unfold deleteRequired
      rw [Bool.and_eq_true] at hdelete
      exact ⟨hentry, by rw [hdelete.1]; rfl⟩
    have hkey := List.mem_map_of_mem (f := BucketDiffEntry.key) hdelete'
    rw [deletes_bucketDiff hsource htarget] at hkey
    obtain ⟨object, hobject, -⟩ := List.mem_map.mp hkey
    obtain ⟨hobject, hnone⟩ := List.mem_filter.mp hobject
    rw [(hkeys _).mp (hasKey_of_mem hobject)] at hnone
    cases hnone

/-- A run over converged buckets changes nothing. -/
theorem Synced.unchanged (h : Synced options source initial s) (hsource : Increasing source)
    (hinitial : Increasing initial) (hconverged : Converged source initial) :
    s.copied = 0 ∧ s.deleted = 0 ∧ s.target = initial := by
  have hqueued : ∀ action, queued options action (bucketDiff source initial) = [] :=
    queued_of_converged hsource hinitial hconverged
  have hcount : ∀ action, s.count action = 0 := by
    intro action
    rw [h.counts, hqueued]
    rfl
  refine ⟨hcount .copy, hcount .delete, ?_⟩
  apply List.Pairwise.eq_of_mem_iff (r := fun a b : StoredObject kind => a.key < b.key)
    h.increasing hinitial
  intro object
  apply h.untouched object
  · rw [hqueued]
    exact List.not_mem_nil
  · rw [hqueued]
    exact List.not_mem_nil

/-! ## Every run can be completed -/

/-- The steps that the listings still ask for. -/
def SyncRunner.listingRank (s : SyncRunner kind) : ℕ :=
  5 * (s.sourceRest.length + s.buffered.length + s.unread.length) + (!s.ended).toNat

/-- A queued key costs the steps of its batch. -/
def SyncRunner.rank (s : SyncRunner kind) : ℕ :=
  match s.phase with
  | .merging => 1 + s.listingRank + 4 * (s.copyBatch.length + s.deleteBatch.length)
  | .acting action running waiting _ =>
    2 + s.listingRank + running.length + 2 * waiting.length + 4 *
      (match action with
        | .copy => s.deleteBatch.length
        | .delete => s.copyBatch.length)
  | .finished => 0

variable (options source) in
/-- Some step brings the run closer to its end. -/
def Descends (s : SyncRunner kind) : Prop :=
  ∃ label s', step options source s label = some s' ∧ s'.rank < s.rank

omit [DecidableEq kind.Content] in
theorem rank_of_merging (h : s.phase = .merging) :
    s.rank = 1 + s.listingRank + 4 * (s.copyBatch.length + s.deleteBatch.length) := by
  unfold SyncRunner.rank
  rw [h]

theorem descends_flush (action : Action) (hphase : s.phase = .merging)
    (hdue : s.due options action = true) : Descends options source s := by
  refine ⟨.flush action, { s with phase := .acting action [] (s.batch action) 0 }, ?_, ?_⟩
  · simp only [step, hphase, hdue, decide_true, Bool.and_true, if_true]
  · have hpos : 0 < (s.batch action).length := by
      unfold SyncRunner.due at hdue
      rw [Bool.and_eq_true, Bool.not_eq_true', List.isEmpty_eq_false_iff] at hdue
      exact List.length_pos_of_ne_nil hdue.1
    rw [rank_of_merging hphase]
    cases action with
    | copy =>
      show 2 + s.listingRank + 0 + 2 * s.copyBatch.length + 4 * s.deleteBatch.length < _
      replace hpos : 0 < s.copyBatch.length := hpos
      omega
    | delete =>
      show 2 + s.listingRank + 0 + 2 * s.deleteBatch.length + 4 * s.copyBatch.length < _
      replace hpos : 0 < s.deleteBatch.length := hpos
      omega

theorem descends_page (hasks : s.asks options = true) (hbuffered : s.buffered = [])
    (hended : s.ended = false) : Descends options source s := by
  obtain ⟨hphase, -, -⟩ := asks_iff.mp hasks
  refine ⟨.page s.unread.length false,
    { s with
      position := (s.unread.take s.unread.length).getLast?.or s.position
      buffered := s.unread.take s.unread.length
      ended := true }, ?_, ?_⟩
  · simp only [step, hasks, hbuffered, hended, List.isEmpty_nil, Bool.not_false, Bool.and_true,
      Bool.false_or, le_refl, decide_true, if_true]
  · rw [rank_of_merging hphase, rank_of_merging (by exact hphase)]
    show 1 + (5 * (s.sourceRest.length + (s.unread.take s.unread.length).length + 0) + 0) +
      4 * (s.copyBatch.length + s.deleteBatch.length) < _
    unfold SyncRunner.listingRank
    rw [hbuffered, hended, List.take_length]
    simp

omit [DecidableEq kind.Content] in
theorem length_next {sources targets sources' targets' : List (StoredObject kind)}
    (h : nextDiffEntry sources targets = some (entry, sources', targets')) :
    sources'.length + targets'.length < sources.length + targets.length := by
  unfold nextDiffEntry at h
  split at h
  · cases h
  · cases h
    simp
  · cases h
    simp
  · split_ifs at h <;> cases h <;> (simp only [List.length_cons]; omega)

theorem descends_entry (hasks : s.asks options = true)
    (hready : s.buffered.isEmpty = false ∨ s.ended = true) (hmore : s.exhausted = false) :
    Descends options source s := by
  obtain ⟨hphase, -, -⟩ := asks_iff.mp hasks
  have hready' : (!s.buffered.isEmpty || s.ended) = true := by
    rcases hready with h | h <;> simp [h]
  cases hnext : nextDiffEntry s.sourceRest s.buffered with
  | none =>
    obtain ⟨hsources, hbuffered⟩ := nextDiffEntry_eq_none hnext
    unfold SyncRunner.exhausted at hmore
    rw [hsources, hbuffered] at hmore
    rw [hbuffered] at hready
    replace hmore : s.ended = false := hmore
    rw [hmore] at hready
    rcases hready with h | h <;> cases h
  | some next =>
    obtain ⟨entry, sources, targets⟩ := next
    refine ⟨.entry, { s.processEntry options entry with sourceRest := sources, buffered := targets },
      ?_, ?_⟩
    · simp only [step, hasks, hready', Bool.and_true, if_true, hnext, Option.map_some]
    · have hlt := length_next hnext
      -- an entry is queued for one action at most
      have hbatches : (s.processEntry options entry).copyBatch.length +
          (s.processEntry options entry).deleteBatch.length ≤
            s.copyBatch.length + s.deleteBatch.length + 1 := by
        unfold SyncRunner.processEntry copyRequired deleteRequired
        cases entry.kind <;> cases options.allowDelete <;> simp <;> omega
      rw [rank_of_merging hphase, rank_of_merging (by exact hphase)]
      show 1 + (5 * (sources.length + targets.length + s.unread.length) + (!s.ended).toNat) +
        4 * ((s.processEntry options entry).copyBatch.length +
          (s.processEntry options entry).deleteBatch.length) < _
      unfold SyncRunner.listingRank
      omega

theorem descends_finish (hphase : s.phase = .merging) (hexhausted : s.exhausted = true)
    (hcopies : s.copyBatch = []) (hdeletes : s.deleteBatch = []) : Descends options source s := by
  refine ⟨.finish, { s with phase := .finished }, ?_, ?_⟩
  · simp only [step, hphase, hexhausted, hcopies, hdeletes, List.isEmpty_nil, decide_true,
      Bool.and_true, if_true]
  · rw [rank_of_merging hphase]
    show 0 < 1 + s.listingRank + 4 * (s.copyBatch.length + s.deleteBatch.length)
    omega

theorem actionBatchSize_pos : 0 < options.actionBatchSize :=
  lt_of_lt_of_le (lt_of_lt_of_le Nat.one_pos (le_max_left 1 options.parallelismMax)) (le_max_left ..)

theorem chunkSize_pos (options : SyncOptions) (keys : ℕ) : 0 < options.chunkSize keys :=
  lt_of_lt_of_le (lt_of_lt_of_le Nat.one_pos (le_max_left 1 (min options.parallelismMax keys)))
    (le_max_left ..)

omit [DecidableEq kind.Content] in
/-- A batch that is full is due. -/
theorem due_of_full (action : Action) (h : options.actionBatchSize ≤ (s.batch action).length) :
    s.due options action = true := by
  have hne : s.batch action ≠ [] := by
    intro hempty
    rw [hempty] at h
    exact absurd h (not_le.mpr actionBatchSize_pos)
  unfold SyncRunner.due
  rw [List.isEmpty_eq_false_iff.mpr hne, decide_eq_true h]
  rfl

theorem descends_merging (hphase : s.phase = .merging) : Descends options source s := by
  by_cases hcopies : options.actionBatchSize ≤ s.copyBatch.length
  · exact descends_flush .copy hphase (due_of_full .copy hcopies)
  by_cases hdeletes : options.actionBatchSize ≤ s.deleteBatch.length
  · exact descends_flush .delete hphase (due_of_full .delete hdeletes)
  cases hexhausted : s.exhausted with
  | false =>
    have hasks : s.asks options = true := asks_iff.mpr ⟨hphase, not_le.mp hcopies, not_le.mp hdeletes⟩
    cases hbuffered : s.buffered with
    | cons head rest =>
      exact descends_entry hasks (Or.inl (by rw [hbuffered]; rfl)) hexhausted
    | nil =>
      cases hended : s.ended with
      | false => exact descends_page hasks hbuffered hended
      | true => exact descends_entry hasks (Or.inr hended) hexhausted
  | true =>
    -- the last batches, in the order of `_finish_batches`
    cases hcopy : s.copyBatch with
    | cons key keys =>
      apply descends_flush .copy hphase
      simp [SyncRunner.due, SyncRunner.batch, hcopy, hexhausted]
    | nil =>
      cases hdelete : s.deleteBatch with
      | cons key keys =>
        apply descends_flush .delete hphase
        simp [SyncRunner.due, SyncRunner.batch, hcopy, hdelete, hexhausted]
      | nil => exact descends_finish hphase hexhausted hcopy hdelete

theorem descends_submit {action : Action} {key : String} {waiting : List String} {completed : ℕ}
    (hphase : s.phase = .acting action [] (key :: waiting) completed) :
    Descends options source s := by
  have hpos := chunkSize_pos options (s.batch action).length
  refine ⟨.submit, { s with
    phase := .acting action ((key :: waiting).take (options.chunkSize (s.batch action).length))
      ((key :: waiting).drop (options.chunkSize (s.batch action).length)) completed }, ?_, ?_⟩
  · simp only [step, hphase]
  · unfold SyncRunner.rank
    rw [hphase]
    generalize options.chunkSize (s.batch action).length = size at hpos
    show 2 + s.listingRank + ((key :: waiting).take size).length +
      2 * ((key :: waiting).drop size).length + _ < _
    rw [List.length_take, List.length_drop]
    simp only [List.length_cons, List.length_nil]
    omega

theorem descends_collect {action : Action} {completed : ℕ}
    (hphase : s.phase = .acting action [] [] completed) : Descends options source s := by
  refine ⟨.collect, s.collect completed action, ?_, ?_⟩
  · simp only [step, hphase]
  · unfold SyncRunner.rank
    rw [hphase]
    cases action with
    | copy =>
      show 1 + s.listingRank + 4 * (0 + s.deleteBatch.length) < _
      simp
    | delete =>
      show 1 + s.listingRank + 4 * (s.copyBatch.length + 0) < _
      simp

/-- The next key of a chunk: the source has what is copied. -/
theorem Inv.descends_act (h : Inv options source initial recorded s) (hsource : Increasing source)
    (hinitial : Increasing initial) {action : Action} {key : String}
    {running waiting : List String} {completed : ℕ}
    (hphase : s.phase = .acting action (key :: running) waiting completed) :
    Descends options source s := by
  have hqueued : key ∈ queued options action recorded := by
    apply h.outstanding action
    unfold SyncRunner.outstanding
    rw [hphase]
    show key ∈ if action = action then key :: running ++ waiting else s.batch action
    rw [if_pos rfl]
    exact List.mem_cons_self ..
  have hunread : ∀ {t : List (StoredObject kind)} {phase : Phase},
      (∀ last : StoredObject kind, key ≤ last.key → later (some last) t = later (some last) s.target) →
      SyncRunner.unread { s with target := t, phase := phase } = s.unread :=
    fun hlater => h.unread_act hqueued hlater
  cases action with
  | copy =>
    obtain ⟨entry, hentry, hcopies, hkey⟩ := mem_queued.mp hqueued
    have hmem : key ∈ queued options .copy (bucketDiff source initial) := by
      rw [h.merged]
      exact mem_queued.mpr ⟨entry, List.mem_append_left _ hentry, hcopies, hkey⟩
    rw [queued_copy hsource hinitial] at hmem
    obtain ⟨original, horiginal, rfl⟩ := List.mem_map.mp hmem
    have hcopy : isCopy source original = true := by
      unfold isCopy
      rw [List.any_eq_true]
      exact ⟨original, (List.mem_filter.mp horiginal).1, by simp⟩
    refine ⟨.copied original, { s with
      target := put original s.target
      phase := .acting .copy ((original.key :: running).erase original.key) waiting (completed + 1) },
      ?_, ?_⟩
    · simp [step, hphase, hcopy]
    · unfold SyncRunner.rank SyncRunner.listingRank
      rw [hphase, hunread fun last hle => later_put hle]
      simp
  | delete =>
    refine ⟨.deleted key, { s with
      target := remove key s.target
      phase := .acting .delete ((key :: running).erase key) waiting (completed + 1) }, ?_, ?_⟩
    · simp [step, hphase]
    · unfold SyncRunner.rank SyncRunner.listingRank
      rw [hphase, hunread fun last hle => later_remove hle]
      simp

theorem Inv.descends (h : Inv options source initial recorded s) (hsource : Increasing source)
    (hinitial : Increasing initial) (hgoing : s.phase ≠ .finished) : Descends options source s := by
  cases hphase : s.phase with
  | merging => exact descends_merging hphase
  | finished => exact absurd hphase hgoing
  | acting action running waiting completed =>
    cases running with
    | cons key running => exact h.descends_act hsource hinitial hphase
    | nil =>
      cases waiting with
      | cons key waiting => exact descends_submit hphase
      | nil => exact descends_collect hphase

/-- Every run can be completed. -/
theorem completes (hsource : Increasing source) (hinitial : Increasing initial)
    (h : Reachable options source initial s) :
    ∃ s', Reached (step options source) anyStep s s' ∧ s'.phase = .finished := by
  have hdown : ∀ s : SyncRunner kind, (∃ recorded, Inv options source initial recorded s) →
      ¬ s.phase = .finished → ∃ label next, anyStep s label ∧ step options source s label = some next ∧
        (∃ recorded, Inv options source initial recorded next) ∧ next.rank < s.rank := by
    rintro s ⟨recorded, hinv⟩ hgoing
    obtain ⟨label, next, hs, hlt⟩ := hinv.descends hsource hinitial hgoing
    exact ⟨label, next, trivial, hs, inv_step hinv hsource hinitial hs, hlt⟩
  exact Reached.of_rank hdown (inv_reachable hsource hinitial h)

/-- A run that ends leaves the target with the keys of the source, each matching; it counts the objects
it copied and deleted, and another run has nothing to do. -/
theorem sync_converges (options : SyncOptions) (hallow : options.allowDelete = true)
    (source target : List (StoredObject kind)) (hsource : Increasing source)
    (htarget : Increasing target) (s : SyncRunner kind) (h : Reachable options source target s) :
    (∃ s', Reached (step options source) anyStep s s' ∧ s'.phase = .finished) ∧
      (s.phase = .finished →
        Converged source s.target ∧
        s.copied = (source.countP fun object => !hasKey target object.key) +
          source.countP (differsIn target) ∧
        s.deleted = (target.countP fun object => !hasKey source object.key) ∧
        s.diff = (bucketDiff source target).foldl recordDiffEntry {} ∧
        ∀ (options' : SyncOptions) (s' : SyncRunner kind), Reachable options' source s.target s' →
          s'.phase = .finished → s'.copied = 0 ∧ s'.deleted = 0 ∧ s'.target = s.target) := by
  constructor
  · exact completes hsource htarget h
  intro hfinished
  obtain ⟨recorded, hinv⟩ := inv_reachable hsource htarget h
  have hsynced := hinv.synced hfinished
  have hconverged := hsynced.converged hsource htarget hallow
  refine ⟨hconverged, hsynced.copied_eq hsource htarget, hsynced.deleted_eq hsource htarget hallow,
    hsynced.diff, ?_⟩
  intro options' s' h' hfinished'
  obtain ⟨recorded', hinv'⟩ := inv_reachable hsource hsynced.increasing h'
  exact (hinv'.synced hfinished').unchanged hsource hsynced.increasing hconverged

/-- Texts, with the digests of those that are used below. -/
def textKind : ContentKind where
  Content := String
  size := String.length
  md5 := fun content =>
    if content = "" then "d41d8cd98f00b204e9800998ecf8427e"
    else if content = "a" then "0cc175b9c0f1b6a831c399e269772661"
    else "92eb5ffee6ae2fec3ad71c777531578f"

instance : DecidableEq textKind.Content := inferInstanceAs (DecidableEq String)

def untagged (key content : String) : StoredObject textKind :=
  ⟨key, content, none, by rintro digest ⟨⟩⟩

/-- The object under "x" is missing and the one under "y" differs; "w" is deleted. -/
theorem sync_converges_once :
    ∃ s : SyncRunner textKind, s.phase = .finished ∧
      Converged [untagged "x" "a", untagged "y" "b"] s.target ∧ s.copied = 2 ∧ s.deleted = 1 := by
  have hrun : (after (step ⟨1, 1, true⟩ [untagged "x" "a", untagged "y" "b"])
      (started [untagged "x" "a", untagged "y" "b"] [untagged "w" "a", untagged "y" ""])
      [.page 1 true, .entry, .flush .delete, .submit, .deleted "w", .collect, .page 5 false, .entry,
        .flush .copy, .submit, .copied (untagged "x" "a"), .collect, .entry, .flush .copy, .submit,
        .copied (untagged "y" "b"), .collect, .finish]).any (fun s =>
          s.phase = .finished ∧ s.copied = 2 ∧ s.deleted = 1) = true := by
    decide +kernel
  obtain ⟨s, hs, hfinal⟩ := (Option.any_eq_true _ _).mp hrun
  obtain ⟨hfinished, hcopied, hdeleted⟩ := of_decide_eq_true hfinal
  have hsource : Increasing [untagged "x" "a", untagged "y" "b"] := by
    unfold Increasing
    decide +kernel
  have htarget : Increasing [untagged "w" "a", untagged "y" ""] := by
    unfold Increasing
    decide +kernel
  exact ⟨s, hfinished, ((sync_converges ⟨1, 1, true⟩ rfl _ _ hsource htarget s
    (Reached.init.after hs)).2 hfinished).1, hcopied, hdeleted⟩

end CurrentObjects
end BucketReef

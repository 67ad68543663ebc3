import BucketReef.Migration.CurrentSync
import Mathlib.Tactic.Tauto

/-!
# The invariant of a synchronization

The entries that the runner has recorded are the first ones of the diff of the buckets it began with:
what it stores or removes has been listed before, and the pages to come do not see it. Each key it
acts on is one that a recorded entry names.
-/

namespace BucketReef
namespace CurrentObjects

open Versions Transitions Lists

variable {kind : ContentKind}

/-! ## Storing and removing -/

variable {target listing : List (StoredObject kind)} {object other last : StoredObject kind}

theorem Increasing.filter {listing : List (StoredObject kind)} (h : Increasing listing)
    (p : StoredObject kind → Bool) : Increasing (listing.filter p) :=
  List.Pairwise.filter p h

theorem Increasing.eq_of_key (h : Increasing listing) (hobject : object ∈ listing)
    (hother : other ∈ listing) (hkey : object.key = other.key) : object = other := by
  have hnodup : (listing.map StoredObject.key).Nodup := List.pairwise_map.mpr (h.imp ne_of_lt)
  exact List.inj_on_of_nodup_map hnodup hobject hother hkey

theorem mem_put : other ∈ put object target ↔
    other = object ∨ other ∈ target ∧ other.key ≠ object.key := by
  unfold put
  rw [List.mem_append, List.mem_cons, List.mem_filter, List.mem_filter, decide_eq_true_eq,
    decide_eq_true_eq, ne_iff_lt_or_gt]
  tauto

theorem mem_remove {key : String} : other ∈ remove key target ↔ other ∈ target ∧ other.key ≠ key := by
  unfold remove
  rw [List.mem_filter, decide_eq_true_eq]

theorem increasing_put (h : Increasing target) (object : StoredObject kind) :
    Increasing (put object target) := by
  unfold put Increasing
  rw [List.pairwise_append, List.pairwise_cons]
  refine ⟨h.filter _, ⟨?_, h.filter _⟩, ?_⟩
  · intro later hin
    exact decide_eq_true_eq.mp (List.mem_filter.mp hin).2
  · intro earlier hearlier later hlater
    have hlt : earlier.key < object.key := decide_eq_true_eq.mp (List.mem_filter.mp hearlier).2
    rcases List.mem_cons.mp hlater with rfl | hin
    · exact hlt
    · exact lt_trans hlt (decide_eq_true_eq.mp (List.mem_filter.mp hin).2)

theorem increasing_remove (h : Increasing target) (key : String) : Increasing (remove key target) :=
  h.filter _

/-- The objects after the position, which a page has still to list. -/
abbrev later (position : Option (StoredObject kind)) (listing : List (StoredObject kind)) :
    List (StoredObject kind) :=
  listing.filter (isAfter StoredObject.key position)

theorem later_put (hlisted : object.key ≤ last.key) :
    later (some last) (put object target) = later (some last) target := by
  have hbefore : (target.filter fun other => other.key < object.key).filter
      (isAfter StoredObject.key (some last)) = [] := by
    rw [List.filter_eq_nil_iff]
    intro other hin
    rw [isAfter_some, not_lt]
    exact le_trans (le_of_lt (decide_eq_true_eq.mp (List.mem_filter.mp hin).2)) hlisted
  have hself : isAfter StoredObject.key (some last) object = false := by
    rw [← Bool.not_eq_true, isAfter_some, not_lt]
    exact hlisted
  unfold later put
  rw [List.filter_append, hbefore, List.nil_append, List.filter_cons_of_neg (by rw [hself]; exact nofun),
    List.filter_filter]
  apply List.filter_congr
  intro other hin
  cases hafter : isAfter StoredObject.key (some last) other with
  | false => rfl
  | true => simpa using lt_of_le_of_lt hlisted (isAfter_some.mp hafter)

theorem later_remove {key : String} (hlisted : key ≤ last.key) :
    later (some last) (remove key target) = later (some last) target := by
  unfold later remove
  rw [List.filter_filter]
  apply List.filter_congr
  intro other hin
  cases hafter : isAfter StoredObject.key (some last) other with
  | false => rfl
  | true => simpa using ne_of_gt (lt_of_le_of_lt hlisted (isAfter_some.mp hafter))

/-- A page moves the position to its last object. -/
theorem later_page {position : Option (StoredObject kind)} (h : Increasing target) (size : ℕ) :
    later (((later position target).take size).getLast?.or position) target =
      (later position target).drop size := by
  cases hlast : ((later position target).take size).getLast? with
  | none =>
    rw [List.getLast?_eq_none_iff] at hlast
    have hdrop := List.take_append_drop size (later position target)
    rw [hlast, List.nil_append] at hdrop
    rw [hdrop]
    rfl
  | some last =>
    obtain ⟨front, hfront⟩ := List.getLast?_eq_some_iff.mp hlast
    have hsplit : later position target = front ++ last :: (later position target).drop size := by
      conv_lhs => rw [← List.take_append_drop size (later position target), hfront]
      rw [List.append_assoc, List.singleton_append]
    have hsorted : Increasing (later position target) := h.filter _
    have hafter : isAfter StoredObject.key position last = true := by
      have hin : last ∈ later position target := by
        rw [hsplit]
        simp
      exact (List.mem_filter.mp hin).2
    -- what comes after the last object of the page comes after the old position
    have hlater : later (some last) target = later (some last) (later position target) := by
      unfold later
      rw [List.filter_filter]
      apply List.filter_congr
      intro other hin
      cases hother : isAfter StoredObject.key (some last) other with
      | false => rfl
      | true => rw [isAfter_of_isAfter_row hafter hother]; rfl
    show later (some last) target = (later position target).drop size
    rw [hlater]
    generalize (later position target).drop size = rest at hsplit
    rw [hsplit] at hsorted ⊢
    obtain ⟨hfirst, hrest, hbefore⟩ := List.pairwise_append.mp hsorted
    unfold later
    have hnone : front.filter (isAfter StoredObject.key (some last)) = [] := by
      rw [List.filter_eq_nil_iff]
      intro other hin
      rw [isAfter_some, not_lt]
      exact le_of_lt (hbefore other hin last (List.mem_cons_self ..))
    rw [List.filter_append, hnone, List.nil_append, List.filter_cons_of_neg, List.filter_eq_self]
    · intro other hin
      exact isAfter_some.mpr ((List.pairwise_cons.mp hrest).1 other hin)
    · rw [isAfter_some]
      exact lt_irrefl _

theorem not_isAfter_page {position : Option (StoredObject kind)} (h : Increasing target) {size : ℕ}
    (hin : object ∈ (later position target).take size) :
    isAfter StoredObject.key (((later position target).take size).getLast?.or position) object = false := by
  cases hlast : ((later position target).take size).getLast? with
  | none =>
    rw [List.getLast?_eq_none_iff.mp hlast] at hin
    cases hin
  | some last =>
    obtain ⟨front, hfront⟩ := List.getLast?_eq_some_iff.mp hlast
    have hsorted : Increasing ((later position target).take size) :=
      List.Pairwise.sublist (List.take_sublist _ _) (h.filter _)
    rw [hfront] at hin hsorted
    show isAfter StoredObject.key (some last) object = false
    rw [← Bool.not_eq_true, isAfter_some, not_lt]
    rcases List.mem_append.mp hin with hin | hin
    · exact le_of_lt ((List.pairwise_append.mp hsorted).2.2 object hin last (by simp))
    · rw [List.mem_singleton.mp hin]

/-! ## The invariant of a run -/

/-- The keys that the entries queue for the action. -/
def queued (options : SyncOptions) (action : Action) (entries : List BucketDiffEntry) : List String :=
  (entries.filter (required options action)).map BucketDiffEntry.key

/-- The queued keys that no worker has finished. -/
def SyncRunner.outstanding (s : SyncRunner kind) (action : Action) : List String :=
  match s.phase with
  | .acting acted running waiting _ => if acted = action then running ++ waiting else s.batch action
  | _ => s.batch action

/-- The keys of the batch that is run are finished or outstanding. -/
def SyncRunner.Counted (s : SyncRunner kind) : Prop :=
  match s.phase with
  | .acting action running waiting completed =>
    completed + (running ++ waiting).length = (s.batch action).length
  | _ => True

variable [DecidableEq kind.Content] {options : SyncOptions}
  {source initial : List (StoredObject kind)} {s s' : SyncRunner kind}
  {recorded : List BucketDiffEntry} {entry : BucketDiffEntry}

variable (options source initial) in
structure Inv (recorded : List BucketDiffEntry) (s : SyncRunner kind) : Prop where
  increasing : Increasing s.target
  merged : bucketDiff source initial = recorded ++ bucketDiff s.sourceRest (s.buffered ++ s.unread)
  buffered : s.ended = false → ∀ object ∈ s.buffered, isAfter StoredObject.key s.position object = false
  listed : s.ended = false → ∀ entry ∈ recorded, ∃ last, s.position = some last ∧ entry.key ≤ last.key
  diff : s.diff = recorded.foldl recordDiffEntry {}
  counts : ∀ action, (queued options action recorded).length = s.count action + (s.batch action).length
  counted : s.Counted
  outstanding : ∀ action, ∀ key ∈ s.outstanding action, key ∈ queued options action recorded
  untouched : ∀ object, object.key ∉ queued options .copy recorded →
    object.key ∉ queued options .delete recorded → (object ∈ s.target ↔ object ∈ initial)
  replaced : ∀ key ∈ queued options .copy recorded, key ∉ s.outstanding .copy →
    ∃ object ∈ s.target, object.key = key ∧ isCopy source object = true
  removed : ∀ key ∈ queued options .delete recorded, key ∉ s.outstanding .delete →
    ∀ object ∈ s.target, object.key ≠ key
  finished : s.phase = .finished → s.exhausted = true ∧ s.copyBatch = [] ∧ s.deleteBatch = []

theorem mem_queued {action : Action} {key : String} :
    key ∈ queued options action recorded ↔
      ∃ entry ∈ recorded, required options action entry = true ∧ entry.key = key := by
  unfold queued
  rw [List.mem_map]
  simp only [List.mem_filter, and_assoc]

/-- A run starts with every entry still to come. -/
theorem inv_started (htarget : Increasing initial) :
    Inv options source initial [] (started source initial) where
  increasing := htarget
  merged := by
    show bucketDiff source initial = bucketDiff source (later none initial)
    have hall : later none initial = initial := List.filter_eq_self.mpr fun _ _ => rfl
    rw [hall]
  buffered := fun _ _ hin => by cases hin
  listed := fun _ _ hin => by cases hin
  diff := rfl
  counts := fun action => by cases action <;> rfl
  counted := trivial
  outstanding := fun action key hin => by cases action <;> cases hin
  untouched := fun _ _ _ => Iff.rfl
  replaced := fun _ hin => by cases hin
  removed := fun _ hin => by cases hin
  finished := nofun

/-! ## Reading and queueing -/

omit [DecidableEq kind.Content] in
theorem asks_iff : s.asks options = true ↔ s.phase = .merging ∧
    s.copyBatch.length < options.actionBatchSize ∧ s.deleteBatch.length < options.actionBatchSize := by
  unfold SyncRunner.asks
  simp only [Bool.and_eq_true, decide_eq_true_eq, and_assoc]

theorem inv_page (h : Inv options source initial recorded s) {size : ℕ} {more : Bool}
    (hs : step options source s (.page size more) = some s') :
    Inv options source initial recorded s' := by
  simp only [step, Option.ite_none_right_eq_some, Bool.and_eq_true, List.isEmpty_iff,
    Bool.not_eq_true', Bool.or_eq_true, decide_eq_true_eq] at hs
  obtain ⟨⟨⟨⟨hasks, hempty⟩, hended⟩, hmore⟩, hs⟩ := hs
  cases hs
  obtain ⟨hphase, -, -⟩ := asks_iff.mp hasks
  have hunread : s.unread = later s.position s.target := by
    unfold SyncRunner.unread
    rw [hended]
    rfl
  rw [hunread] at hmore ⊢
  exact {
    increasing := h.increasing
    merged := by
      rw [h.merged, hempty, hunread, List.nil_append]
      congr 2
      cases more with
      | false =>
        have hall := hmore.resolve_left Bool.false_ne_true
        show later s.position s.target = (later s.position s.target).take size ++ []
        rw [List.append_nil, List.take_of_length_le hall]
      | true =>
        show later s.position s.target = (later s.position s.target).take size ++
          later (((later s.position s.target).take size).getLast?.or s.position) s.target
        rw [later_page h.increasing, List.take_append_drop]
    buffered := fun _ object hin => not_isAfter_page h.increasing hin
    listed := by
      intro _ entry hin
      obtain ⟨last, hlast, hle⟩ := h.listed hended entry hin
      show ∃ last, ((later s.position s.target).take size).getLast?.or s.position = some last ∧ _
      cases hpage : ((later s.position s.target).take size).getLast? with
      | none => exact ⟨last, hlast, hle⟩
      | some next =>
        have hnext : next ∈ later s.position s.target :=
          List.mem_of_mem_take (List.mem_of_getLast? hpage)
        have hafter := (List.mem_filter.mp hnext).2
        rw [hlast, isAfter_some] at hafter
        exact ⟨next, rfl, le_trans hle (le_of_lt hafter)⟩
    diff := h.diff
    counts := fun action => by cases action <;> [exact h.counts .copy; exact h.counts .delete]
    counted := h.counted
    outstanding := fun action => by
      cases action <;> [exact h.outstanding .copy; exact h.outstanding .delete]
    untouched := h.untouched
    replaced := h.replaced
    removed := h.removed
    finished := fun hfinished => by
      rw [show s.phase = .finished from hfinished] at hphase
      cases hphase }

omit [DecidableEq kind.Content] in
theorem outstanding_of_merging (h : s.phase = .merging) (action : Action) :
    s.outstanding action = s.batch action := by
  unfold SyncRunner.outstanding
  rw [h]

theorem queued_concat (action : Action) (recorded : List BucketDiffEntry) (entry : BucketDiffEntry) :
    queued options action (recorded ++ [entry]) =
      if required options action entry then queued options action recorded ++ [entry.key]
      else queued options action recorded := by
  unfold queued
  rw [List.filter_append, List.map_append]
  by_cases h : required options action entry = true
  · rw [if_pos h, List.filter_cons_of_pos h]
    rfl
  · rw [if_neg h, List.filter_cons_of_neg h]
    exact List.append_nil _

omit [DecidableEq kind.Content] in
theorem batch_processEntry (action : Action) :
    (s.processEntry options entry).batch action =
      if required options action entry then s.batch action ++ [entry.key] else s.batch action := by
  cases action <;> rfl

omit [DecidableEq kind.Content] in
/-- An object that was listed is not after the position. -/
theorem le_of_not_isAfter {position : Option (StoredObject kind)}
    (h : isAfter StoredObject.key position object = false) :
    ∃ last, position = some last ∧ object.key ≤ last.key := by
  cases position with
  | none => cases h
  | some last =>
    rw [← Bool.not_eq_true, isAfter_some, not_lt] at h
    exact ⟨last, rfl, h⟩

theorem inv_entry (h : Inv options source initial recorded s)
    (hs : step options source s .entry = some s') :
    ∃ entry, Inv options source initial (recorded ++ [entry]) s' := by
  simp only [step, Option.ite_none_right_eq_some, Bool.and_eq_true, Bool.or_eq_true,
    Option.map_eq_some_iff] at hs
  obtain ⟨⟨hasks, hready⟩, ⟨entry, sources, targets⟩, hnext, rfl⟩ := hs
  obtain ⟨hphase, -, -⟩ := asks_iff.mp hasks
  have hbatch := outstanding_of_merging hphase
  have hout : ∀ action, SyncRunner.outstanding
      { s.processEntry options entry with sourceRest := sources, buffered := targets } action =
        (s.processEntry options entry).batch action := by
    intro action
    unfold SyncRunner.outstanding
    rw [show (s.processEntry options entry).phase = .merging from hphase]
    cases action <;> rfl
  have hunread : s.buffered = [] → s.unread = [] := by
    intro hempty
    rw [hempty] at hready
    unfold SyncRunner.unread
    rw [if_pos (hready.resolve_left Bool.false_ne_true)]
  have hkeep : ∀ action, ∀ key, key ∈ queued options action (recorded ++ [entry]) →
      key ∉ (s.processEntry options entry).batch action →
      key ∈ queued options action recorded ∧ key ∉ s.outstanding action := by
    intro action key hin hout
    rw [batch_processEntry] at hout
    rw [queued_concat] at hin
    rw [hbatch]
    split_ifs at hin hout
    · rw [List.mem_append] at hin hout
      exact ⟨hin.resolve_right fun hlast => hout (Or.inr hlast), fun hold => hout (Or.inl hold)⟩
    · exact ⟨hin, hout⟩
  have hgrow : ∀ action, ∀ key ∈ queued options action recorded,
      key ∈ queued options action (recorded ++ [entry]) := by
    intro action key hin
    obtain ⟨old, hold, hrequired⟩ := mem_queued.mp hin
    exact mem_queued.mpr ⟨old, List.mem_append_left _ hold, hrequired⟩
  refine ⟨entry, ?_⟩
  show Inv options source initial (recorded ++ [entry])
    { s.processEntry options entry with sourceRest := sources, buffered := targets }
  exact {
    increasing := h.increasing
    merged := by
      rw [h.merged, bucketDiff_next hunread hnext, List.append_assoc, List.singleton_append]
      rfl
    buffered := fun hended object hin =>
      h.buffered hended object (targets_of_next hnext object hin)
    listed := by
      intro hended other hin
      rcases List.mem_append.mp hin with hin | hin
      · exact h.listed hended other hin
      rw [List.mem_singleton.mp hin]
      cases hbuffered : s.buffered with
      | nil =>
        rw [hbuffered, show s.ended = false from hended] at hready
        cases hready <;> contradiction
      | cons head rest =>
        rw [hbuffered] at hnext
        obtain ⟨last, hlast, hle⟩ := le_of_not_isAfter
          (h.buffered hended head (by rw [hbuffered]; exact List.mem_cons_self ..))
        exact ⟨last, hlast, le_trans (key_le_of_next hnext) hle⟩
    diff := by
      rw [List.foldl_append, ← h.diff]
      rfl
    counts := by
      intro action
      have hcount := h.counts action
      show _ = s.count action + ((s.processEntry options entry).batch action).length
      rw [batch_processEntry, queued_concat]
      split_ifs
      · rw [List.length_append, List.length_append, hcount, Nat.add_assoc]
      · exact hcount
    counted := by
      unfold SyncRunner.Counted
      rw [show (s.processEntry options entry).phase = .merging from hphase]
      trivial
    outstanding := by
      intro action key hin
      have hold := h.outstanding action key
      rw [hbatch] at hold
      rw [hout, batch_processEntry] at hin
      rw [queued_concat]
      split_ifs at hin ⊢
      · rw [List.mem_append] at hin ⊢
        exact hin.imp_left hold
      · exact hold hin
    untouched := fun object hcopy hdelete =>
      h.untouched object (fun hin => hcopy (hgrow .copy _ hin)) fun hin => hdelete (hgrow .delete _ hin)
    replaced := by
      intro key hin hdone
      rw [hout] at hdone
      obtain ⟨hold, hdone⟩ := hkeep .copy key hin hdone
      exact h.replaced key hold hdone
    removed := by
      intro key hin hdone
      rw [hout] at hdone
      obtain ⟨hold, hdone⟩ := hkeep .delete key hin hdone
      exact h.removed key hold hdone
    finished := fun hfinished => by
      rw [show s.phase = .finished from hfinished] at hphase
      cases hphase }

/-! ## Running a batch -/

/-- The counters, the batches and the phase may change while the same keys stay outstanding. -/
theorem Inv.frame (h : Inv options source initial recorded s)
    (hsame : s' = { s with
      copied := s'.copied, deleted := s'.deleted, copyBatch := s'.copyBatch,
      deleteBatch := s'.deleteBatch, phase := s'.phase })
    (hout : ∀ action, s'.outstanding action = s.outstanding action)
    (hcounts : ∀ action, s'.count action + (s'.batch action).length =
      s.count action + (s.batch action).length)
    (hcounted : s'.Counted)
    (hfinished : s'.phase = .finished →
      s'.exhausted = true ∧ s'.copyBatch = [] ∧ s'.deleteBatch = []) :
    Inv options source initial recorded s' where
  increasing := by
    rw [hsame]
    exact h.increasing
  merged := by
    rw [hsame]
    exact h.merged
  buffered := by
    rw [hsame]
    exact h.buffered
  listed := by
    rw [hsame]
    exact h.listed
  diff := by
    rw [hsame]
    exact h.diff
  counts := fun action => (h.counts action).trans (hcounts action).symm
  counted := hcounted
  outstanding := fun action key hin => h.outstanding action key (hout action ▸ hin)
  untouched := by
    rw [hsame]
    exact h.untouched
  replaced := fun key hin hdone => by
    rw [hsame]
    exact h.replaced key hin (hout .copy ▸ hdone)
  removed := fun key hin hdone => by
    rw [hsame]
    exact h.removed key hin (hout .delete ▸ hdone)
  finished := hfinished

theorem Inv.setPhase (h : Inv options source initial recorded s) (phase : Phase)
    (hout : ∀ action, SyncRunner.outstanding { s with phase := phase } action = s.outstanding action)
    (hcounted : SyncRunner.Counted { s with phase := phase })
    (hfinished : phase = .finished → s.exhausted = true ∧ s.copyBatch = [] ∧ s.deleteBatch = []) :
    Inv options source initial recorded { s with phase := phase } := by
  apply h.frame rfl hout
  · intro action
    cases action <;> rfl
  · exact hcounted
  · exact hfinished

theorem inv_flush (h : Inv options source initial recorded s) {action : Action}
    (hs : step options source s (.flush action) = some s') :
    Inv options source initial recorded s' := by
  simp only [step, Option.ite_none_right_eq_some, Bool.and_eq_true, decide_eq_true_eq] at hs
  obtain ⟨⟨hphase, -⟩, hs⟩ := hs
  cases hs
  apply h.setPhase
  · intro other
    rw [outstanding_of_merging hphase]
    show (if action = other then [] ++ s.batch action else s.batch other) = s.batch other
    split_ifs with heq
    · rw [heq, List.nil_append]
    · rfl
  · show 0 + ([] ++ s.batch action).length = (s.batch action).length
    rw [Nat.zero_add, List.nil_append]
  · exact nofun

theorem inv_submit (h : Inv options source initial recorded s)
    (hs : step options source s .submit = some s') : Inv options source initial recorded s' := by
  simp only [step] at hs
  split at hs
  · rename_i action key waiting completed hphase
    cases hs
    have hcounted := h.counted
    unfold SyncRunner.Counted at hcounted
    rw [hphase] at hcounted
    apply h.setPhase
    · intro other
      unfold SyncRunner.outstanding
      rw [hphase]
      dsimp only
      rw [List.take_append_drop, List.nil_append]
      cases other <;> rfl
    · show completed + (List.take _ (key :: waiting) ++ List.drop _ (key :: waiting)).length = _
      rw [List.take_append_drop]
      exact hcounted
    · exact nofun
  · cases hs

/-- A key that was queued has been listed: the target objects still to come stay the same. -/
theorem Inv.key_listed (h : Inv options source initial recorded s) {action : Action} {key : String}
    (hin : key ∈ queued options action recorded) (hended : s.ended = false) :
    ∃ last, s.position = some last ∧ key ≤ last.key := by
  obtain ⟨entry, hentry, -, rfl⟩ := mem_queued.mp hin
  exact h.listed hended entry hentry

theorem Inv.unread_act (h : Inv options source initial recorded s) {action : Action} {key : String}
    {target : List (StoredObject kind)} {phase : Phase} (hin : key ∈ queued options action recorded)
    (hlater : ∀ last : StoredObject kind, key ≤ last.key →
      later (some last) target = later (some last) s.target) :
    SyncRunner.unread { s with target := target, phase := phase } = s.unread := by
  unfold SyncRunner.unread
  cases hended : s.ended with
  | true => rfl
  | false =>
    obtain ⟨last, hlast, hle⟩ := h.key_listed hin hended
    show later s.position target = later s.position s.target
    rw [hlast]
    exact hlater last hle

/-- No key is queued for both actions. -/
theorem Inv.queued_once (h : Inv options source initial recorded s) (hsource : Increasing source)
    (hinitial : Increasing initial) {key : String} (hcopy : key ∈ queued options .copy recorded) :
    key ∉ queued options .delete recorded := by
  intro hdelete
  obtain ⟨entry, hentry, hcopies, hkey⟩ := mem_queued.mp hcopy
  obtain ⟨other, hother, hdeletes, hkey'⟩ := mem_queued.mp hdelete
  have hsorted := pairwise_bucketDiff hsource hinitial
  rw [h.merged] at hsorted
  have hnodup : (recorded.map BucketDiffEntry.key).Nodup :=
    List.pairwise_map.mpr ((List.pairwise_append.mp hsorted).1.imp ne_of_lt)
  have heq : entry = other :=
    List.inj_on_of_nodup_map hnodup hentry hother (hkey.trans hkey'.symm)
  rw [← heq] at hdeletes
  unfold required copyRequired at hcopies
  unfold required deleteRequired at hdeletes
  cases hkind : entry.kind <;> simp [hkind] at hcopies hdeletes

/-- A worker finishes a key: it changes the target under this key only. -/
theorem Inv.act (h : Inv options source initial recorded s) {action : Action}
    {running waiting : List String} {completed : ℕ} {key : String}
    {target : List (StoredObject kind)}
    (hphase : s.phase = .acting action running waiting completed) (hrunning : key ∈ running)
    (hincreasing : Increasing target)
    (hlater : ∀ last : StoredObject kind, key ≤ last.key →
      later (some last) target = later (some last) s.target)
    (hother : ∀ object : StoredObject kind, object.key ≠ key → (object ∈ target ↔ object ∈ s.target))
    (hcopied : key ∈ queued options .copy recorded →
      ∃ object ∈ target, object.key = key ∧ isCopy source object = true)
    (hdeleted : key ∈ queued options .delete recorded → ∀ object ∈ target, object.key ≠ key) :
    Inv options source initial recorded
      { s with target := target, phase := .acting action (running.erase key) waiting (completed + 1) } := by
  have hout : ∀ acted, s.outstanding acted =
      if action = acted then running ++ waiting else s.batch acted := by
    intro acted
    unfold SyncRunner.outstanding
    rw [hphase]
  have hqueued : key ∈ queued options action recorded := by
    apply h.outstanding action key
    rw [hout, if_pos rfl]
    exact List.mem_append_left _ hrunning
  -- a key that is finished now was finished before, or is this one
  have hdone : ∀ acted other, other ∉ SyncRunner.outstanding
      { s with target := target, phase := .acting action (running.erase key) waiting (completed + 1) }
        acted → other ≠ key → other ∉ s.outstanding acted := by
    intro acted other hout' hne
    rw [hout]
    replace hout' : other ∉ if action = acted then running.erase key ++ waiting else s.batch acted :=
      hout'
    split_ifs at hout' ⊢
    · rwa [List.mem_append, List.mem_erase_of_ne hne, ← List.mem_append] at hout'
    · exact hout'
  exact {
    increasing := hincreasing
    merged := by
      rw [h.unread_act hqueued hlater]
      exact h.merged
    buffered := h.buffered
    listed := h.listed
    diff := h.diff
    counts := h.counts
    counted := by
      have hcounted := h.counted
      unfold SyncRunner.Counted at hcounted
      rw [hphase] at hcounted
      show completed + 1 + (running.erase key ++ waiting).length = (s.batch action).length
      rw [← hcounted, List.length_append, List.length_append, List.length_erase_of_mem hrunning]
      have hpos : 0 < running.length := List.length_pos_of_mem hrunning
      omega
    outstanding := by
      intro acted other hin
      apply h.outstanding acted other
      replace hin : other ∈ if action = acted then running.erase key ++ waiting else s.batch acted := hin
      rw [hout]
      split_ifs at hin ⊢
      · rw [List.mem_append] at hin ⊢
        exact hin.imp_left List.mem_of_mem_erase
      · exact hin
    untouched := by
      intro object hcopy hdelete
      have hne : object.key ≠ key := by
        rintro rfl
        cases action with
        | copy => exact hcopy hqueued
        | delete => exact hdelete hqueued
      rw [← h.untouched object hcopy hdelete]
      exact hother object hne
    replaced := by
      intro other hin hout'
      by_cases heq : other = key
      · rw [heq] at hin ⊢
        exact hcopied hin
      · obtain ⟨object, hobject, hkey, hcopy⟩ := h.replaced other hin (hdone .copy other hout' heq)
        exact ⟨object, (hother object (hkey ▸ heq)).mpr hobject, hkey, hcopy⟩
    removed := by
      intro other hin hout' object hobject hkey
      by_cases heq : other = key
      · rw [heq] at hin hkey
        exact hdeleted hin object hobject hkey
      · have hobject := (hother object (hkey ▸ heq)).mp hobject
        exact h.removed other hin (hdone .delete other hout' heq) object hobject hkey
    finished := nofun }

theorem inv_copied (h : Inv options source initial recorded s) (hsource : Increasing source)
    (hinitial : Increasing initial) {object : StoredObject kind}
    (hs : step options source s (.copied object) = some s') :
    Inv options source initial recorded s' := by
  simp only [step] at hs
  split at hs
  · rename_i running waiting completed hphase
    simp only [Option.ite_none_right_eq_some] at hs
    obtain ⟨⟨hrunning, hcopy⟩, hs⟩ := hs
    cases hs
    have hqueued : object.key ∈ queued options .copy recorded := by
      apply h.outstanding .copy
      unfold SyncRunner.outstanding
      rw [hphase]
      exact List.mem_append_left _ hrunning
    apply h.act hphase hrunning (increasing_put h.increasing object)
    · intro last hle
      exact later_put hle
    · intro other hne
      rw [mem_put]
      constructor
      · rintro (rfl | ⟨hin, -⟩)
        · exact absurd rfl hne
        · exact hin
      · exact fun hin => Or.inr ⟨hin, hne⟩
    · intro _
      exact ⟨object, mem_put.mpr (Or.inl rfl), rfl, hcopy⟩
    · intro hdelete
      exact absurd hdelete (h.queued_once hsource hinitial hqueued)
  · cases hs

theorem inv_deleted (h : Inv options source initial recorded s) (hsource : Increasing source)
    (hinitial : Increasing initial) {key : String}
    (hs : step options source s (.deleted key) = some s') :
    Inv options source initial recorded s' := by
  simp only [step] at hs
  split at hs
  · rename_i running waiting completed hphase
    simp only [Option.ite_none_right_eq_some] at hs
    obtain ⟨hrunning, hs⟩ := hs
    cases hs
    have hqueued : key ∈ queued options .delete recorded := by
      apply h.outstanding .delete
      unfold SyncRunner.outstanding
      rw [hphase]
      exact List.mem_append_left _ hrunning
    apply h.act hphase hrunning (increasing_remove h.increasing key)
    · intro last hle
      exact later_remove hle
    · intro other hne
      rw [mem_remove]
      exact and_iff_left hne
    · intro hcopy
      exact absurd hqueued (h.queued_once hsource hinitial hcopy)
    · intro _ object hin
      exact (mem_remove.mp hin).2
  · cases hs

theorem inv_collect (h : Inv options source initial recorded s)
    (hs : step options source s .collect = some s') : Inv options source initial recorded s' := by
  simp only [step] at hs
  split at hs
  · rename_i action completed hphase
    cases hs
    have hcounted : completed = (s.batch action).length := by
      have hcounted := h.counted
      unfold SyncRunner.Counted at hcounted
      rw [hphase] at hcounted
      exact hcounted
    have hout : ∀ acted, (s.collect completed action).outstanding acted = s.outstanding acted := by
      intro acted
      unfold SyncRunner.outstanding
      rw [hphase]
      cases action <;> cases acted <;> rfl
    apply h.frame (by cases action <;> rfl) hout
    · intro acted
      rw [hcounted]
      cases action <;> cases acted <;> rfl
    · cases action <;> trivial
    · cases action <;> exact nofun
  · cases hs

theorem inv_finish (h : Inv options source initial recorded s)
    (hs : step options source s .finish = some s') : Inv options source initial recorded s' := by
  simp only [step, Option.ite_none_right_eq_some, Bool.and_eq_true, decide_eq_true_eq,
    List.isEmpty_iff] at hs
  obtain ⟨⟨⟨⟨hphase, hexhausted⟩, hcopies⟩, hdeletes⟩, hs⟩ := hs
  cases hs
  apply h.setPhase
  · intro action
    rw [outstanding_of_merging hphase]
    rfl
  · trivial
  · exact fun _ => ⟨hexhausted, hcopies, hdeletes⟩

theorem inv_step (h : Inv options source initial recorded s) (hsource : Increasing source)
    (hinitial : Increasing initial) {label : Label kind}
    (hs : step options source s label = some s') :
    ∃ recorded, Inv options source initial recorded s' := by
  cases label with
  | page size more => exact ⟨recorded, inv_page h hs⟩
  | entry =>
    obtain ⟨entry, h⟩ := inv_entry h hs
    exact ⟨recorded ++ [entry], h⟩
  | flush action => exact ⟨recorded, inv_flush h hs⟩
  | submit => exact ⟨recorded, inv_submit h hs⟩
  | copied object => exact ⟨recorded, inv_copied h hsource hinitial hs⟩
  | deleted key => exact ⟨recorded, inv_deleted h hsource hinitial hs⟩
  | collect => exact ⟨recorded, inv_collect h hs⟩
  | finish => exact ⟨recorded, inv_finish h hs⟩

theorem inv_reachable (hsource : Increasing source) (hinitial : Increasing initial)
    (h : Reachable options source initial s) : ∃ recorded, Inv options source initial recorded s := by
  apply Reached.invariant _ _ h
  · exact ⟨[], inv_started hinitial⟩
  · rintro s label s' ⟨recorded, hinv⟩ _ hs
    exact inv_step hinv hsource hinitial hs

end CurrentObjects
end BucketReef

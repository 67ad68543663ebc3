import BucketReef.Comparison.Remediation

/-!
# What a remediation resolves

A key that an action takes is resolved by it or reported as failed, whatever the order and the failures
of the remote calls, and no other key changes. So actions on all the differences of a comparison leave
only differences that they have reported.
-/

namespace BucketReef
namespace Comparison

open CurrentObjects Lists Purge Transitions

variable {kind : ContentKind} {source target target' : List (StoredObject kind)} {key : String}

/-! ## Differences by key -/

/-- The comparison reports a difference under the key. -/
def Unresolved (source target : List (StoredObject kind)) (key : String) : Prop :=
  (∃ object ∈ source, object.key = key ∧ needsCopy target object = true) ∨
    ∃ object ∈ target, object.key = key ∧ hasKey source key = false

/-- The targets have the same objects under the key. -/
def SameUnder (key : String) (target target' : List (StoredObject kind)) : Prop :=
  ∀ object : StoredObject kind, object.key = key → (object ∈ target' ↔ object ∈ target)

theorem SameUnder.refl (key : String) (target : List (StoredObject kind)) :
    SameUnder key target target :=
  fun _ _ => Iff.rfl

theorem SameUnder.trans {target'' : List (StoredObject kind)} (h : SameUnder key target target')
    (h' : SameUnder key target' target'') : SameUnder key target target'' :=
  fun object hkey => (h' object hkey).trans (h object hkey)

theorem kind_ne_matched (entry : BucketDiffEntry) :
    entry.kind ≠ .matched ↔ copyRequired entry = true ∨ deleteRequired true entry = true := by
  unfold copyRequired deleteRequired
  cases entry.kind <;> decide

theorem unresolved_iff (hsource : Increasing source) (htarget : Increasing target) :
    Unresolved source target key ↔
      ∃ entry ∈ bucketDiff source target, entry.kind ≠ .matched ∧ entry.key = key := by
  have hcopies : key ∈ ((bucketDiff source target).filter copyRequired).map BucketDiffEntry.key ↔
      ∃ object ∈ source, object.key = key ∧ needsCopy target object = true := by
    rw [copies_bucketDiff hsource htarget]
    simp only [List.mem_map, List.mem_filter]
    exact ⟨fun ⟨object, ⟨hin, hneeds⟩, hkey⟩ => ⟨object, hin, hkey, hneeds⟩,
      fun ⟨object, hin, hkey, hneeds⟩ => ⟨object, ⟨hin, hneeds⟩, hkey⟩⟩
  have hdeletes : key ∈ ((bucketDiff source target).filter (deleteRequired true)).map
      BucketDiffEntry.key ↔ ∃ object ∈ target, object.key = key ∧ hasKey source key = false := by
    rw [deletes_bucketDiff hsource htarget]
    simp only [List.mem_map, List.mem_filter, Bool.not_eq_true']
    constructor
    · rintro ⟨object, ⟨hin, hmissing⟩, rfl⟩
      exact ⟨object, hin, rfl, hmissing⟩
    · rintro ⟨object, hin, rfl, hmissing⟩
      exact ⟨object, ⟨hin, hmissing⟩, rfl⟩
  rw [Unresolved, ← hcopies, ← hdeletes]
  simp only [List.mem_map, List.mem_filter, kind_ne_matched]
  constructor
  · rintro (⟨entry, ⟨hin, hkind⟩, hkey⟩ | ⟨entry, ⟨hin, hkind⟩, hkey⟩)
    · exact ⟨entry, hin, .inl hkind, hkey⟩
    · exact ⟨entry, hin, .inr hkind, hkey⟩
  · rintro ⟨entry, hin, hkind | hkind, hkey⟩
    · exact .inl ⟨entry, ⟨hin, hkind⟩, hkey⟩
    · exact .inr ⟨entry, ⟨hin, hkind⟩, hkey⟩

theorem needsCopy_congr {object : StoredObject kind} (h : SameUnder object.key target target') :
    needsCopy target' object = needsCopy target object := by
  rw [Bool.eq_iff_iff, ← not_iff_not, Bool.not_eq_true, Bool.not_eq_true, needsCopy_eq_false,
    needsCopy_eq_false, hasKey_iff, hasKey_iff]
  refine and_congr (exists_congr fun other => ?_) (forall_congr' fun other => ?_)
  · exact and_congr_left fun hkey => h other hkey
  · constructor
    · exact fun hmatches hin hkey => hmatches ((h other hkey).mpr hin) hkey
    · exact fun hmatches hin hkey => hmatches ((h other hkey).mp hin) hkey

theorem SameUnder.unresolved (h : SameUnder key target target') :
    Unresolved source target' key ↔ Unresolved source target key := by
  refine or_congr (exists_congr fun object => and_congr_right fun _ => and_congr_right fun hkey => ?_)
    (exists_congr fun object => ?_)
  · subst hkey
    rw [needsCopy_congr h]
  · constructor
    · rintro ⟨hin, hkey, hmissing⟩
      exact ⟨(h object hkey).mp hin, hkey, hmissing⟩
    · rintro ⟨hin, hkey, hmissing⟩
      exact ⟨(h object hkey).mpr hin, hkey, hmissing⟩

section Copies

variable [DecidableEq kind.Content]

/-- A copy of the object of the source resolves its key. -/
theorem resolved_of_copy (hsource : Increasing source) (htarget : Increasing target)
    {copy : StoredObject kind} (hin : copy ∈ target) (hcopy : isCopy source copy = true) :
    ¬ Unresolved source target copy.key := by
  unfold isCopy at hcopy
  obtain ⟨original, horiginal, hsame⟩ := List.any_eq_true.mp hcopy
  rw [Bool.and_eq_true, decide_eq_true_eq, decide_eq_true_eq] at hsame
  obtain ⟨hkey, hcontent⟩ := hsame
  rintro (⟨object, hobject, hobjectKey, hneeds⟩ | ⟨object, -, -, hmissing⟩)
  · have heq : object = original := hsource.eq_of_key hobject horiginal (hobjectKey.trans hkey.symm)
    subst heq
    have hfine : needsCopy target object = false := by
      rw [needsCopy_eq_false]
      refine ⟨hkey ▸ hasKey_of_mem hin, fun other hother hotherKey => ?_⟩
      rw [htarget.eq_of_key hother hin (hotherKey.trans hkey)]
      exact matching_of_content hcontent
    rw [hfine] at hneeds
    cases hneeds
  · rw [← hkey, hasKey_of_mem horiginal] at hmissing
    cases hmissing

/-! ## Copies -/

/-- What the pool has done, key by key. -/
structure CopyInv (source initial : List (StoredObject kind)) (keys : List String)
    (s : CopyRunner kind) : Prop where
  increasing : Increasing s.target
  untouched : ∀ key, key ∉ keys → SameUnder key initial s.target
  copied : ∀ key ∈ s.succeeded, ∃ object ∈ s.target, object.key = key ∧ isCopy source object = true
  keys_perm : (s.waiting ++ s.running.map CopyTask.key ++ s.succeeded ++ s.failed).Perm keys

variable {initial : List (StoredObject kind)} {keys : List String} {s s' : CopyRunner kind}
  {task : CopyTask}

omit [DecidableEq kind.Content] in
theorem running_perm (htask : task ∈ s.running) :
    (s.running.map CopyTask.key).Perm (task.key :: (s.running.erase task).map CopyTask.key) :=
  (List.perm_cons_erase htask).map CopyTask.key

theorem CopyInv.key_mem (h : CopyInv source initial keys s) (htask : task ∈ s.running) :
    task.key ∈ keys := by
  refine h.keys_perm.subset ?_
  simp only [List.mem_append]
  exact .inl (.inl (.inr (List.mem_map_of_mem htask)))

/-- A task that ends adds its key to the results. -/
theorem CopyInv.moved_perm (h : CopyInv source initial keys s) (htask : task ∈ s.running)
    {succeeded failed : List String}
    (hresults : (succeeded ++ failed).Perm (task.key :: (s.succeeded ++ s.failed))) :
    (s.waiting ++ (s.running.erase task).map CopyTask.key ++ succeeded ++ failed).Perm keys := by
  refine List.Perm.trans ?_ h.keys_perm
  have hrunning := List.perm_iff_count.mp (running_perm htask)
  have hadded := List.perm_iff_count.mp hresults
  rw [List.perm_iff_count]
  intro key
  have hrunning := hrunning key
  have hadded := hadded key
  simp only [List.count_append, List.count_cons] at hrunning hadded ⊢
  omega

theorem CopyInv.next (h : CopyInv source initial keys s) (htask : task ∈ s.running) (call : CopyCall) :
    CopyInv source initial keys (s.next task call) where
  increasing := h.increasing
  untouched := h.untouched
  copied := h.copied
  keys_perm := by
    refine List.Perm.trans ?_ h.keys_perm
    exact (((running_perm htask).symm.append_left _).append_right _).append_right _

theorem CopyInv.fail (h : CopyInv source initial keys s) (htask : task ∈ s.running) :
    CopyInv source initial keys (s.fail task) where
  increasing := h.increasing
  untouched := h.untouched
  copied := h.copied
  keys_perm := h.moved_perm htask (by
    rw [CopyRunner.fail, ← List.append_assoc]
    exact List.perm_append_singleton _ _)

theorem CopyInv.store (h : CopyInv source initial keys s) (htask : task ∈ s.running)
    {object : StoredObject kind} (hkey : object.key = task.key) (hcopy : isCopy source object = true) :
    CopyInv source initial keys (s.store object) where
  increasing := increasing_put h.increasing object
  untouched key hkeys other hother := by
    have hne : other.key ≠ object.key := fun heq =>
      hkeys (hother ▸ heq ▸ hkey ▸ h.key_mem htask)
    rw [← h.untouched key hkeys other hother]
    show other ∈ put object s.target ↔ other ∈ s.target
    rw [mem_put]
    constructor
    · rintro (rfl | ⟨hin, -⟩)
      · exact absurd rfl hne
      · exact hin
    · exact fun hin => .inr ⟨hin, hne⟩
  copied key hin := by
    obtain ⟨copy, hmem, hcopyKey, hisCopy⟩ := h.copied key hin
    by_cases heq : copy.key = object.key
    · exact ⟨object, mem_put.mpr (.inl rfl), heq.symm.trans hcopyKey, hcopy⟩
    · exact ⟨copy, mem_put.mpr (.inr ⟨hmem, heq⟩), hcopyKey, hisCopy⟩
  keys_perm := h.keys_perm

theorem CopyInv.succeed (h : CopyInv source initial keys s) (htask : task ∈ s.running)
    (hcopied : ∃ object ∈ s.target, object.key = task.key ∧ isCopy source object = true) :
    CopyInv source initial keys (s.succeed task) where
  increasing := h.increasing
  untouched := h.untouched
  copied key hin := by
    rcases List.mem_append.mp hin with hin | hin
    · exact h.copied key hin
    · rw [List.mem_singleton.mp hin]
      exact hcopied
  keys_perm := h.moved_perm htask (by
    rw [CopyRunner.succeed, List.append_assoc]
    exact List.perm_middle)

theorem stores_iff {object : StoredObject kind} : stores source s task object = true ↔
    task ∈ s.running ∧ task.call ≠ .getObject ∧ object.key = task.key ∧
      isCopy source object = true := by
  simp only [stores, Bool.and_eq_true, decide_eq_true_eq, and_assoc]

theorem copyStep_inv {workers : ℕ} {sameEndpoint : Bool} {label : CopyLabel kind}
    (h : CopyInv source initial keys s)
    (hstep : copyStep source workers sameEndpoint s label = some s') :
    CopyInv source initial keys s' := by
  cases label with
  | start =>
    simp only [copyStep] at hstep
    split at hstep
    · cases hstep
    · rename_i key waiting hwaiting
      split at hstep
      · cases hstep
        refine ⟨h.increasing, h.untouched, h.copied, List.Perm.trans ?_ h.keys_perm⟩
        rw [hwaiting, List.map_cons]
        exact (List.perm_middle.append_right _).append_right _
      · cases hstep
  | denied task =>
    simp only [copyStep, Option.ite_none_right_eq_some, Option.some.injEq] at hstep
    obtain ⟨⟨htask, -⟩, rfl⟩ := hstep
    exact h.next htask .getObject
  | read task =>
    simp only [copyStep, Option.ite_none_right_eq_some, Option.some.injEq] at hstep
    obtain ⟨⟨htask, -, -⟩, rfl⟩ := hstep
    exact h.next htask .uploadFileobj
  | stored task object =>
    simp only [copyStep, Option.ite_none_right_eq_some, Option.some.injEq, stores_iff] at hstep
    obtain ⟨⟨htask, -, hkey, hcopy⟩, rfl⟩ := hstep
    exact (h.store htask hkey hcopy).succeed htask ⟨object, mem_put.mpr (.inl rfl), hkey, hcopy⟩
  | raised task =>
    simp only [copyStep, Option.ite_none_right_eq_some, Option.some.injEq] at hstep
    obtain ⟨htask, rfl⟩ := hstep
    exact h.fail htask
  | raisedStored task object =>
    simp only [copyStep, Option.ite_none_right_eq_some, Option.some.injEq, stores_iff] at hstep
    obtain ⟨⟨htask, -, hkey, hcopy⟩, rfl⟩ := hstep
    exact (h.store htask hkey hcopy).fail htask

theorem copyInv_start (hinitial : Increasing initial) :
    CopyInv source initial keys (CopyRunner.start initial keys) where
  increasing := hinitial
  untouched _ _ _ _ := Iff.rfl
  copied _ hin := by cases hin
  keys_perm := by
    simp only [CopyRunner.start, List.map_nil, List.append_nil]
    exact List.Perm.refl keys

theorem copyInv_of_reached {workers : ℕ} {sameEndpoint : Bool} (hinitial : Increasing initial)
    (h : Reached (copyStep source workers sameEndpoint) anyStep (CopyRunner.start initial keys) s) :
    CopyInv source initial keys s :=
  h.invariant (copyInv_start hinitial) fun _ _ _ hinv _ hstep => copyStep_inv hinv hstep

/-- Every key of a finished pool has succeeded or failed, each as often as it was given. -/
theorem CopyInv.completed (h : CopyInv source initial keys s) (hfinished : s.finished = true) :
    (s.succeeded ++ s.failed).Perm keys := by
  rw [CopyRunner.finished, Bool.and_eq_true, List.isEmpty_iff, List.isEmpty_iff] at hfinished
  have hperm := h.keys_perm
  rwa [hfinished.1, hfinished.2, List.map_nil, List.append_nil, List.nil_append] at hperm

end Copies

/-! ## Deletions -/

variable {sanitize : Sanitize} {chunk : List String} {failures : List ObjectDeletionFailure}

theorem collectFailures_key {items : List Item} {entries : List ErrorEntry}
    {known collected : List (Item × ObjectDeletionFailure)}
    (h : collectFailures sanitize items entries known = some collected)
    (hknown : ∀ entry ∈ known, entry.2.key = entry.1.key) :
    ∀ entry ∈ collected, entry.2.key = entry.1.key := by
  induction entries generalizing known with
  | nil =>
    cases h
    exact hknown
  | cons error rest ih =>
    rw [collectFailures] at h
    split at h
    · cases h
    · rename_i item hitem
      split at h
      · exact ih h hknown
      · refine ih h fun entry hentry => ?_
        rcases List.mem_append.mp hentry with hentry | hentry
        · exact hknown entry hentry
        · rw [List.mem_singleton.mp hentry]
          cases error <;> rfl

/-- S3 accepted what is not among the failures. -/
theorem accepts_of_not_failed {response : Response}
    (h : parseDeleteObjectsFailures sanitize (chunkObjects chunk) response = some failures)
    (hin : key ∈ chunk) (hnot : key ∉ failures.map ObjectDeletionFailure.key) :
    response.accepts ⟨key, none⟩ := by
  have hitem : (⟨key, none⟩ : Item) ∈ chunkObjects chunk := List.mem_map_of_mem hin
  unfold parseDeleteObjectsFailures at h
  split at h
  · cases h
  · cases h
  · trivial
  · obtain ⟨collected, hcollected, hfailures⟩ := Option.map_eq_some_iff.mp h
    have hkey := collectFailures_key hcollected (fun _ hentry => by cases hentry)
    have hfree : ∀ entry ∈ collected, entry.1 ≠ ⟨key, none⟩ := by
      intro entry hentry heq
      have hsome : (collected.find? fun entry => entry.1 = (⟨key, none⟩ : Item)).isSome = true :=
        List.find?_isSome.mpr ⟨entry, hentry, decide_eq_true heq⟩
      obtain ⟨found, hfound⟩ := Option.isSome_iff_exists.mp hsome
      refine hnot (List.mem_map.mpr ⟨found.2, ?_, ?_⟩)
      · rw [← hfailures]
        exact List.mem_filterMap.mpr ⟨_, hitem, by rw [hfound]; rfl⟩
      · have hnamed : found.1 = ⟨key, none⟩ := by simpa using List.find?_some hfound
        rw [hkey found (List.mem_of_find?_eq_some hfound), hnamed]
    intro named versionId code message herror hnamed
    subst hnamed
    obtain ⟨item, hidentity, entry, hentry, heq⟩ := (collectFailures_covers hcollected).2 _ herror
    constructor
    · rintro rfl
      rw [identity_of_names hitem hidentity (.inl rfl)] at heq
      exact hfree entry hentry heq
    · rintro version rfl hversion
      cases hversion

/-- What the deletion of the chunks does to the bucket. -/
structure Deleted (answers : List (List String × DeleteAnswer)) (target left : List (StoredObject kind))
    (outcome : Option (ℕ × List String)) : Prop where
  sublist : left.Sublist target
  untouched : ∀ key, (∀ answer ∈ answers, key ∉ answer.1) → SameUnder key target left
  removed : ∀ count failed, outcome = some (count, failed) → ∀ answer ∈ answers, ∀ key ∈ answer.1,
    key ∉ failed → ∀ object ∈ left, object.key ≠ key

theorem sameUnder_filter {removed : List String} (h : key ∉ removed) :
    SameUnder key target (target.filter fun object => object.key ∉ removed) := by
  intro object hkey
  simp [hkey, h]

theorem deleteObjects_spec {answers : List (List String × DeleteAnswer)}
    (hhonest : ∀ answer ∈ answers, answer.2.Honest answer.1) (target : List (StoredObject kind)) :
    Deleted answers target (deleteObjects sanitize answers target).1
      (deleteObjects sanitize answers target).2 := by
  induction answers generalizing target with
  | nil =>
    refine ⟨List.Sublist.refl _, fun key _ => SameUnder.refl key target, fun _ _ _ _ hin => ?_⟩
    cases hin
  | cons head rest ih =>
    obtain ⟨chunk, answer⟩ := head
    have hhead : answer.Honest chunk := hhonest (chunk, answer) List.mem_cons_self
    have hrest := ih (fun answer hin => hhonest answer (List.mem_cons_of_mem _ hin))
      (target.filter fun object => object.key ∉ answer.removed)
    have hkept : ∀ key, key ∉ chunk →
        SameUnder key target (target.filter fun object => object.key ∉ answer.removed) :=
      fun key hkey => sameUnder_filter fun hin => hkey (hhead.requested key hin)
    rw [deleteObjects]
    split
    · refine ⟨List.filter_sublist, fun key hkey => hkept key (hkey _ List.mem_cons_self),
        fun _ _ h => ?_⟩
      cases h
    · rename_i failures hparse
      obtain ⟨response, hresponse, hfailures⟩ := Option.bind_eq_some_iff.mp hparse
      refine ⟨hrest.sublist.trans List.filter_sublist, fun key hkey => ?_, ?_⟩
      · exact (hkept key (hkey _ List.mem_cons_self)).trans
          (hrest.untouched key fun answer hin => hkey answer (List.mem_cons_of_mem _ hin))
      · intro count failed h answer' hanswer' key hkey hnot object hobject
        obtain ⟨⟨count', failed'⟩, hcounts, heq⟩ := Option.map_eq_some_iff.mp h
        cases heq
        rw [List.mem_append, not_or, mem_sortedBy] at hnot
        rcases List.mem_cons.mp hanswer' with rfl | hlater
        · have hgone : key ∈ answer.removed :=
            hhead.accepted response hresponse key hkey (accepts_of_not_failed hfailures hkey hnot.1)
          have hleft := List.mem_filter.mp (hrest.sublist.subset hobject)
          rintro rfl
          exact of_decide_eq_true hleft.2 hgone
        · exact hrest.removed count' failed' hcounts answer' hlater key hkey hnot.2 object hobject

/-! ## Actions -/

variable {remediation : Remediation} {failed : List String}
  {result : Option BucketCompareRemediationResult}

theorem mem_keys_iff {answers : List (List String × DeleteAnswer)}
    (hslices : answers.map Prod.fst = slices 1000 remediation.keys) :
    key ∈ remediation.keys ↔ ∃ answer ∈ answers, key ∈ answer.1 := by
  rw [← flatten_slices (by decide : 0 < 1000) remediation.keys, ← hslices, List.mem_flatten]
  simp only [List.mem_map, exists_exists_and_eq_and]

/-- An action leaves the keys it does not take, and resolves those it takes and reports no failure of. -/
structure Resolves (source : List (StoredObject kind)) (remediation : Remediation)
    (target target' : List (StoredObject kind)) (failed : List String) : Prop where
  increasing : Increasing target'
  untouched : ∀ key, key ∉ remediation.keys → SameUnder key target target'
  resolved : ∀ key ∈ remediation.keys, key ∉ failed →
    (remediation.action = .deleteTargetOnly → hasKey source key = false) →
      ¬ Unresolved source target' key

theorem resolves_of_deleted {answers : List (List String × DeleteAnswer)}
    {left : List (StoredObject kind)} {outcome : Option (ℕ × List String)}
    (htarget : Increasing target) (haction : remediation.action = .deleteTargetOnly)
    (hslices : answers.map Prod.fst = slices 1000 remediation.keys)
    (hspec : Deleted answers target left outcome)
    (hfailed : ∀ key ∈ remediation.keys, key ∉ failed →
      ∃ count reported, outcome = some (count, reported) ∧ key ∉ reported) :
    Resolves source remediation target left failed where
  increasing := htarget.sublist hspec.sublist
  untouched key hkey := hspec.untouched key fun answer hanswer hin =>
    hkey ((mem_keys_iff hslices).mpr ⟨answer, hanswer, hin⟩)
  resolved key hkey hnot hmissing := by
    obtain ⟨count, reported, houtcome, hreported⟩ := hfailed key hkey hnot
    obtain ⟨answer, hanswer, hin⟩ := (mem_keys_iff hslices).mp hkey
    rintro (⟨object, hobject, rfl, -⟩ | ⟨object, hobject, hobjectKey, -⟩)
    · have hpresent := hmissing haction
      rw [hasKey_of_mem hobject] at hpresent
      cases hpresent
    · exact hspec.removed count reported houtcome answer hanswer key hin hreported object hobject
        hobjectKey

/-! ## The comparison afterwards -/

theorem kept_none (listing source target : CompareListing kind) :
    listing.kept (isKept source target none) = listing.objects :=
  List.filter_eq_self.mpr fun _ _ => rfl

/-- The comparison reports no difference where all the entries of the diff match. -/
theorem hasContentDifferences_eq_false {source target : CompareListing kind}
    (h : ∀ entry ∈ bucketDiff source.objects target.objects, entry.kind = .matched) :
    hasContentDifferences (compareBucketContent source target none) = false := by
  have hsummary := syncDiff_eq_summary source target none
  rw [kept_none, kept_none] at hsummary
  have hzero : ∀ k : DiffKind, k ≠ .matched →
      (bucketDiff source.objects target.objects).countP (fun entry => entry.kind = k) = 0 := by
    intro k hk
    rw [List.countP_eq_zero]
    intro entry hentry heq
    exact hk ((of_decide_eq_true heq).symm.trans (h entry hentry))
  have hdifferent : (compareBucketContent source target none).differentCount = 0 :=
    (congrArg SyncDiff.differentCount hsummary).trans (hzero .different (by decide))
  have honlySource : (compareBucketContent source target none).onlySourceCount = 0 :=
    (congrArg SyncDiff.onlySourceCount hsummary).trans (hzero .onlySource (by decide))
  have honlyTarget : (compareBucketContent source target none).onlyTargetCount = 0 :=
    (congrArg SyncDiff.onlyTargetCount hsummary).trans (hzero .onlyTarget (by decide))
  rw [hasContentDifferences, hdifferent, honlySource, honlyTarget]
  rfl

theorem not_hasKey_of_onlyTarget {entry : BucketDiffEntry} (hsource : Increasing source)
    (htarget : Increasing target) (hentry : entry ∈ bucketDiff source target)
    (hkind : entry.kind = .onlyTarget) : hasKey source entry.key = false := by
  have hmem : entry.key ∈
      ((bucketDiff source target).filter (deleteRequired true)).map BucketDiffEntry.key :=
    List.mem_map_of_mem (List.mem_filter.mpr ⟨hentry, by simp [deleteRequired, hkind]⟩)
  rw [deletes_bucketDiff hsource htarget] at hmem
  obtain ⟨object, hobject, hkey⟩ := List.mem_map.mp hmem
  rw [← hkey]
  simpa using (List.mem_filter.mp hobject).2

section Actions

variable [DecidableEq kind.Content]

theorem Remediated.resolves (hsource : Increasing source) (htarget : Increasing target)
    (h : Remediated sanitize source remediation target target' failed result) :
    Resolves source remediation target target' failed := by
  cases h with
  | copied haction hreached hfinished =>
    have hinv := copyInv_of_reached htarget hreached
    refine ⟨hinv.increasing, hinv.untouched, fun key hkey hnot _ => ?_⟩
    have hcompleted := (hinv.completed hfinished).symm.subset hkey
    obtain ⟨copy, hin, rfl, hcopy⟩ :=
      hinv.copied key ((List.mem_append.mp hcompleted).resolve_right hnot)
    exact resolved_of_copy hsource hinv.increasing hin hcopy
  | @deleted answers left count failed haction hslices hhonest hdeleted =>
    have hspec : Deleted answers target (deleteObjects sanitize answers target).1
        (deleteObjects sanitize answers target).2 := deleteObjects_spec hhonest target
    rw [hdeleted] at hspec
    exact resolves_of_deleted htarget haction hslices hspec fun key _ hnot => ⟨_, _, rfl, hnot⟩
  | @raised answers left haction hslices hhonest hdeleted =>
    have hspec : Deleted answers target (deleteObjects sanitize answers target).1
        (deleteObjects sanitize answers target).2 := deleteObjects_spec hhonest target
    rw [hdeleted] at hspec
    exact resolves_of_deleted htarget haction hslices hspec fun key hkey hnot => absurd hkey hnot

/-! ## All the actions -/

variable {remediations : List Remediation}

theorem RemediatedAll.resolves (hsource : Increasing source) (htarget : Increasing target)
    (h : RemediatedAll sanitize source remediations target target' failed)
    (hdelete : ∀ remediation ∈ remediations, remediation.action = .deleteTargetOnly →
      ∀ key ∈ remediation.keys, hasKey source key = false)
    (hselected : Unresolved source target key → ∃ remediation ∈ remediations, key ∈ remediation.keys)
    (hnot : key ∉ failed) : Increasing target' ∧ ¬ Unresolved source target' key := by
  induction h with
  | nil target =>
    refine ⟨htarget, fun hunresolved => ?_⟩
    obtain ⟨remediation, hin, -⟩ := hselected hunresolved
    cases hin
  | @cons remediation rest target next last failed failed' result hfirst hrest ih =>
    rw [List.mem_append, not_or] at hnot
    have hresolves := hfirst.resolves hsource htarget
    refine ih hresolves.increasing (fun other hin => hdelete other (List.mem_cons_of_mem _ hin))
      (fun hunresolved => ?_) hnot.2
    by_cases hkey : key ∈ remediation.keys
    · exact absurd hunresolved (hresolves.resolved key hkey hnot.1 fun haction =>
        hdelete remediation List.mem_cons_self haction key hkey)
    · rw [(hresolves.untouched key hkey).unresolved] at hunresolved
      obtain ⟨other, hin, hother⟩ := hselected hunresolved
      rcases List.mem_cons.mp hin with rfl | hin
      · exact absurd hother hkey
      · exact ⟨other, hin, hother⟩

theorem RemediatedAll.untouched (hsource : Increasing source) (htarget : Increasing target)
    (h : RemediatedAll sanitize source remediations target target' failed)
    (hkey : ∀ remediation ∈ remediations, key ∉ remediation.keys) : SameUnder key target target' := by
  induction h with
  | nil target => exact SameUnder.refl key target
  | @cons remediation rest target next last failed failed' result hfirst hrest ih =>
    have hresolves := hfirst.resolves hsource htarget
    have hlater : SameUnder key next last :=
      ih hresolves.increasing fun other hin => hkey other (List.mem_cons_of_mem _ hin)
    exact (hresolves.untouched key (hkey _ List.mem_cons_self)).trans hlater

/-- Actions that take every difference of a comparison, and delete only what it lists for the target
alone: what differs afterwards has been reported as failed, the keys that no action takes keep their
objects, and without failures a new comparison finds no difference. -/
theorem remediation_resolves {source target target' : CompareListing kind}
    (h : RemediatedAll sanitize source.objects remediations target.objects target'.objects failed)
    (hdelete : ∀ remediation ∈ remediations, remediation.action = .deleteTargetOnly →
      ∀ key ∈ remediation.keys, ∃ entry ∈ bucketDiff source.objects target.objects,
        entry.kind = .onlyTarget ∧ entry.key = key)
    (hselected : ∀ entry ∈ bucketDiff source.objects target.objects, entry.kind ≠ .matched →
      ∃ remediation ∈ remediations, entry.key ∈ remediation.keys) :
    (∀ entry ∈ bucketDiff source.objects target'.objects, entry.kind ≠ .matched →
      entry.key ∈ failed) ∧
    (∀ key, (∀ remediation ∈ remediations, key ∉ remediation.keys) →
      SameUnder key target.objects target'.objects) ∧
    (failed = [] → hasContentDifferences (compareBucketContent source target' none) = false) := by
  have hreported : ∀ entry ∈ bucketDiff source.objects target'.objects, entry.kind ≠ .matched →
      entry.key ∈ failed := by
    intro entry hentry hkind
    by_contra hnot
    have hresolved : Increasing target'.objects ∧
        ¬ Unresolved source.objects target'.objects entry.key :=
      h.resolves source.increasing target.increasing (fun remediation hin haction key hkey => by
        obtain ⟨listed, hlisted, honly, rfl⟩ := hdelete remediation hin haction key hkey
        exact not_hasKey_of_onlyTarget source.increasing target.increasing hlisted honly)
      (fun hunresolved => by
        obtain ⟨listed, hlisted, hdiffers, hkey⟩ :=
          (unresolved_iff source.increasing target.increasing).mp hunresolved
        rw [← hkey]
        exact hselected listed hlisted hdiffers) hnot
    exact hresolved.2 ((unresolved_iff source.increasing target'.increasing).mpr
      ⟨entry, hentry, hkind, rfl⟩)
  refine ⟨hreported, fun key hkey => h.untouched source.increasing target.increasing hkey,
    fun hnone => hasContentDifferences_eq_false fun entry hentry => ?_⟩
  by_contra hkind
  have hin := hreported entry hentry hkind
  rw [hnone] at hin
  cases hin

end Actions

/-! A bucket with another object: one action deletes it, the next copies the missing one. -/

def single (object : StoredObject textKind) : CompareListing textKind where
  objects := [object]
  increasing := List.pairwise_singleton _ _
  lastModified := fun _ => none
  storageClass := fun _ => none
  pages := [⟨[object], none⟩]
  split := @Integrity.ObjectSplit.last _ ⟨[object], none⟩ rfl

def deleteOther : Remediation := ⟨.deleteTargetOnly, ["w"], false, 4, 50⟩

def copyMissing : Remediation := ⟨.syncSourceOnly, ["x"], true, 4, 50⟩

theorem remediation_resolves_swap :
    hasContentDifferences (compareBucketContent (single (untagged "x" "a")) (single (untagged "x" "a"))
      none) = false := by
  have hdeleted : Remediated id [untagged "x" "a"] deleteOther [untagged "w" "a"] [] []
      (some (deleteOther.result 1 [])) := by
    refine @Remediated.deleted _ _ _ _ _ _ [(["w"], ⟨["w"], some .withoutErrors⟩)] _ _ _ rfl rfl ?_ rfl
    intro answer hanswer
    rw [List.mem_singleton.mp hanswer]
    exact ⟨fun _ hin => hin, fun _ _ _ hin _ => hin⟩
  have hcopied : Remediated id [untagged "x" "a"] copyMissing [] [untagged "x" "a"] []
      (some (copyMissing.result 1 [])) := by
    have hstart : copyStep [untagged "x" "a"] (workerCount 4 ["x"]) true (CopyRunner.start [] ["x"])
        .start = some ⟨[], [], [⟨"x", .copyObject⟩], [], []⟩ := rfl
    have hstored : copyStep [untagged "x" "a"] (workerCount 4 ["x"]) true
        ⟨[], [], [⟨"x", .copyObject⟩], [], []⟩ (.stored ⟨"x", .copyObject⟩ (untagged "x" "a")) =
          some ⟨[untagged "x" "a"], [], [], ["x"], []⟩ := by
      have hstores : stores [untagged "x" "a"] ⟨[], [], [⟨"x", .copyObject⟩], [], []⟩
          ⟨"x", .copyObject⟩ (untagged "x" "a") = true := by decide +kernel
      rw [copyStep, if_pos hstores]
      simp [CopyRunner.store, CopyRunner.succeed, put]
    exact @Remediated.copied _ _ _ _ copyMissing _ _ (by decide)
      ((Reached.init.step trivial hstart).step trivial hstored) rfl
  have hdiff : bucketDiff [untagged "x" "a"] [untagged "w" "a"] =
      [onlyTargetEntry (untagged "w" "a").entry, onlySourceEntry (untagged "x" "a").entry] := by
    decide +kernel
  refine (@remediation_resolves _ id _ _ _ (single (untagged "x" "a")) (single (untagged "w" "a"))
    (single (untagged "x" "a")) (.cons hdeleted (.cons hcopied (.nil _))) ?_ ?_).2.2 rfl
  · intro remediation hin haction key hkey
    rcases List.mem_pair.mp hin with rfl | rfl
    · refine ⟨onlyTargetEntry (untagged "w" "a").entry, ?_, rfl, (List.mem_singleton.mp hkey).symm⟩
      show _ ∈ bucketDiff [untagged "x" "a"] [untagged "w" "a"]
      rw [hdiff]
      exact List.mem_cons_self
    · cases haction
  · intro entry hentry hkind
    change entry ∈ bucketDiff [untagged "x" "a"] [untagged "w" "a"] at hentry
    rw [hdiff] at hentry
    rcases List.mem_pair.mp hentry with rfl | rfl
    · exact ⟨deleteOther, List.mem_cons_self, List.mem_singleton.mpr rfl⟩
    · exact ⟨copyMissing, List.mem_cons_of_mem _ List.mem_cons_self, List.mem_singleton.mpr rfl⟩

end Comparison
end BucketReef

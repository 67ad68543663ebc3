import BucketReef.Leases.OperationLease

/-!
# Mutual exclusion of operation leases

A handle in force is the row of its name, so two handles in force are of one owner, and of two
handles of one owner the later acquisition replaces the earlier. A release writes no row of another
owner; of its own owner it ends whatever lease the owner holds.
-/

namespace BucketReef
namespace Leases

open Scheduling Transitions

/-! ## The invariant -/

/-- The handle is still the last acquisition of its owner, and no release matched it. -/
def Returned.current (r : Returned) : Bool := !r.released && !r.replaced && !r.ended

theorem Returned.inForce_iff {clock : ℕ} {r : Returned} :
    r.inForce clock = true ↔ r.current = true ∧ clock < r.handle.leaseUntil := by
  simp only [inForce, held, current, Bool.and_eq_true, decide_eq_true_eq]
  tauto

/-- What a process relies on between its statements. -/
def Phase.Settled (s : State) (process : ℕ) : Phase → Prop
  | .updating call => call.now ≤ s.clock
  | .updated call => s.lock call.name = some process ∧
      ∃ row, s.table call.name = some row ∧ (row.leaseUntil ≤ s.clock ∨ row.leaseOwner = call.leaseOwner)
  | .inserted call => s.lock call.name = some process ∧ s.table call.name = none
  | .released call true => s.lock call.handle.operationName = some process ∧
      ∃ row, s.table call.handle.operationName = some row ∧ row.leaseOwner = call.handle.owner
  | _ => True

/-- The returned handle a phase works with. -/
def Phase.uses : Phase → Option (ℕ × OperationLeaseHandle)
  | .working index handle => some (index, handle)
  | .releasing call | .released call _ => some (call.index, call.handle)
  | _ => none

structure Inv (s : State) : Prop where
  /-- An unexpired current handle is the row of its name. -/
  backed : ∀ r ∈ s.handles, r.current = true → s.clock < r.handle.leaseUntil →
    s.table r.handle.operationName = some ⟨r.handle.owner, r.handle.leaseUntil⟩
  /-- Two current handles of one name have different owners. -/
  single : s.handles.Pairwise fun r r' => r.current = true → r'.current = true →
    r.handle.operationName = r'.handle.operationName → r.handle.owner ≠ r'.handle.owner
  settled : ∀ process, (s.phase process).Settled s process
  known : ∀ process index handle, (s.phase process).uses = some (index, handle) →
    (s.handles[index]?).map Returned.handle = some handle

theorem init_inv (clock : ℕ) : Inv (State.init clock) where
  backed := by simp [State.init]
  single := by simp [State.init]
  settled _ := trivial
  known _ _ _ h := by cases h

/-! ## Frames -/

/-- A process relies on the clock not going back, and on the rows it has locked. -/
theorem Phase.Settled.frame {s s' : State} {process : ℕ} {phase : Phase}
    (h : phase.Settled s process) (hclock : s.clock ≤ s'.clock)
    (hlocked : ∀ name, s.lock name = some process →
      s'.lock name = some process ∧ s'.table name = s.table name) :
    phase.Settled s' process := by
  cases phase with
  | updating call => exact le_trans h hclock
  | updated call =>
    obtain ⟨hlock, row, hrow, htakes⟩ := h
    obtain ⟨hlock', htable⟩ := hlocked _ hlock
    exact ⟨hlock', row, htable.trans hrow, htakes.imp_left fun hle => hle.trans hclock⟩
  | inserted call =>
    obtain ⟨hlock, hnone⟩ := h
    obtain ⟨hlock', htable⟩ := hlocked _ hlock
    exact ⟨hlock', htable.trans hnone⟩
  | released call matched =>
    cases matched with
    | false => trivial
    | true =>
      obtain ⟨hlock, row, hrow, howner⟩ := h
      obtain ⟨hlock', htable⟩ := hlocked _ hlock
      exact ⟨hlock', row, htable.trans hrow, howner⟩
  | idle => trivial
  | inserting call => trivial
  | working index handle => trivial
  | releasing call => trivial

/-- An open transaction holds the lock of the row it wrote. -/
theorem Phase.Settled.lock {s : State} {process : ℕ} {phase : Phase} {name : String}
    (h : phase.Settled s process) (hwrites : phase.writes = some name) :
    s.lock name = some process := by
  cases phase with
  | updated call =>
    cases hwrites
    exact h.1
  | inserted call =>
    cases hwrites
    exact h.1
  | released call matched =>
    cases matched with
    | false => cases hwrites
    | true =>
      cases hwrites
      exact h.1
  | idle => cases hwrites
  | updating call => cases hwrites
  | inserting call => cases hwrites
  | working index handle => cases hwrites
  | releasing call => cases hwrites

/-- A process goes on to a phase it may be in; the other processes keep their locked rows. -/
theorem Inv.move {s s' : State} (h : Inv s) {process : ℕ} {phase : Phase}
    (hclock : s'.clock = s.clock) (htable : s'.table = s.table) (hhandles : s'.handles = s.handles)
    (hphase : s'.phase = Function.update s.phase process phase)
    (hlock : ∀ other name, other ≠ process → s.lock name = some other → s'.lock name = some other)
    (hsettled : phase.Settled s' process)
    (hknown : ∀ index handle, phase.uses = some (index, handle) →
      (s.handles[index]?).map Returned.handle = some handle) : Inv s' where
  backed := by
    rw [hclock, htable, hhandles]
    exact h.backed
  single := by
    rw [hhandles]
    exact h.single
  settled other := by
    rw [hphase]
    by_cases hother : other = process
    · subst hother
      rwa [Function.update_self]
    · rw [Function.update_of_ne hother]
      refine (h.settled other).frame hclock.ge ?_
      intro name hname
      exact ⟨hlock other name hother hname, congrFun htable name⟩
  known other index handle huses := by
    rw [hphase] at huses
    rw [hhandles]
    by_cases hother : other = process
    · subst hother
      rw [Function.update_self] at huses
      exact hknown index handle huses
    · rw [Function.update_of_ne hother] at huses
      exact h.known other index handle huses

theorem Inv.setPhase {s : State} (h : Inv s) {process : ℕ} {phase : Phase}
    (hsettled : phase.Settled s process)
    (hknown : ∀ index handle, phase.uses = some (index, handle) →
      (s.handles[index]?).map Returned.handle = some handle) :
    Inv (s.setPhase process phase) := by
  refine h.move rfl rfl rfl rfl (fun _ _ _ hname => hname) ?_ hknown
  exact hsettled.frame le_rfl fun _ hname => ⟨hname, rfl⟩

theorem Inv.takeLock {s : State} (h : Inv s) {process : ℕ} {phase : Phase} {name : String}
    (hfree : s.lock name = none)
    (hsettled : phase.Settled ((s.takeLock process name).setPhase process phase) process)
    (hknown : ∀ index handle, phase.uses = some (index, handle) →
      (s.handles[index]?).map Returned.handle = some handle) :
    Inv ((s.takeLock process name).setPhase process phase) := by
  refine h.move rfl rfl rfl rfl ?_ hsettled hknown
  intro other name' _ hname'
  show Function.update s.lock name (some process) name' = some other
  rw [Function.update_of_ne]
  · exact hname'
  · rintro rfl
    rw [hfree] at hname'
    cases hname'

theorem Inv.abort {s : State} (h : Inv s) (process : ℕ) : Inv (s.abort process) := by
  unfold State.abort
  split
  · rename_i name hwrites
    have hmine := (h.settled process).lock hwrites
    refine h.move rfl rfl rfl rfl ?_ trivial (fun _ _ huses => by cases huses)
    intro other name' hother hname'
    show Function.update s.lock name none name' = some other
    rw [Function.update_of_ne]
    · exact hname'
    · rintro rfl
      rw [hmine] at hname'
      cases hname'
      exact hother rfl
  · exact h.setPhase trivial fun _ _ huses => by cases huses

/-! ## Commits -/

@[simp] theorem Returned.replace_handle (name owner : String) (r : Returned) :
    (r.replace name owner).handle = r.handle := by
  unfold replace
  split <;> rfl

@[simp] theorem Returned.finish_handle (name owner : String) (r : Returned) :
    (r.finish name owner).handle = r.handle := by
  unfold finish
  split <;> rfl

theorem Returned.current_replace {name owner : String} {r : Returned} :
    (r.replace name owner).current = true ↔ r.current = true ∧ r.sameLease name owner = false := by
  unfold replace
  split <;> rename_i h <;> simp [current, h]

theorem Returned.current_finish {name owner : String} {r : Returned} :
    (r.finish name owner).current = true ↔ r.current = true ∧ r.sameLease name owner = false := by
  unfold finish
  split <;> rename_i h <;> simp [current, h]

theorem Returned.sameLease_eq_false {name owner : String} {r : Returned} :
    r.sameLease name owner = false ↔ (r.handle.operationName = name → r.handle.owner ≠ owner) := by
  simp [sameLease]

/-- Marking handles leaves fewer of them current. -/
theorem Inv.single_map {handles : List Returned} {mark : Returned → Returned}
    (h : handles.Pairwise fun r r' => r.current = true → r'.current = true →
      r.handle.operationName = r'.handle.operationName → r.handle.owner ≠ r'.handle.owner)
    (hhandle : ∀ r, (mark r).handle = r.handle)
    (hcurrent : ∀ r, (mark r).current = true → r.current = true) :
    (handles.map mark).Pairwise fun r r' => r.current = true → r'.current = true →
      r.handle.operationName = r'.handle.operationName → r.handle.owner ≠ r'.handle.owner := by
  rw [List.pairwise_map]
  refine h.imp ?_
  intro r r' hrr hr hr'
  rw [hhandle, hhandle]
  exact hrr (hcurrent r hr) (hcurrent r' hr')

/-- The row an acquisition overwrites is no lease of another owner that still runs. -/
def Overwrites (s : State) (call : AcquireCall) : Prop :=
  ∀ row, s.table call.name = some row → row.leaseUntil ≤ s.clock ∨ row.leaseOwner = call.leaseOwner

/-- A handle that survives an acquisition of the same name is of another owner and has expired. -/
theorem Inv.expired_of_overwrites {s : State} (h : Inv s) {call : AcquireCall}
    (hover : Overwrites s call) {r : Returned} (hr : r ∈ s.handles) (hcurrent : r.current = true)
    (hother : r.sameLease call.name call.leaseOwner = false)
    (hname : r.handle.operationName = call.name) : r.handle.leaseUntil ≤ s.clock := by
  by_contra hlive
  have hrow := h.backed r hr hcurrent (by omega)
  rw [hname] at hrow
  rcases hover _ hrow with hexpired | howner
  · exact hlive hexpired
  · exact Returned.sameLease_eq_false.mp hother hname howner

theorem Inv.commitAcquire {s : State} (h : Inv s) {process : ℕ} {call : AcquireCall}
    (hlock : s.lock call.name = some process) (hover : Overwrites s call) (returns : Bool) :
    Inv (s.commitAcquire process call returns) := by
  -- the marked handles, on the new table
  have hbacked : ∀ r ∈ s.handles.map (Returned.replace call.name call.leaseOwner),
      r.current = true → s.clock < r.handle.leaseUntil →
        Function.update s.table call.name (some call.row) r.handle.operationName =
          some ⟨r.handle.owner, r.handle.leaseUntil⟩ := by
    intro r hr hcurrent hlive
    obtain ⟨old, hold, rfl⟩ := List.mem_map.mp hr
    obtain ⟨hcurrent, hother⟩ := Returned.current_replace.mp hcurrent
    rw [Returned.replace_handle] at hlive ⊢
    rw [Function.update_of_ne]
    · exact h.backed old hold hcurrent hlive
    · intro hname
      have := h.expired_of_overwrites hover hold hcurrent hother hname
      omega
  have hsingle := Inv.single_map h.single
    (Returned.replace_handle call.name call.leaseOwner)
    (fun r hr => (Returned.current_replace.mp hr).1)
  have hothers : ∀ other, other ≠ process → (s.phase other).Settled
      { s with
        table := Function.update s.table call.name (some call.row)
        lock := Function.update s.lock call.name none } other := by
    intro other hother
    refine (h.settled other).frame le_rfl ?_
    intro name hname
    have hne : name ≠ call.name := by
      rintro rfl
      rw [hlock] at hname
      cases hname
      exact hother rfl
    show Function.update s.lock call.name none name = _ ∧ Function.update s.table _ _ name = _
    rw [Function.update_of_ne hne, Function.update_of_ne hne]
    exact ⟨hname, rfl⟩
  have hknown : ∀ other index handle, (s.phase other).uses = some (index, handle) →
      ((s.handles.map (Returned.replace call.name call.leaseOwner))[index]?).map Returned.handle =
        some handle := by
    intro other index handle huses
    rw [List.getElem?_map, Option.map_map, ← h.known other index handle huses]
    congr 1
    funext r
    exact Returned.replace_handle ..
  cases returns with
  | false =>
    refine ⟨hbacked, hsingle, ?_, ?_⟩
    · intro other
      show (Function.update s.phase process .idle other).Settled _ _
      by_cases hother : other = process
      · rw [hother, Function.update_self]
        trivial
      · rw [Function.update_of_ne hother]
        exact (hothers other hother).frame le_rfl fun _ hname => ⟨hname, rfl⟩
    · intro other index handle huses
      change (Function.update s.phase process .idle other).uses = _ at huses
      by_cases hother : other = process
      · rw [hother, Function.update_self] at huses
        cases huses
      · rw [Function.update_of_ne hother] at huses
        exact hknown other index handle huses
  | true =>
    refine ⟨?_, ?_, ?_, ?_⟩
    · intro r hr hcurrent hlive
      rcases List.mem_append.mp hr with hr | hr
      · exact hbacked r hr hcurrent hlive
      · rw [List.mem_singleton.mp hr]
        exact Function.update_self ..
    · show (_ ++ [_]).Pairwise _
      rw [List.pairwise_append]
      refine ⟨hsingle, List.pairwise_singleton _ _, ?_⟩
      intro r hr r' hr' hcurrent _ hname
      rw [List.mem_singleton.mp hr'] at hname ⊢
      obtain ⟨r, _, rfl⟩ := List.mem_map.mp hr
      rw [Returned.replace_handle] at hname ⊢
      exact Returned.sameLease_eq_false.mp (Returned.current_replace.mp hcurrent).2 hname
    · intro other
      show (Function.update s.phase process _ other).Settled _ _
      by_cases hother : other = process
      · rw [hother, Function.update_self]
        split <;> trivial
      · rw [Function.update_of_ne hother]
        exact (hothers other hother).frame le_rfl fun _ hname => ⟨hname, rfl⟩
    · intro other index handle huses
      change (Function.update s.phase process _ other).uses = _ at huses
      show ((_ ++ [_])[index]?).map Returned.handle = some handle
      by_cases hother : other = process
      · rw [hother, Function.update_self] at huses
        split at huses
        · cases huses
          rw [List.getElem?_append_right le_rfl, Nat.sub_self]
          rfl
        · cases huses
      · rw [Function.update_of_ne hother] at huses
        have hold := hknown other index handle huses
        have hlt : index < (s.handles.map (Returned.replace call.name call.leaseOwner)).length := by
          by_contra hge
          rw [List.getElem?_eq_none (by omega)] at hold
          cases hold
        exact (congrArg _ (List.getElem?_append_left hlt)).trans hold

/-- What a release leaves current was current, and is of another lease when it matched the row. -/
theorem mem_markReleased {call : ReleaseCall} {matched : Bool} {handles : List Returned}
    {r : Returned} (hr : r ∈ State.markReleased call matched handles) (hcurrent : r.current = true) :
    r ∈ handles ∧
      (matched = true → r.sameLease call.handle.operationName call.handle.owner = false) := by
  have hmark : ∀ r ∈ handles.mapIdx (fun i r => if i = call.index then { r with released := true }
      else r), r.current = true → r ∈ handles := by
    intro r hr hcurrent
    obtain ⟨i, hi, rfl⟩ := List.mem_mapIdx.mp hr
    split at hcurrent
    · simp [Returned.current] at hcurrent
    · rename_i hne
      rw [if_neg hne]
      exact List.getElem_mem hi
  cases matched with
  | false => exact ⟨hmark r hr hcurrent, by simp⟩
  | true =>
    obtain ⟨old, hold, rfl⟩ := List.mem_map.mp hr
    obtain ⟨hold', hother⟩ := Returned.current_finish.mp hcurrent
    have hsame : old.finish call.handle.operationName call.handle.owner = old := by
      rw [Returned.finish, if_neg (by simp [hother])]
    rw [hsame]
    exact ⟨hmark old hold hold', fun _ => hother⟩

theorem markReleased_single {call : ReleaseCall} {matched : Bool} {handles : List Returned}
    (h : handles.Pairwise fun r r' => r.current = true → r'.current = true →
      r.handle.operationName = r'.handle.operationName → r.handle.owner ≠ r'.handle.owner) :
    (State.markReleased call matched handles).Pairwise fun r r' =>
      r.current = true → r'.current = true →
        r.handle.operationName = r'.handle.operationName → r.handle.owner ≠ r'.handle.owner := by
  have hmark : (handles.mapIdx fun i r => if i = call.index then { r with released := true }
      else r).Pairwise fun r r' => r.current = true → r'.current = true →
        r.handle.operationName = r'.handle.operationName → r.handle.owner ≠ r'.handle.owner := by
    rw [List.pairwise_iff_getElem] at h ⊢
    intro i j hi hj hij
    rw [List.getElem_mapIdx, List.getElem_mapIdx]
    have := h i j (by simpa using hi) (by simpa using hj) hij
    intro hr hr'
    split at hr
    · simp [Returned.current] at hr
    split at hr'
    · simp [Returned.current] at hr'
    rename_i hne hne'
    rw [if_neg hne, if_neg hne']
    exact this hr hr'
  cases matched with
  | false => exact hmark
  | true =>
    exact Inv.single_map hmark (Returned.finish_handle _ _)
      fun r hr => (Returned.current_finish.mp hr).1

@[simp] theorem markReleased_handle (call : ReleaseCall) (matched : Bool) (handles : List Returned)
    (index : ℕ) :
    ((State.markReleased call matched handles)[index]?).map Returned.handle =
      (handles[index]?).map Returned.handle := by
  cases matched <;> simp only [State.markReleased, Bool.false_eq_true, if_true, if_false,
    List.getElem?_map, List.getElem?_mapIdx, Option.map_map]
  all_goals
    cases handles[index]? with
    | none => rfl
    | some r =>
      simp only [Option.map_some, Function.comp_apply, Returned.finish_handle]
      split <;> rfl

theorem Inv.commitRelease {s : State} (h : Inv s) {process : ℕ} {call : ReleaseCall}
    {matched : Bool} (hphase : s.phase process = .released call matched) :
    Inv (s.commitRelease process call matched) := by
  have hsettled := h.settled process
  rw [hphase] at hsettled
  have hphases : (s.commitRelease process call matched).phase =
      Function.update s.phase process .idle := by
    unfold State.commitRelease
    cases matched <;> rfl
  have hclock : (s.commitRelease process call matched).clock = s.clock := by
    unfold State.commitRelease
    cases matched <;> rfl
  have hhandles : (s.commitRelease process call matched).handles =
      State.markReleased call matched s.handles := by
    unfold State.commitRelease
    cases matched <;> rfl
  have htable : ∀ name, (matched = true → name ≠ call.handle.operationName) →
      (s.commitRelease process call matched).table name = s.table name ∧
        (s.commitRelease process call matched).lock name = s.lock name := by
    intro name hname
    unfold State.commitRelease
    cases matched with
    | false => exact ⟨rfl, rfl⟩
    | true => exact ⟨Function.update_of_ne (hname rfl) .., Function.update_of_ne (hname rfl) ..⟩
  refine ⟨?_, ?_, ?_, ?_⟩
  · intro r hr hcurrent hlive
    rw [hhandles] at hr
    rw [hclock] at hlive
    obtain ⟨hr, hother⟩ := mem_markReleased hr hcurrent
    have hrow := h.backed r hr hcurrent hlive
    rw [(htable r.handle.operationName ?_).1]
    · exact hrow
    · rintro rfl hname
      -- the matched row is of the owner of the handle
      obtain ⟨_, row, hmine, howner⟩ := hsettled
      rw [← hname, hrow] at hmine
      cases hmine
      exact Returned.sameLease_eq_false.mp (hother rfl) hname howner
  · rw [hhandles]
    exact markReleased_single h.single
  · intro other
    rw [hphases]
    by_cases hother : other = process
    · rw [hother, Function.update_self]
      trivial
    · rw [Function.update_of_ne hother]
      refine (h.settled other).frame hclock.ge ?_
      intro name hname
      have hsame := htable name ?_
      · exact ⟨hsame.2.trans hname, hsame.1⟩
      · rintro rfl rfl
        rw [hsettled.1] at hname
        cases hname
        exact hother rfl
  · intro other index handle huses
    rw [hphases] at huses
    rw [hhandles, markReleased_handle]
    by_cases hother : other = process
    · rw [hother, Function.update_self] at huses
      cases huses
    · rw [Function.update_of_ne hother] at huses
      exact h.known other index handle huses

/-! ## Every step keeps the invariant -/

theorem Inv.tick {s : State} (h : Inv s) (elapsed : ℕ) :
    Inv { s with clock := s.clock + elapsed } where
  backed r hr hcurrent hlive := h.backed r hr hcurrent (by
    have : s.clock + elapsed < r.handle.leaseUntil := hlive
    omega)
  single := h.single
  settled process := (h.settled process).frame (Nat.le_add_right _ _) fun _ hname => ⟨hname, rfl⟩
  known := h.known

theorem updateAcquire_inv {s s' : State} (h : Inv s) {process : ℕ} {call : AcquireCall}
    (hphase : s.phase process = .updating call) (hs : updateAcquire s process call = some s') :
    Inv s' := by
  have hnow : call.now ≤ s.clock := by
    have := h.settled process
    rwa [hphase] at this
  unfold updateAcquire at hs
  split at hs
  · rename_i hmatches
    obtain ⟨row, hrow, htakes⟩ := (Option.any_eq_true _ _).mp hmatches
    split at hs
    · rename_i hfree
      cases hs
      refine h.takeLock hfree ⟨Function.update_self .., row, hrow, ?_⟩ (fun _ _ huses => by cases huses)
      simp only [AcquireCall.takes, Bool.or_eq_true, decide_eq_true_eq] at htakes
      exact htakes.imp_left fun hle => hle.trans hnow
    · cases hs
  · cases hs
    exact h.setPhase trivial fun _ _ huses => by cases huses

theorem insertAcquire_inv {s s' : State} (h : Inv s) {process : ℕ} {call : AcquireCall}
    (hs : insertAcquire s process call = some s') : Inv s' := by
  unfold insertAcquire at hs
  split at hs
  · cases hs
    exact h.setPhase trivial fun _ _ huses => by cases huses
  · rename_i hnone
    split at hs
    · rename_i hfree
      cases hs
      refine h.takeLock hfree ⟨Function.update_self .., ?_⟩ (fun _ _ huses => by cases huses)
      show s.table call.name = none
      simpa using hnone
    · cases hs

theorem updateRelease_inv {s s' : State} (h : Inv s) {process : ℕ} {call : ReleaseCall}
    (hphase : s.phase process = .releasing call) (hs : updateRelease s process call = some s') :
    Inv s' := by
  have hknown := h.known process call.index call.handle (by rw [hphase]; rfl)
  simp only [updateRelease] at hs
  split at hs
  · rename_i hmatches
    obtain ⟨row, hrow, howner⟩ := (Option.any_eq_true _ _).mp hmatches
    split at hs
    · rename_i hfree
      cases hs
      refine h.takeLock hfree ⟨Function.update_self .., row, hrow, by simpa using howner⟩ ?_
      rintro index handle ⟨⟩
      exact hknown
    · cases hs
  · cases hs
    refine h.setPhase trivial ?_
    rintro index handle ⟨⟩
    exact hknown

theorem commit_inv {s s' : State} (h : Inv s) {process : ℕ} {outcome : CommitOutcome}
    (hs : step s (.commit process outcome) = some s') : Inv s' := by
  have hsettled := h.settled process
  simp only [step] at hs
  split at hs
  · rename_i call hphase
    rw [hphase] at hsettled
    obtain ⟨hlock, row, hrow, htakes⟩ := hsettled
    split at hs
    · cases hs
      exact h.abort process
    · cases hs
      refine h.commitAcquire hlock ?_ _
      intro row' hrow'
      rw [hrow] at hrow'
      cases hrow'
      exact htakes
  · rename_i call hphase
    rw [hphase] at hsettled
    obtain ⟨hlock, hnone⟩ := hsettled
    split at hs
    · cases hs
      exact h.abort process
    · cases hs
      refine h.commitAcquire hlock ?_ _
      intro row hrow
      rw [hnone] at hrow
      cases hrow
  · rename_i call matched hphase
    split at hs
    · cases hs
      exact h.abort process
    · cases hs
      exact h.commitRelease hphase
  · cases hs

theorem step_inv {s s' : State} {label : Label} (h : Inv s) (hs : step s label = some s') :
    Inv s' := by
  cases label with
  | tick elapsed =>
    cases hs
    exact h.tick elapsed
  | acquire process operationName owner ttlSeconds hold =>
    simp only [step, Option.ite_none_right_eq_some] at hs
    obtain ⟨_, hs⟩ := hs
    cases hs
    exact h.setPhase (le_refl s.clock) fun _ _ huses => by cases huses
  | update process =>
    simp only [step] at hs
    split at hs
    · exact updateAcquire_inv h ‹_› hs
    · exact updateRelease_inv h ‹_› hs
    · cases hs
  | insert process =>
    simp only [step] at hs
    split at hs
    · exact insertAcquire_inv h hs
    · cases hs
  | commit process outcome => exact commit_inv h hs
  | release process index =>
    simp only [step] at hs
    split at hs
    · rename_i r _ hindex
      cases hs
      refine h.setPhase trivial ?_
      rintro i handle ⟨⟩
      rw [hindex]
      rfl
    · cases hs
  | leave process =>
    simp only [step] at hs
    split at hs
    · rename_i index handle hphase
      cases hs
      refine h.setPhase trivial ?_
      rintro i handle' ⟨⟩
      exact h.known process index handle (by rw [hphase]; rfl)
    · cases hs
  | crash process =>
    cases hs
    exact h.abort process

theorem Reachable.inv {clock : ℕ} {s : State} (h : Reachable clock s) : Inv s :=
  Reached.invariant (init_inv clock) (fun _ _ _ hinv _ hs => step_inv hinv hs) h

/-! ## Handles of an owner that acquired once -/

/-- Every handle a release of its owner has ended stands beside the released handle. -/
def EndedByRelease (handles : List Returned) : Prop :=
  ∀ r ∈ handles, r.ended = true → ∃ q ∈ handles, q.released = true ∧
    q.sameLease r.handle.operationName r.handle.owner = true

theorem endedByRelease_replace {handles : List Returned} (h : EndedByRelease handles)
    (name owner : String) : EndedByRelease (handles.map (Returned.replace name owner)) := by
  have hflags : ∀ r : Returned, (r.replace name owner).ended = r.ended ∧
      (r.replace name owner).released = r.released := by
    intro r
    unfold Returned.replace
    split <;> exact ⟨rfl, rfl⟩
  intro r hr hended
  obtain ⟨old, hold, rfl⟩ := List.mem_map.mp hr
  rw [(hflags old).1] at hended
  obtain ⟨q, hq, hreleased, hsame⟩ := h old hold hended
  refine ⟨_, List.mem_map_of_mem hq, (hflags q).2.trans hreleased, ?_⟩
  simpa [Returned.sameLease] using hsame

theorem endedByRelease_markReleased {call : ReleaseCall} (matched : Bool) {handles : List Returned}
    (h : EndedByRelease handles)
    (hknown : (handles[call.index]?).map Returned.handle = some call.handle) :
    EndedByRelease (State.markReleased call matched handles) := by
  set marked := handles.mapIdx fun i r => if i = call.index then { r with released := true } else r
    with hmarked
  have hwitness : ∃ q ∈ marked, q.released = true ∧ q.handle = call.handle := by
    obtain ⟨q, hq, hhandle⟩ := Option.map_eq_some_iff.mp hknown
    refine ⟨{ q with released := true }, List.mem_iff_getElem?.mpr ⟨call.index, ?_⟩, rfl, hhandle⟩
    rw [hmarked, List.getElem?_mapIdx, hq]
    simp
  have hkeeps : EndedByRelease marked := by
    intro r hr hended
    obtain ⟨i, hi, rfl⟩ := List.mem_mapIdx.mp hr
    obtain ⟨q, hq, hreleased, hsame⟩ := h handles[i] (List.getElem_mem hi) (by
      split at hended <;> exact hended)
    obtain ⟨j, hj, rfl⟩ := List.mem_iff_getElem.mp hq
    refine ⟨_, List.mem_mapIdx.mpr ⟨j, hj, rfl⟩, ?_, ?_⟩
    · split
      · rfl
      · exact hreleased
    · split <;> split <;> exact hsame
  cases matched with
  | false => exact hkeeps
  | true =>
    have hflags : ∀ r : Returned,
        (r.finish call.handle.operationName call.handle.owner).released = r.released := by
      intro r
      unfold Returned.finish
      split <;> rfl
    intro r hr hended
    obtain ⟨old, hold, rfl⟩ := List.mem_map.mp hr
    simp only [Returned.finish_handle]
    by_cases hsame : old.sameLease call.handle.operationName call.handle.owner = true
    · obtain ⟨q, hq, hreleased, hhandle⟩ := hwitness
      refine ⟨_, List.mem_map_of_mem hq, (hflags q).trans hreleased, ?_⟩
      simp only [Returned.sameLease, Returned.finish_handle, hhandle, Bool.and_eq_true,
        decide_eq_true_eq] at hsame ⊢
      exact ⟨hsame.1.symm, hsame.2.symm⟩
    · rw [Returned.finish, if_neg hsame] at hended
      obtain ⟨q, hq, hreleased, hother⟩ := hkeeps old hold hended
      refine ⟨_, List.mem_map_of_mem hq, (hflags q).trans hreleased, ?_⟩
      simpa [Returned.sameLease] using hother

@[simp] theorem abort_handles (s : State) (process : ℕ) : (s.abort process).handles = s.handles := by
  unfold State.abort
  split <;> rfl

/-- Only a commit changes the returned handles. -/
theorem step_handles {s s' : State} {label : Label} (hs : step s label = some s') :
    s'.handles = s.handles ∨
      (∃ process call returns, s' = s.commitAcquire process call returns) ∨
      ∃ process call matched, s.phase process = .released call matched ∧
        s' = s.commitRelease process call matched := by
  cases label with
  | commit process outcome =>
    simp only [step] at hs
    split at hs
    · split at hs <;> cases hs
      · exact .inl (abort_handles s process)
      · exact .inr (.inl ⟨process, _, _, rfl⟩)
    · split at hs <;> cases hs
      · exact .inl (abort_handles s process)
      · exact .inr (.inl ⟨process, _, _, rfl⟩)
    · split at hs <;> cases hs
      · exact .inl (abort_handles s process)
      · exact .inr (.inr ⟨process, _, _, ‹_›, rfl⟩)
    · cases hs
  | tick elapsed =>
    cases hs
    exact .inl rfl
  | acquire process operationName owner ttlSeconds hold =>
    simp only [step, Option.ite_none_right_eq_some] at hs
    obtain ⟨_, hs⟩ := hs
    cases hs
    exact .inl rfl
  | update process =>
    left
    simp only [step, updateAcquire, updateRelease] at hs
    split at hs
    · split at hs
      · split at hs <;> cases hs
        rfl
      · cases hs
        rfl
    · split at hs
      · split at hs <;> cases hs
        rfl
      · cases hs
        rfl
    · cases hs
  | insert process =>
    left
    simp only [step, insertAcquire] at hs
    split at hs
    · split at hs
      · cases hs
        rfl
      · split at hs <;> cases hs
        rfl
    · cases hs
  | release process index =>
    simp only [step] at hs
    split at hs <;> cases hs
    exact .inl rfl
  | leave process =>
    simp only [step] at hs
    split at hs <;> cases hs
    exact .inl rfl
  | crash process =>
    cases hs
    exact .inl (abort_handles s process)

theorem endedByRelease_step {s s' : State} {label : Label} (hinv : Inv s)
    (h : EndedByRelease s.handles) (hs : step s label = some s') : EndedByRelease s'.handles := by
  rcases step_handles hs with hsame | ⟨process, call, returns, rfl⟩ | ⟨process, call, matched, hphase, rfl⟩
  · rw [hsame]
    exact h
  · have hmap := endedByRelease_replace h call.name call.leaseOwner
    cases returns with
    | false => exact hmap
    | true =>
      intro r hr hended
      rcases List.mem_append.mp hr with hr | hr
      · obtain ⟨q, hq, hrest⟩ := hmap r hr hended
        exact ⟨q, List.mem_append_left _ hq, hrest⟩
      · rw [List.mem_singleton.mp hr] at hended
        cases hended
  · have hknown := hinv.known process call.index call.handle (by rw [hphase]; rfl)
    have hmark := endedByRelease_markReleased matched h hknown
    cases matched <;> exact hmark

theorem Reachable.endedByRelease {clock : ℕ} {s : State} (h : Reachable clock s) :
    EndedByRelease s.handles := by
  have hboth : Inv s ∧ EndedByRelease s.handles := by
    induction h with
    | init => exact ⟨init_inv clock, fun r hr => by cases hr⟩
    | step _ _ hs hinv => exact ⟨step_inv hinv.1 hs, endedByRelease_step hinv.1 hinv.2 hs⟩
  exact hboth.2

/-! ## Exclusion -/

/-- The owner of the handle has acquired the name once. -/
def AcquiredOnce (s : State) (r : Returned) : Prop :=
  r.replaced = false ∧ ∀ q ∈ s.handles,
    q.sameLease r.handle.operationName r.handle.owner = true → q = r

/-- At most one handle of a name is in force. -/
theorem inForce_unique {s : State} (h : Inv s) {i j : ℕ} {r r' : Returned}
    (hi : s.handles[i]? = some r) (hj : s.handles[j]? = some r') (hr : r.inForce s.clock = true)
    (hr' : r'.inForce s.clock = true) (hname : r.handle.operationName = r'.handle.operationName) :
    i = j := by
  obtain ⟨hcurrent, hlive⟩ := Returned.inForce_iff.mp hr
  obtain ⟨hcurrent', hlive'⟩ := Returned.inForce_iff.mp hr'
  have howner : r.handle.owner = r'.handle.owner := by
    have hrow := h.backed r (List.mem_of_getElem? hi) hcurrent hlive
    have hrow' := h.backed r' (List.mem_of_getElem? hj) hcurrent' hlive'
    rw [hname, hrow'] at hrow
    injection hrow with hrow
    injection hrow with howner _
    exact howner.symm
  obtain ⟨hilt, rfl⟩ := List.getElem?_eq_some_iff.mp hi
  obtain ⟨hjlt, rfl⟩ := List.getElem?_eq_some_iff.mp hj
  have hsingle := List.pairwise_iff_getElem.mp h.single
  rcases Nat.lt_trichotomy i j with hij | hij | hij
  · exact absurd howner (hsingle i j hilt hjlt hij hcurrent hcurrent' hname)
  · exact hij
  · exact absurd howner.symm (hsingle j i hjlt hilt hij hcurrent' hcurrent hname.symm)

theorem inForce_of_acquiredOnce {s : State} (h : EndedByRelease s.handles) {r : Returned}
    (hr : r ∈ s.handles) (honce : AcquiredOnce s r) (hheld : r.held s.clock = true) :
    r.inForce s.clock = true := by
  have hreleased : r.released = false := by
    simp only [Returned.held, Bool.and_eq_true, Bool.not_eq_true'] at hheld
    exact hheld.1
  have hended : r.ended = false := by
    by_contra hended
    obtain ⟨q, hq, hqreleased, hsame⟩ := h r hr (by simpa using hended)
    rw [honce.2 q hq hsame, hreleased] at hqreleased
    cases hqreleased
  simp [Returned.inForce, hheld, honce.1, hended]

/-- A release leaves the row of another owner as it is. -/
theorem commitRelease_other {s : State} (h : Inv s) {process : ℕ} {call : ReleaseCall}
    {matched : Bool} (hphase : s.phase process = .released call matched) {name : String}
    {row : LeaseRow} (hrow : s.table name = some row)
    (hother : name = call.handle.operationName → row.leaseOwner ≠ call.handle.owner) :
    (s.commitRelease process call matched).table name = some row := by
  cases matched with
  | false => exact hrow
  | true =>
    have hsettled := h.settled process
    rw [hphase] at hsettled
    obtain ⟨_, mine, hmine, howner⟩ := hsettled
    show Function.update s.table _ _ name = some row
    rw [Function.update_of_ne]
    · exact hrow
    · rintro rfl
      rw [hmine] at hrow
      cases hrow
      exact hother rfl howner

theorem commit_released {s s' : State} {process : ℕ} {call : ReleaseCall} {matched : Bool}
    {outcome : CommitOutcome} (hphase : s.phase process = .released call matched)
    (hs : step s (.commit process outcome) = some s') :
    (outcome = .failed ∧ s' = s.abort process) ∨
      (outcome ≠ .failed ∧ s' = s.commitRelease process call matched) := by
  simp only [step, hphase] at hs
  split at hs <;> cases hs
  · exact .inl ⟨‹_›, rfl⟩
  · exact .inr ⟨‹_›, rfl⟩

@[simp] theorem abort_table (s : State) (process : ℕ) : (s.abort process).table = s.table := by
  unfold State.abort
  split <;> rfl

/-- Operation leases are exclusive between owners. A lease belongs to its owner: a handle is in force
until it expires, its owner acquires again or any release of its owner matches the row. -/
theorem operation_lease_exclusion (clock : ℕ) (s : State) (h : Reachable clock s) :
    (∀ (i j : ℕ) (r r' : Returned), s.handles[i]? = some r → s.handles[j]? = some r' →
      r.inForce s.clock = true → r'.inForce s.clock = true →
        r.handle.operationName = r'.handle.operationName → i = j) ∧
    (∀ (i j : ℕ) (r r' : Returned), s.handles[i]? = some r → s.handles[j]? = some r' →
      AcquiredOnce s r → AcquiredOnce s r' → r.held s.clock = true → r'.held s.clock = true →
        r.handle.operationName = r'.handle.operationName → i = j) ∧
    (∀ (i : ℕ) (r : Returned), s.handles[i]? = some r → r.inForce s.clock = true →
      currentOwner s r.handle.operationName = some r.handle.owner) ∧
    ∀ process call matched outcome s', s.phase process = .released call matched →
      step s (.commit process outcome) = some s' →
        (∀ name row, s.table name = some row →
          (name = call.handle.operationName → row.leaseOwner ≠ call.handle.owner) →
            s'.table name = some row) ∧
        (matched = true → outcome ≠ .failed → ∀ row,
          s.table call.handle.operationName = some row →
            s'.table call.handle.operationName = some { row with leaseUntil := call.now }) := by
  have hinv := h.inv
  refine ⟨?_, ?_, ?_, ?_⟩
  · intro i j r r' hi hj hr hr' hname
    exact inForce_unique hinv hi hj hr hr' hname
  · intro i j r r' hi hj honce honce' hheld hheld' hname
    have hends := h.endedByRelease
    exact inForce_unique hinv hi hj
      (inForce_of_acquiredOnce hends (List.mem_of_getElem? hi) honce hheld)
      (inForce_of_acquiredOnce hends (List.mem_of_getElem? hj) honce' hheld') hname
  · intro i r hi hr
    obtain ⟨hcurrent, hlive⟩ := Returned.inForce_iff.mp hr
    simp [currentOwner, hinv.backed r (List.mem_of_getElem? hi) hcurrent hlive, hlive]
  · intro process call matched outcome s' hphase hs
    rcases commit_released hphase hs with ⟨rfl, rfl⟩ | ⟨_, rfl⟩
    · refine ⟨?_, fun _ hne => absurd rfl hne⟩
      intro name row hrow _
      rw [abort_table]
      exact hrow
    · refine ⟨fun name row hrow hother => commitRelease_other hinv hphase hrow hother, ?_⟩
      rintro rfl _ row hrow
      show Function.update s.table _ _ _ = _
      rw [Function.update_self, hrow]
      rfl

/-- A second process is refused, takes the lease over once it has expired, and the first one releases its
handle, up to the commit. -/
def takeover : List Label :=
  [.acquire 0 " cost:daily" "backend-a" 15 false, .update 0, .insert 0, .commit 0 .done,
    .acquire 1 "cost:daily" "backend-b" 60 false, .update 1, .insert 1, .tick 20000000,
    .acquire 1 "cost:daily" "backend-b" 60 false, .update 1, .commit 1 .done, .release 0 0, .update 0]

theorem operation_lease_exclusion_takeover :
    ∃ s s', after step (.init 0) takeover = some s ∧
      currentOwner s "cost:daily" = some "backend-b" ∧ step s (.commit 0 .done) = some s' ∧
        s'.table "cost:daily" = some ⟨"backend-b", 80000000⟩ := by
  have hrun : (after step (.init 0) takeover).any (fun s => (s.handles[1]?).any (fun r =>
      r.inForce s.clock && r.handle.operationName = "cost:daily" && r.handle.owner = "backend-b") &&
        s.phase 0 = .released ⟨0, ⟨"cost:daily", "backend-a", 15000000⟩, 20000000⟩ false &&
        s.table "cost:daily" = some ⟨"backend-b", 80000000⟩) = true := by
    decide +kernel
  obtain ⟨s, hs, hend⟩ := (Option.any_eq_true _ _).mp hrun
  simp only [Bool.and_eq_true, decide_eq_true_eq] at hend
  obtain ⟨⟨hhandle, hphase⟩, hrow⟩ := hend
  obtain ⟨r, hr, hflags⟩ := (Option.any_eq_true _ _).mp hhandle
  simp only [Bool.and_eq_true, decide_eq_true_eq] at hflags
  obtain ⟨⟨hforce, hname⟩, howner⟩ := hflags
  obtain ⟨-, -, hcurrent, hrelease⟩ := operation_lease_exclusion 0 s (Reached.init.after hs)
  have hcommit : step s (.commit 0 .done) = some (s.commitRelease 0
      ⟨0, ⟨"cost:daily", "backend-a", 15000000⟩, 20000000⟩ false) := by
    simp only [step, hphase]
    rfl
  have hkept := (hrelease 0 _ false .done _ hphase hcommit).1 "cost:daily" _ hrow
    fun _ => by decide
  refine ⟨s, _, hs, ?_, hcommit, hkept⟩
  have howned := hcurrent 1 r hr hforce
  rwa [hname, howner] at howned

/-! ## The same owner again -/

/-- At most one returned handle of a name is neither released nor expired. -/
def OneHeld (s : State) : Prop :=
  ∀ (i j : ℕ) (r r' : Returned), s.handles[i]? = some r → s.handles[j]? = some r' →
    r.held s.clock = true → r'.held s.clock = true →
      r.handle.operationName = r'.handle.operationName → i = j

/-- Releasing an expired handle that has been replaced does not shorten the lease in the table. -/
def ReleaseKeepsSuccessor (s : State) : Prop :=
  ∀ process call matched outcome s' (r : Returned) row,
    s.phase process = .released call matched → step s (.commit process outcome) = some s' →
      s.handles[call.index]? = some r →
      r.handle.leaseUntil ≤ s.clock → r.replaced = true →
        s.table r.handle.operationName = some row →
          ∀ row', s'.table r.handle.operationName = some row' → row.leaseUntil ≤ row'.leaseUntil

/-- The same owner acquires, lets the lease expire and acquires again; then it releases the first
handle, up to the commit. -/
def staleRelease : List Label :=
  [.acquire 0 "cost:daily" "backend-a" 15 false, .update 0, .insert 0, .commit 0 .done,
    .tick 20000000,
    .acquire 0 "cost:daily" "backend-a" 15 false, .update 0, .commit 0 .done,
    .release 0 0, .update 0]

/-- The release is committed, and another owner acquires. -/
def staleReleaseAndAcquire : List Label :=
  List.flatten [staleRelease, [.commit 0 .done, .tick 1,
    .acquire 1 "cost:daily" "backend-b" 15 false, .update 1, .commit 1 .done]]

/-- The same owner can hold two handles, and releasing the first ends the lease of the second. -/
theorem same_owner_breaks_exclusion :
    ¬ (∀ clock s, Reachable clock s → OneHeld s) ∧
      ¬ (∀ clock s, Reachable clock s → ReleaseKeepsSuccessor s) := by
  constructor
  · intro hclaim
    have hrun : (after step (.init 0) staleReleaseAndAcquire).any (fun s =>
          (s.handles[1]?).any (fun r => (s.handles[2]?).any fun r' => r.held s.clock &&
            r'.held s.clock && r.handle.operationName = r'.handle.operationName)) = true := by
      decide +kernel
    obtain ⟨s, hs, hend⟩ := (Option.any_eq_true _ _).mp hrun
    obtain ⟨r, hr, hend⟩ := (Option.any_eq_true _ _).mp hend
    obtain ⟨r', hr', hend⟩ := (Option.any_eq_true _ _).mp hend
    simp only [Bool.and_eq_true, decide_eq_true_eq] at hend
    have := hclaim 0 s (Reached.init.after hs) 1 2 r r' hr hr' hend.1.1 hend.1.2 hend.2
    omega
  · intro hclaim
    have hrun : (after step (.init 0) staleRelease).any (fun s =>
        s.phase 0 = .released ⟨0, ⟨"cost:daily", "backend-a", 15000000⟩, 20000000⟩ true &&
        (s.handles[0]?).any (fun r => r.handle.leaseUntil ≤ s.clock && r.replaced &&
          r.handle.operationName = "cost:daily") &&
        s.table "cost:daily" = some ⟨"backend-a", 35000000⟩) = true := by
      decide +kernel
    obtain ⟨s, hs, hend⟩ := (Option.any_eq_true _ _).mp hrun
    simp only [Bool.and_eq_true, decide_eq_true_eq] at hend
    obtain ⟨⟨hphase, hr⟩, hrow⟩ := hend
    obtain ⟨r, hr, hflags⟩ := (Option.any_eq_true _ _).mp hr
    simp only [Bool.and_eq_true, decide_eq_true_eq] at hflags
    obtain ⟨⟨hexpired, hreplaced⟩, hname⟩ := hflags
    have hreach : Reachable 0 s := Reached.init.after hs
    have hcommit : step s (.commit 0 .done) = some (s.commitRelease 0
        ⟨0, ⟨"cost:daily", "backend-a", 15000000⟩, 20000000⟩ true) := by
      simp only [step, hphase]
      rfl
    have hkeeps := hclaim 0 s hreach 0 _ true .done _ r _ hphase hcommit hr hexpired hreplaced
      (by rw [hname]; exact hrow) ⟨"backend-a", 20000000⟩ (by
        rw [hname]
        simp [State.commitRelease, State.setPhase, hrow])
    exact absurd hkeeps (by decide)

end Leases
end BucketReef

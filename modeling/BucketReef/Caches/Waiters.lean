import BucketReef.Caches.Barrier

/-!
# Waiters

A call whose builder has returned or raised needs at most three more steps of its own; nothing others
do disables them, and when they are taken its future is done, its marker is gone and its waiters can go
on. The same holds of a payload load and its event.
-/

namespace BucketReef
namespace Listings

open Caches Transitions

variable {Key Group V P : Type} [DecidableEq Key] [DecidableEq Group]
  {settings : Settings Key Group} {s s' : State Key Group V P}

/-- The label is a step of call `p`. -/
def Label.advances (p : ℕ) : Label Key Group V P → Bool
  | .advance q => q = p
  | _ => false

/-- The call a label is about. -/
def Label.about : Label Key Group V P → Option ℕ
  | .call p _ | .readPayload p _ _ | .advance p | .builderReturns p _ | .builderRaises p
  | .loadReturns p _ | .loadRaises p => some p
  | .tick _ | .invalidate _ => none

/-- A step is about one call. -/
theorem act_other {label : Label Key Group V P} {p : ℕ} (hact : act settings s label = some s')
    (hother : label.about ≠ some p) : s'.calls p = s.calls p := by
  have hkeep : ∀ {q : ℕ} {call : Call Key Group V P}, some q ≠ some p →
      Function.update s.calls q call p = s.calls p :=
    fun hne => Function.update_of_ne (fun hq => hne (congrArg some hq.symm)) ..
  cases label with
  | tick elapsed =>
    cases hact
    rfl
  | invalidate covers =>
    cases hact
    rfl
  | call q key =>
    simp only [act] at hact
    split at hact <;> cases hact
    exact hkeep hother
  | readPayload q endpoint withStats =>
    simp only [act, startRead] at hact
    split at hact
    · split at hact <;> cases hact
      exact hkeep hother
    · cases hact
      have hne : p ≠ q := fun hq => hother (congrArg some hq.symm)
      simp [State.setOuter, State.setInner, Function.update_of_ne hne]
    · cases hact
      exact hkeep hother
    · cases hact
  | advance q =>
    simp only [act] at hact
    split at hact
    · unfold advanceOuter at hact
      split at hact
      · cases hact
        simp only [lookup]
        split
        · exact hkeep hother
        · split <;> exact hkeep hother
      · split at hact <;> cases hact <;> exact hkeep hother
      · cases hact
        exact hkeep hother
      · cases hact
        simp only [storeListing]
        split <;> exact hkeep hother
      · cases hact
        exact hkeep hother
      · cases hact
        exact hkeep hother
      · cases hact
        simp only [finishListing]
        split <;> split <;> exact hkeep hother
      · cases hact
    · unfold advanceInner at hact
      split at hact
      · cases hact
        simp only [lookupPayload]
        split
        · exact hkeep hother
        · split <;> exact hkeep hother
      · split at hact <;> cases hact
        exact hkeep hother
      · cases hact
        exact hkeep hother
      · cases hact
        simp only [storePayload]
        split <;> exact hkeep hother
      · cases hact
        simp only [finishPayload]
        split <;> exact hkeep hother
      · cases hact
        simp only [setEvent]
        split <;> exact hkeep hother
      · cases hact
  | builderReturns q value =>
    simp only [act] at hact
    split at hact <;> cases hact
    exact hkeep hother
  | builderRaises q =>
    simp only [act] at hact
    split at hact <;> cases hact
    exact hkeep hother
  | loadReturns q entries =>
    simp only [act] at hact
    split at hact <;> cases hact
    exact hkeep hother
  | loadRaises q =>
    simp only [act] at hact
    split at hact <;> cases hact
    exact hkeep hother

/-! ## Listings -/

/-- How many steps a call still takes after its builder has ended. -/
def Outer.remaining : Outer Key V → Option ℕ
  | .built _ _ => some 3
  | .stored _ _ | .failed _ => some 2
  | .resolved _ _ => some 1
  | .finished _ => some 0
  | _ => none

/-- The call is past its builder, with `n` steps to go. -/
def Ending (s : State Key Group V P) (p : ℕ) (own : Ownership Key) (n : ℕ) : Prop :=
  (s.calls p).inner = .idle ∧ (s.calls p).outer.future = some own ∧
    (s.calls p).outer.remaining = some n

/-- Only its own steps move a call that is past its builder. -/
theorem ending_other {label : Label Key Group V P} {p n : ℕ} {own : Ownership Key}
    (hact : act settings s label = some s') (h : Ending s p own n)
    (hother : label.advances p = false) : s'.calls p = s.calls p := by
  by_cases habout : label.about = some p
  · -- no label of the call but its own steps is enabled
    obtain ⟨hidle, _, hremaining⟩ := h
    have hphase : ∀ outer : Outer Key V, outer.remaining = none → (s.calls p).outer ≠ outer := by
      rintro outer hnone rfl
      rw [hnone] at hremaining
      cases hremaining
    cases label with
    | tick elapsed => cases habout
    | invalidate covers => cases habout
    | call q key =>
      cases habout
      simp only [act] at hact
      split at hact <;> cases hact
      exact absurd ‹_› (hphase .unused rfl)
    | readPayload q endpoint withStats =>
      cases habout
      simp only [act, startRead] at hact
      split at hact
      · exact absurd ‹_› (hphase _ rfl)
      · exact absurd ‹_› (hphase _ rfl)
      · exact absurd ‹_› (hphase _ rfl)
      · cases hact
    | advance q =>
      cases habout
      simp [Label.advances] at hother
    | builderReturns q value =>
      cases habout
      simp only [act] at hact
      split at hact <;> cases hact
      exact absurd ‹_› (hphase _ rfl)
    | builderRaises q =>
      cases habout
      simp only [act] at hact
      split at hact <;> cases hact
      exact absurd ‹_› (hphase _ rfl)
    | loadReturns q entries =>
      cases habout
      simp only [act, hidle] at hact
      cases hact
    | loadRaises q =>
      cases habout
      simp only [act, hidle] at hact
      cases hact
  · exact act_other hact habout

/-- Each step of its own brings the call one step closer to its end. -/
theorem ending_advance {p n : ℕ} {own : Ownership Key} (h : Ending s p own n)
    (hact : act settings s (.advance p) = some s') : ∃ m, n = m + 1 ∧ Ending s' p own m := by
  obtain ⟨hidle, hown, hremaining⟩ := h
  simp only [act, hidle, advanceOuter] at hact
  cases houter : (s.calls p).outer with
  | built own' loaded =>
    rw [houter] at hact hown hremaining
    cases hown
    cases hremaining
    cases hact
    refine ⟨2, rfl, ?_⟩
    simp only [storeListing]
    split <;> simp [Ending, State.setOuter, hidle, Outer.future, Outer.active, Outer.remaining]
  | stored own' loaded =>
    rw [houter] at hact hown hremaining
    cases hown
    cases hremaining
    cases hact
    exact ⟨1, rfl, by simp [Ending, State.setOuter, hidle, Outer.future, Outer.active,
      Outer.remaining]⟩
  | failed own' =>
    rw [houter] at hact hown hremaining
    cases hown
    cases hremaining
    cases hact
    exact ⟨1, rfl, by simp [Ending, State.setOuter, hidle, Outer.future, Outer.active,
      Outer.remaining]⟩
  | resolved own' outcome =>
    rw [houter] at hact hown hremaining
    cases hown
    cases hremaining
    cases hact
    refine ⟨0, rfl, ?_⟩
    simp only [finishListing]
    cases outcome <;> dsimp only <;> split <;>
      simp [Ending, State.setOuter, returnListing, hidle, Outer.future, Outer.remaining]
  | finished future =>
    rw [houter] at hact
    cases hact
  | unused =>
    rw [houter] at hremaining
    cases hremaining
  | direct =>
    rw [houter] at hremaining
    cases hremaining
  | called =>
    rw [houter] at hremaining
    cases hremaining
  | waiting =>
    rw [houter] at hremaining
    cases hremaining
  | registered =>
    rw [houter] at hremaining
    cases hremaining
  | building =>
    rw [houter] at hremaining
    cases hremaining

theorem ending_after {labels : List (Label Key Group V P)} {p n : ℕ} {own : Ownership Key}
    (h : Ending s p own n) (hrun : after (step settings) s labels = some s') :
    ∃ m, n = m + labels.countP (Label.advances p) ∧ Ending s' p own m := by
  induction labels generalizing s n with
  | nil =>
    cases hrun
    exact ⟨n, rfl, h⟩
  | cons label labels ih =>
    obtain ⟨middle, hs, hrun⟩ := Option.bind_eq_some_iff.mp hrun
    obtain ⟨acted, hact, rfl⟩ := Option.map_eq_some_iff.mp hs
    cases hadvances : label.advances p with
    | true =>
      have hlabel : label = .advance p := by
        cases label <;> simp [Label.advances] at hadvances
        rw [hadvances]
      rw [hlabel] at hact
      obtain ⟨m, rfl, hmiddle⟩ := ending_advance h hact
      obtain ⟨k, rfl, hend⟩ := ih (s := acted.next) hmiddle hrun
      exact ⟨k, by rw [List.countP_cons_of_pos hadvances]; omega, hend⟩
    | false =>
      have hcalls := ending_other hact h hadvances
      have hmiddle : Ending acted.next p own n := by
        show Ending acted p own n
        unfold Ending
        rw [hcalls]
        exact h
      obtain ⟨k, rfl, hend⟩ := ih hmiddle hrun
      exact ⟨k, by rw [List.countP_cons_of_neg (by simp [hadvances])], hend⟩

/-! ## Payload loads -/

/-- How many steps a read still takes after its load has ended. -/
def Inner.remaining : Inner Group P → Option ℕ
  | .loaded _ _ _ => some 3
  | .finishing _ _ => some 2
  | .setting _ _ => some 1
  | _ => none

/-- The load has arrived or failed, with `n` steps to go until its event is set. -/
def LoadEnding (s : State Key Group V P) (p : ℕ) (load : Load Group) : ℕ → Prop
  | 0 => s.eventSet load.event = true
  | n + 1 => (s.calls p).inner.load = some load ∧ (s.calls p).inner.remaining = some (n + 1)

theorem act_eventSet {label : Label Key Group V P} {event : EventId}
    (hact : act settings s label = some s') (hset : s.eventSet event = true) :
    s'.eventSet event = true := by
  cases label with
  | tick elapsed =>
    cases hact
    exact hset
  | invalidate covers =>
    cases hact
    exact hset
  | call q key =>
    simp only [act] at hact
    split at hact <;> cases hact
    exact hset
  | readPayload q endpoint withStats =>
    simp only [act, startRead] at hact
    split at hact
    · split at hact <;> cases hact
      exact hset
    · cases hact
      exact hset
    · cases hact
      exact hset
    · cases hact
  | advance q =>
    simp only [act] at hact
    split at hact
    · unfold advanceOuter at hact
      split at hact
      · cases hact
        simp only [lookup]
        split
        · exact hset
        · split <;> exact hset
      · split at hact <;> cases hact <;> exact hset
      · cases hact
        exact hset
      · cases hact
        simp only [storeListing]
        split <;> exact hset
      · cases hact
        exact hset
      · cases hact
        exact hset
      · cases hact
        simp only [finishListing]
        split <;> split <;> exact hset
      · cases hact
    · unfold advanceInner at hact
      split at hact
      · cases hact
        simp only [lookupPayload]
        split
        · exact hset
        · split <;> exact hset
      · split at hact <;> cases hact
        exact hset
      · cases hact
        exact hset
      · cases hact
        simp only [storePayload]
        split <;> exact hset
      · cases hact
        simp only [finishPayload]
        split <;> exact hset
      · rename_i load outcome _
        cases hact
        have hupdate : Function.update s.eventSet load.event true event = true := by
          by_cases hsame : event = load.event
          · rw [hsame, Function.update_self]
          · rw [Function.update_of_ne hsame]
            exact hset
        simp only [setEvent]
        split <;> exact hupdate
      · cases hact
  | builderReturns q value =>
    simp only [act] at hact
    split at hact <;> cases hact
    exact hset
  | builderRaises q =>
    simp only [act] at hact
    split at hact <;> cases hact
    exact hset
  | loadReturns q entries =>
    simp only [act] at hact
    split at hact <;> cases hact
    exact hset
  | loadRaises q =>
    simp only [act] at hact
    split at hact <;> cases hact
    exact hset

/-- Only its own steps move a read that is past its load. -/
theorem loadEnding_other {label : Label Key Group V P} {p n : ℕ}
    (hact : act settings s label = some s') (hremaining : (s.calls p).inner.remaining = some n)
    (hother : label.advances p = false) : (s'.calls p).inner = (s.calls p).inner := by
  by_cases habout : label.about = some p
  · have hphase : ∀ inner : Inner Group P, inner.remaining = none → (s.calls p).inner ≠ inner := by
      rintro inner hnone rfl
      rw [hnone] at hremaining
      cases hremaining
    cases label with
    | tick elapsed => cases habout
    | invalidate covers => cases habout
    | call q key =>
      cases habout
      simp only [act] at hact
      split at hact <;> cases hact
      simp [State.setOuter]
    | readPayload q endpoint withStats =>
      cases habout
      simp only [act, startRead] at hact
      split at hact
      · exact absurd ‹_› (hphase _ rfl)
      · exact absurd ‹_› (hphase _ rfl)
      · exact absurd ‹_› (hphase _ rfl)
      · cases hact
    | advance q =>
      cases habout
      simp [Label.advances] at hother
    | builderReturns q value =>
      cases habout
      simp only [act] at hact
      split at hact <;> cases hact
      exact absurd ‹_› (hphase _ rfl)
    | builderRaises q =>
      cases habout
      simp only [act] at hact
      split at hact <;> cases hact
      exact absurd ‹_› (hphase _ rfl)
    | loadReturns q entries =>
      cases habout
      simp only [act] at hact
      split at hact <;> cases hact
      exact absurd ‹_› (hphase _ rfl)
    | loadRaises q =>
      cases habout
      simp only [act] at hact
      split at hact <;> cases hact
      exact absurd ‹_› (hphase _ rfl)
  · rw [act_other hact habout]

theorem loadEnding_advance {p n : ℕ} {load : Load Group} (h : LoadEnding s p load (n + 1))
    (hact : act settings s (.advance p) = some s') : LoadEnding s' p load n := by
  obtain ⟨hload, hremaining⟩ := h
  cases hinner : (s.calls p).inner with
  | loaded load' loaded expiresAt =>
    simp only [act, hinner, advanceInner] at hact
    rw [hinner] at hload hremaining
    cases hload
    cases hremaining
    cases hact
    simp only [storePayload]
    split <;> simp [LoadEnding, State.setInner, Inner.load, Inner.remaining]
  | finishing load' outcome =>
    simp only [act, hinner, advanceInner] at hact
    rw [hinner] at hload hremaining
    cases hload
    cases hremaining
    cases hact
    simp only [finishPayload]
    split <;> simp [LoadEnding, State.setInner, Inner.load, Inner.remaining]
  | setting load' outcome =>
    simp only [act, hinner, advanceInner] at hact
    rw [hinner] at hload hremaining
    cases hload
    cases hremaining
    cases hact
    simp only [setEvent]
    cases outcome <;> simp [LoadEnding, State.setInner, returnPayload]
  | idle =>
    rw [hinner] at hremaining
    cases hremaining
  | reading =>
    rw [hinner] at hremaining
    cases hremaining
  | waiting =>
    rw [hinner] at hremaining
    cases hremaining
  | registered =>
    rw [hinner] at hremaining
    cases hremaining
  | loading =>
    rw [hinner] at hremaining
    cases hremaining

theorem loadEnding_after {labels : List (Label Key Group V P)} {p n : ℕ} {load : Load Group}
    (h : LoadEnding s p load n) (hrun : after (step settings) s labels = some s') :
    LoadEnding s' p load (n - labels.countP (Label.advances p)) := by
  induction labels generalizing s n with
  | nil =>
    cases hrun
    exact h
  | cons label labels ih =>
    obtain ⟨middle, hs, hrun⟩ := Option.bind_eq_some_iff.mp hrun
    obtain ⟨acted, hact, rfl⟩ := Option.map_eq_some_iff.mp hs
    cases n with
    | zero =>
      have hacted : LoadEnding acted p load 0 := act_eventSet hact h
      have hmiddle : LoadEnding acted.next p load 0 := hacted
      rw [Nat.zero_sub]
      have := ih hmiddle hrun
      rwa [Nat.zero_sub] at this
    | succ n =>
      cases hadvances : label.advances p with
      | true =>
        have hlabel : label = .advance p := by
          cases label <;> simp [Label.advances] at hadvances
          rw [hadvances]
        rw [hlabel] at hact
        have hmiddle : LoadEnding acted.next p load n := by
          have := loadEnding_advance h hact
          cases n <;> exact this
        rw [List.countP_cons_of_pos hadvances, Nat.add_sub_add_right]
        exact ih hmiddle hrun
      | false =>
        have hmiddle : LoadEnding acted.next p load (n + 1) := by
          have hsame := loadEnding_other hact h.2 hadvances
          show (acted.calls p).inner.load = some load ∧
            (acted.calls p).inner.remaining = some (n + 1)
          rw [hsame]
          exact h
        rw [List.countP_cons_of_neg (by simp [hadvances])]
        exact ih hmiddle hrun

/-! ## Calls inside a payload read -/

/-- Only a builder and a thread of its own read payloads. -/
def Call.Nested (call : Call Key Group V P) : Prop :=
  call.inner = .idle ∨ call.outer = .direct ∨ ∃ own oldest, call.outer = .building own oldest

theorem advanceOuter_inner {p : ℕ} (h : advanceOuter settings s p = some s') :
    (s'.calls p).inner = (s.calls p).inner := by
  unfold advanceOuter at h
  split at h
  · cases h
    simp only [lookup]
    split
    · simp [returnListing, State.setOuter]
    · split <;> simp [State.setOuter]
  · split at h <;> cases h <;> simp [returnListing, State.setOuter]
  · cases h
    simp [State.setOuter]
  · cases h
    simp only [storeListing]
    split <;> simp [State.setOuter]
  · cases h
    simp [State.setOuter]
  · cases h
    simp [State.setOuter]
  · cases h
    simp only [finishListing]
    split <;> split <;> simp [returnListing, State.setOuter]
  · cases h

/-- A step of a payload read leaves the builder, but for what its value rests on. -/
theorem advanceInner_outer {p : ℕ} (h : advanceInner settings s p = some s') :
    (s'.calls p).outer = (s.calls p).outer ∨
      ∃ loaded : Loaded P, (s'.calls p).outer = (s.calls p).outer.uses loaded := by
  unfold advanceInner at h
  split at h
  · cases h
    simp only [lookupPayload]
    split
    · exact .inr ⟨_, by simp [returnPayload]; rfl⟩
    · split <;> exact .inl (by simp [State.setInner])
  · split at h <;> cases h
    exact .inl (by simp [State.setInner])
  · cases h
    exact .inl (by simp [State.setInner])
  · cases h
    simp only [storePayload]
    split <;> exact .inl (by simp [State.setInner])
  · cases h
    simp only [finishPayload]
    split <;> exact .inl (by simp [State.setInner])
  · cases h
    simp only [setEvent]
    split
    · exact .inr ⟨_, by simp [returnPayload]; rfl⟩
    · exact .inl (by simp [State.setInner])
  · cases h

theorem act_readPayload_nested {p : ℕ} {endpoint : Group} {withStats : Bool}
    (hact : act settings s (.readPayload p endpoint withStats) = some s') : (s'.calls p).Nested := by
  simp only [act, startRead] at hact
  split at hact
  · rename_i own oldest _ houter
    split at hact <;> cases hact
    exact .inr (.inr ⟨own, oldest, by simp [State.setInner, houter]⟩)
  · cases hact
    exact .inr (.inl (by simp [State.setOuter]))
  · rename_i houter
    cases hact
    exact .inr (.inl (by simp [State.setInner, houter]))
  · cases hact

theorem act_advance_nested {p : ℕ} (h : (s.calls p).Nested)
    (hact : act settings s (.advance p) = some s') : (s'.calls p).Nested := by
  simp only [act] at hact
  split at hact
  · rename_i hinner
    exact .inl ((advanceOuter_inner hact).trans hinner)
  · rename_i hinner
    refine .inr ?_
    rcases h with hidle | hdirect | ⟨own, oldest, hbuilding⟩
    · exact absurd hidle hinner
    · rcases advanceInner_outer hact with houter | ⟨loaded, houter⟩ <;> rw [houter, hdirect]
      · exact .inl rfl
      · exact .inl rfl
    · rcases advanceInner_outer hact with houter | ⟨loaded, houter⟩ <;> rw [houter, hbuilding]
      · exact .inr ⟨_, _, rfl⟩
      · exact .inr ⟨_, _, rfl⟩

theorem act_nested {label : Label Key Group V P} {p : ℕ} (h : (s.calls p).Nested)
    (hact : act settings s label = some s') : (s'.calls p).Nested := by
  by_cases habout : label.about = some p
  · -- a call that is in neither of these phases is not inside a read
    have hidle : (s.calls p).outer ≠ .direct →
        (∀ own oldest, (s.calls p).outer ≠ .building own oldest) → (s.calls p).inner = .idle :=
      fun hdirect hbuilding => h.resolve_right fun hphase => hphase.elim hdirect
        fun hexists => hexists.elim fun own h => h.elim fun oldest => hbuilding own oldest
    cases label with
    | tick elapsed => cases habout
    | invalidate covers => cases habout
    | call q key =>
      cases habout
      simp only [act] at hact
      split at hact <;> cases hact
      rename_i hunused
      refine .inl ?_
      simp only [State.setOuter, Function.update_self]
      exact hidle (by simp [hunused]) (by simp [hunused])
    | readPayload q endpoint withStats =>
      cases habout
      exact act_readPayload_nested hact
    | advance q =>
      cases habout
      exact act_advance_nested h hact
    | builderReturns q value =>
      cases habout
      simp only [act] at hact
      split at hact <;> cases hact
      exact .inl (by simpa [State.setOuter] using ‹_›)
    | builderRaises q =>
      cases habout
      simp only [act] at hact
      split at hact <;> cases hact
      exact .inl (by simpa [State.setOuter] using ‹_›)
    | loadReturns q entries =>
      cases habout
      simp only [act] at hact
      split at hact <;> cases hact
      rename_i load loaderStartedAt hloading
      refine .inr ?_
      simp only [State.setInner, Function.update_self]
      exact h.resolve_left (by simp [hloading])
    | loadRaises q =>
      cases habout
      simp only [act] at hact
      split at hact <;> cases hact
      rename_i load _ hloading
      refine .inr ?_
      simp only [State.setInner, Function.update_self]
      exact h.resolve_left (by simp [hloading])
  · unfold Call.Nested
    rw [act_other hact habout]
    exact h

theorem nested_of_reachable {clock : ℕ} (h : Reachable settings clock s) (p : ℕ) :
    (s.calls p).Nested := by
  refine @Reached.invariant _ _ _ _ _ _ (fun s => (s.calls p).Nested) (.inl rfl) ?_ h
  intro s label s' hnested _ hs
  obtain ⟨acted, hact, rfl⟩ := Option.map_eq_some_iff.mp hs
  show (acted.calls p).Nested
  exact act_nested hnested hact

/-- A waiter whose future is done can go on. -/
theorem waiter_enabled {clock p f t : ℕ} {key : Key} (h : Reachable settings clock s)
    (hwaiting : (s.calls p).outer = .waiting key t f)
    (hdone : (s.calls f).outer.outcome.isSome = true) :
    (step settings s (.advance p)).isSome = true := by
  have hidle : (s.calls p).inner = .idle := by
    refine (nested_of_reachable h p).resolve_right ?_
    rw [hwaiting]
    rintro (hdirect | ⟨own, oldest, hbuilding⟩)
    · cases hdirect
    · cases hbuilding
  obtain ⟨outcome, houtcome⟩ := Option.isSome_iff_exists.mp hdone
  cases outcome <;> simp [step, act, hidle, advanceOuter, hwaiting, houtcome]

/-- A reader whose event is set can go on. -/
theorem reader_enabled {p : ℕ} {read : Read Group} {event : EventId}
    (hwaiting : (s.calls p).inner = .waiting read event) (hset : s.eventSet event = true) :
    (step settings s (.advance p)).isSome = true := by
  simp [step, act, hwaiting, advanceInner, hset]

/-! ## The barrier -/

variable (settings) in
/-- Whatever others do, the call can take `n` more steps of its own, and when it has, its future is done
and no marker names it. -/
def ReleasesFuture (s : State Key Group V P) (p n : ℕ) : Prop :=
  ∀ labels s', after (step settings) s labels = some s' →
    (labels.countP (Label.advances p) < n → (step settings s' (.advance p)).isSome = true) ∧
    (n ≤ labels.countP (Label.advances p) →
      (s'.calls p).outer.outcome.isSome = true ∧ ∀ key, s'.inflight key ≠ some p)

variable (settings) in
/-- Whatever others do, the call can take `n` more steps of its own, and when it has, the event of its
load is set and no marker names it. -/
def ReleasesEvent (s : State Key Group V P) (p n : ℕ) (event : EventId) : Prop :=
  ∀ labels s', after (step settings) s labels = some s' →
    (labels.countP (Label.advances p) < n → (step settings s' (.advance p)).isSome = true) ∧
    (n ≤ labels.countP (Label.advances p) →
      s'.eventSet event = true ∧ ∀ endpoint, s'.payloadInflight endpoint ≠ some event)

theorem marker_active (h : Inv settings s) {p : ℕ} {key : Key} (hmark : s.inflight key = some p) :
    ∃ own, (s.calls p).outer.active = some own ∧ own.key = key := by
  obtain ⟨t, hactive, _⟩ := h.markers.marked key p hmark
  obtain ⟨own, hown, hpair⟩ := Option.map_eq_some_iff.mp hactive
  cases hpair
  exact ⟨own, hown, rfl⟩

theorem payloadMarker_unset (h : Inv settings s) {event : EventId} {endpoint : Group}
    (hmark : s.payloadInflight endpoint = some event) : s.eventSet event = false := by
  obtain ⟨t, hactive, _⟩ := h.payloadMarkers.marked endpoint event hmark
  obtain ⟨load, hload, hid⟩ := Option.bind_eq_some_iff.mp hactive
  simp only [Option.ite_none_right_eq_some] at hid
  have hload' : (s.calls event.1).inner.load = some load := by
    cases hinner : (s.calls event.1).inner <;> rw [hinner] at hload <;>
      first | exact hload | cases hload
  rw [← hid.1]
  exact ((h.inner event.1).loads load hload').2.2.2.2

/-- A call past its builder is never blocked. -/
theorem Ending.enabled {p n : ℕ} {own : Ownership Key} (h : Ending s p own (n + 1)) :
    (step settings s (.advance p)).isSome = true := by
  obtain ⟨hidle, _, hremaining⟩ := h
  simp only [step, act, hidle, advanceOuter, Option.isSome_map]
  cases houter : (s.calls p).outer <;> rw [houter] at hremaining <;>
    first | rfl | cases hremaining

/-- A read past its load is never blocked. -/
theorem LoadEnding.enabled {p n : ℕ} {load : Load Group} (h : LoadEnding s p load (n + 1)) :
    (step settings s (.advance p)).isSome = true := by
  obtain ⟨_, hremaining⟩ := h
  cases hinner : (s.calls p).inner <;> rw [hinner] at hremaining <;>
    first | (simp [step, act, hinner, advanceInner]; done) | cases hremaining

theorem releasesFuture {clock : ℕ} (h : Reachable settings clock s) {p n : ℕ} {o : Ownership Key}
    (hending : Ending s p o n) : ReleasesFuture settings s p n := by
  intro labels s' hrun
  obtain ⟨m, hm, hend⟩ := ending_after hending hrun
  refine ⟨fun hcount => ?_, fun hcount => ?_⟩
  · obtain ⟨k, rfl⟩ : ∃ k, m = k + 1 := ⟨m - 1, by omega⟩
    exact hend.enabled
  obtain rfl : m = 0 := by omega
  obtain ⟨_, hfuture, hremaining⟩ := hend
  have hinv := Reachable.inv (Reached.after h hrun)
  cases houter : (s'.calls p).outer with
  | finished future =>
    rw [houter] at hfuture
    refine ⟨?_, ?_⟩
    · cases future with
      | none => cases hfuture
      | some pair => rfl
    · intro key hmark
      obtain ⟨own', hactive, _⟩ := marker_active hinv hmark
      rw [houter] at hactive
      cases hactive
  | unused => rw [houter] at hremaining; cases hremaining
  | direct => rw [houter] at hremaining; cases hremaining
  | called => rw [houter] at hremaining; cases hremaining
  | waiting => rw [houter] at hremaining; cases hremaining
  | registered => rw [houter] at hremaining; cases hremaining
  | building => rw [houter] at hremaining; cases hremaining
  | built => rw [houter] at hremaining; cases hremaining
  | stored => rw [houter] at hremaining; cases hremaining
  | failed => rw [houter] at hremaining; cases hremaining
  | resolved => rw [houter] at hremaining; cases hremaining

theorem releasesEvent {clock : ℕ} (h : Reachable settings clock s) {p n : ℕ} {load : Load Group}
    (hending : LoadEnding s p load n) : ReleasesEvent settings s p n load.event := by
  intro labels s' hrun
  have hset := loadEnding_after hending hrun
  refine ⟨fun hcount => ?_, fun hcount => ?_⟩
  · obtain ⟨k, hk⟩ : ∃ k, n - labels.countP (Label.advances p) = k + 1 :=
      ⟨n - labels.countP (Label.advances p) - 1, by omega⟩
    rw [hk] at hset
    exact hset.enabled
  rw [Nat.sub_eq_zero_of_le hcount] at hset
  have hset : s'.eventSet load.event = true := hset
  refine ⟨hset, ?_⟩
  intro endpoint hmark
  have hunset := payloadMarker_unset (Reachable.inv (Reached.after h hrun)) hmark
  rw [hset] at hunset
  cases hunset

theorem builders_single (hinv : Inv settings s) {p q : ℕ} {own own' : Ownership Key}
    {oldest oldest' : ℕ} (hp : (s.calls p).outer = .building own oldest)
    (hq : (s.calls q).outer = .building own' oldest') (hkey : own.key = own'.key)
    (hsame : SameGeneration s.invalidations (settings.group own.key) own.registeredAt
      own'.registeredAt) : p = q := by
  refine hinv.markers.single p q own.key own.registeredAt own'.registeredAt ?_ ?_ hsame
  · unfold State.active
    rw [hp]
    rfl
  · unfold State.active
    rw [hq, hkey]
    rfl

theorem loads_single (hinv : Inv settings s) {p q : ℕ} {load load' : Load Group} {t t' : ℕ}
    (hp : (s.calls p).inner = .loading load t) (hq : (s.calls q).inner = .loading load' t')
    (hendpoint : load.read.endpoint = load'.read.endpoint)
    (hsame : SameGeneration s.invalidations load.read.endpoint load.registeredAt load'.registeredAt) :
    p = q := by
  obtain ⟨_, _, hid, _⟩ := (hinv.inner p).loads load (by rw [hp]; rfl)
  obtain ⟨_, _, hid', _⟩ := (hinv.inner q).loads load' (by rw [hq]; rfl)
  have hevent := hinv.payloadMarkers.single load.event load'.event load.read.endpoint
    load.registeredAt load'.registeredAt ?_ ?_ hsame
  · rw [← hid, ← hid', hevent]
  · unfold State.activeLoad
    rw [hid, hp]
    simp [Inner.marks, Inner.load]
  · unfold State.activeLoad
    rw [hid', hq]
    simp [Inner.marks, Inner.load, hendpoint]

/-- A waiter waits for a running call, or for a result that is there. -/
theorem waiter_answered (hinv : Inv settings s) {p t f : ℕ} {key : Key}
    (hwaiting : (s.calls p).outer = .waiting key t f) :
    (∃ own, (s.calls f).outer.active = some own ∧ own.key = key) ∨
      ((s.calls f).outer.outcome.isSome = true ∧ s.inflight key ≠ some f) := by
  obtain ⟨own, hown, hkey, _⟩ := (hinv.outer p).waits key t f hwaiting
  cases houter : (s.calls f).outer with
  | finished future =>
    right
    rw [houter] at hown
    constructor
    · cases future with
      | none => cases hown
      | some pair => rfl
    · intro hmark
      obtain ⟨own', hactive, _⟩ := marker_active hinv hmark
      rw [houter] at hactive
      cases hactive
  | unused => rw [houter] at hown; cases hown
  | direct => rw [houter] at hown; cases hown
  | called => rw [houter] at hown; cases hown
  | waiting => rw [houter] at hown; cases hown
  | registered => exact .inl ⟨own, by rw [houter] at hown; exact hown, hkey⟩
  | building => exact .inl ⟨own, by rw [houter] at hown; exact hown, hkey⟩
  | built => exact .inl ⟨own, by rw [houter] at hown; exact hown, hkey⟩
  | stored => exact .inl ⟨own, by rw [houter] at hown; exact hown, hkey⟩
  | failed => exact .inl ⟨own, by rw [houter] at hown; exact hown, hkey⟩
  | resolved => exact .inl ⟨own, by rw [houter] at hown; exact hown, hkey⟩

theorem reader_answered (hinv : Inv settings s) {p : ℕ} {read : Read Group} {event : EventId}
    (hwaiting : (s.calls p).inner = .waiting read event) :
    (∃ load, (s.calls event.1).inner.load = some load ∧ load.event = event) ∨
      (s.eventSet event = true ∧ s.payloadInflight read.endpoint ≠ some event) := by
  rcases (hinv.inner p).waits read event hwaiting with hset | hload
  · refine .inr ⟨hset, ?_⟩
    intro hmark
    have hunset := payloadMarker_unset hinv hmark
    rw [hset] at hunset
    cases hunset
  · exact .inl hload

theorem builderReturns_releases {clock p : ℕ} {value : V} {s₁ : State Key Group V P}
    (h : Reachable settings clock s) (hs : step settings s (.builderReturns p value) = some s₁) :
    ReleasesFuture settings s₁ p 3 := by
  have hreach : Reachable settings clock s₁ := Reached.step h trivial hs
  obtain ⟨acted, hact, rfl⟩ := Option.map_eq_some_iff.mp hs
  simp only [act] at hact
  split at hact <;> cases hact
  rename_i own oldest _ hidle
  exact releasesFuture (o := own) hreach
    (by simp [Ending, State.setOuter, hidle, Outer.future, Outer.active, Outer.remaining])

theorem builderRaises_releases {clock p : ℕ} {s₁ : State Key Group V P}
    (h : Reachable settings clock s) (hs : step settings s (.builderRaises p) = some s₁) :
    ReleasesFuture settings s₁ p 2 := by
  have hreach : Reachable settings clock s₁ := Reached.step h trivial hs
  obtain ⟨acted, hact, rfl⟩ := Option.map_eq_some_iff.mp hs
  simp only [act] at hact
  split at hact <;> cases hact
  rename_i own oldest _ hidle
  exact releasesFuture (o := own) hreach
    (by simp [Ending, State.setOuter, hidle, Outer.future, Outer.active, Outer.remaining])

theorem loadReturns_releases {clock p t : ℕ} {load : Load Group} {entries : P}
    {s₁ : State Key Group V P} (h : Reachable settings clock s)
    (hloading : (s.calls p).inner = .loading load t)
    (hs : step settings s (.loadReturns p entries) = some s₁) :
    ReleasesEvent settings s₁ p 3 load.event := by
  have hreach : Reachable settings clock s₁ := Reached.step h trivial hs
  obtain ⟨acted, hact, rfl⟩ := Option.map_eq_some_iff.mp hs
  simp only [act, hloading] at hact
  cases hact
  exact releasesEvent hreach
    (by simp [LoadEnding, State.setInner, Inner.load, Inner.remaining])

theorem loadRaises_releases {clock p t : ℕ} {load : Load Group} {s₁ : State Key Group V P}
    (h : Reachable settings clock s) (hloading : (s.calls p).inner = .loading load t)
    (hs : step settings s (.loadRaises p) = some s₁) : ReleasesEvent settings s₁ p 2 load.event := by
  have hreach : Reachable settings clock s₁ := Reached.step h trivial hs
  obtain ⟨acted, hact, rfl⟩ := Option.map_eq_some_iff.mp hs
  simp only [act, hloading] at hact
  cases hact
  exact releasesEvent hreach
    (by simp [LoadEnding, State.setInner, Inner.load, Inner.remaining])

/-- An invalidation is a barrier for listings and payloads; a key and an endpoint have one builder in
a generation; a waiter waits for a running call, or for a result that is there and that it can take; and
an owner whose builder has ended can always go on until its future is done and its marker is gone. -/
theorem invalidation_is_barrier (settings : Settings Key Group) (clock : ℕ)
    (s : State Key Group V P) (h : Reachable settings clock s) :
    (∀ r ∈ s.listings, ∀ i ∈ s.invalidations, i.covers (settings.group r.key) = true →
      i.time < r.startedAt → i.time < r.loaded.oldest) ∧
    (∀ r ∈ s.payloads, ∀ i ∈ s.invalidations, i.covers r.key = true →
      i.time < r.startedAt → i.time < r.loaded.oldest) ∧
    (∀ p q own own' oldest oldest', (s.calls p).outer = .building own oldest →
      (s.calls q).outer = .building own' oldest' → own.key = own'.key →
        SameGeneration s.invalidations (settings.group own.key) own.registeredAt
          own'.registeredAt → p = q) ∧
    (∀ p q load load' t t', (s.calls p).inner = .loading load t →
      (s.calls q).inner = .loading load' t' → load.read.endpoint = load'.read.endpoint →
        SameGeneration s.invalidations load.read.endpoint load.registeredAt load'.registeredAt →
          p = q) ∧
    (∀ p key t f, (s.calls p).outer = .waiting key t f →
      (∃ own, (s.calls f).outer.active = some own ∧ own.key = key) ∨
        ((s.calls f).outer.outcome.isSome = true ∧ s.inflight key ≠ some f)) ∧
    (∀ p read event, (s.calls p).inner = .waiting read event →
      (∃ load, (s.calls event.1).inner.load = some load ∧ load.event = event) ∨
        (s.eventSet event = true ∧ s.payloadInflight read.endpoint ≠ some event)) ∧
    (∀ p key t f, (s.calls p).outer = .waiting key t f →
      (s.calls f).outer.outcome.isSome = true → (step settings s (.advance p)).isSome = true) ∧
    (∀ p read event, (s.calls p).inner = .waiting read event → s.eventSet event = true →
      (step settings s (.advance p)).isSome = true) ∧
    (∀ p s₁, (∀ value, step settings s (.builderReturns p value) = some s₁ →
        ReleasesFuture settings s₁ p 3) ∧
      (step settings s (.builderRaises p) = some s₁ → ReleasesFuture settings s₁ p 2)) ∧
    ∀ p load t s₁, (s.calls p).inner = .loading load t →
      (∀ entries, step settings s (.loadReturns p entries) = some s₁ →
        ReleasesEvent settings s₁ p 3 load.event) ∧
      (step settings s (.loadRaises p) = some s₁ → ReleasesEvent settings s₁ p 2 load.event) := by
  have hinv := h.inv
  exact ⟨fun r hr => (hinv.listings r hr).2, fun r hr => (hinv.payloads r hr).2,
    fun p q own own' oldest oldest' => builders_single hinv,
    fun p q load load' t t' => loads_single hinv,
    fun p key t f => waiter_answered hinv, fun p read event => reader_answered hinv,
    fun p key t f => waiter_enabled h, fun p read event => reader_enabled,
    fun p s₁ => ⟨fun value => builderReturns_releases h, builderRaises_releases h⟩,
    fun p load t s₁ hloading => ⟨fun entries => loadReturns_releases h hloading,
      loadRaises_releases h hloading⟩⟩

/-- A listing of endpoint 7 builds on a payload; the endpoint is invalidated before it is stored, and
a second call builds again while the first returns what it has. Then call 3 waits for call 2, which
builds a listing of endpoint 8. -/
def detachedBuild : List (Label ℕ ℕ String String) :=
  [.call 0 7, .advance 0, .advance 0, .readPayload 0 7 true, .advance 0, .advance 0,
    .loadReturns 0 "before", .advance 0, .advance 0, .advance 0, .builderReturns 0 "before",
    .invalidate (· = 7), .call 1 7, .advance 1, .advance 1, .advance 0, .advance 0, .advance 0,
    .readPayload 1 7 false, .advance 1, .advance 1, .loadReturns 1 "after", .advance 1, .advance 1,
    .advance 1, .builderReturns 1 "after", .advance 1, .advance 1, .advance 1, .call 2 8, .advance 2,
    .advance 2, .call 3 8, .advance 3]

/-- The second listing is fresh; the builder of the third call raises, and its waiter is released. -/
theorem invalidation_is_barrier_detachedBuild :
    ∃ s s₁ s₂ : State ℕ ℕ String String,
      after (step ⟨id, 30, 64, 30, 16⟩) (State.init 0) detachedBuild = some s ∧
        (∃ r ∈ s.listings, r.loaded.value = "after" ∧ ∃ i ∈ s.invalidations,
          i.covers r.key = true ∧ i.time < r.startedAt ∧ i.time < r.loaded.oldest) ∧
        (s.calls 3).outer = .waiting 8 32 2 ∧
        step ⟨id, 30, 64, 30, 16⟩ s (.builderRaises 2) = some s₁ ∧
        (step ⟨id, 30, 64, 30, 16⟩ s₁ (.advance 2)).isSome = true ∧
        after (step ⟨id, 30, 64, 30, 16⟩) s₁ [.advance 2, .advance 2] = some s₂ ∧
        (∀ key, s₂.inflight key ≠ some 2) ∧
        (step ⟨id, 30, 64, 30, 16⟩ s₂ (.advance 3)).isSome = true := by
  have hrun : (after (step ⟨id, 30, 64, 30, 16⟩) (State.init 0) detachedBuild).any (fun s =>
      (s.listings.any fun r => r.loaded.value = "after" && s.invalidations.any fun i =>
        i.covers r.key && i.time < r.startedAt) &&
      decide ((s.calls 3).outer = .waiting 8 32 2) &&
      (step ⟨id, 30, 64, 30, 16⟩ s (.builderRaises 2)).any fun s₁ =>
        (after (step ⟨id, 30, 64, 30, 16⟩) s₁ [.advance 2, .advance 2]).any fun s₂ =>
          decide ((s₂.calls 3).outer = .waiting 8 32 2)) = true := by
    decide +kernel
  obtain ⟨s, hs, hend⟩ := (Option.any_eq_true _ _).mp hrun
  simp only [Bool.and_eq_true, decide_eq_true_eq, List.any_eq_true, Option.any_eq_true] at hend
  obtain ⟨⟨⟨r, hr, hvalue, i, hi, hcovers, hlt⟩, hwaiting⟩, s₁, hs₁, s₂, hs₂, hwaiting₂⟩ := hend
  have hreached : Reachable ⟨id, 30, 64, 30, 16⟩ 0 s := Reached.init.after hs
  have hreached₂ : Reachable ⟨id, 30, 64, 30, 16⟩ 0 s₂ :=
    (Reached.step hreached trivial hs₁).after hs₂
  have hbarrier := invalidation_is_barrier ⟨id, 30, 64, 30, 16⟩ 0 s hreached
  have hreleases := (hbarrier.2.2.2.2.2.2.2.2.1 2 s₁).2 hs₁
  obtain ⟨hdone, hfree⟩ := (hreleases _ s₂ hs₂).2 (by decide)
  exact ⟨s, s₁, s₂, hs, ⟨r, hr, hvalue, i, hi, hcovers, hlt, hbarrier.1 r hr i hi hcovers hlt⟩,
    hwaiting, hs₁, (hreleases [] s₁ rfl).1 (by decide), hs₂, hfree,
    (invalidation_is_barrier ⟨id, 30, 64, 30, 16⟩ 0 s₂ hreached₂).2.2.2.2.2.2.1 3 8 32 2 hwaiting₂
      hdone⟩

end Listings
end BucketReef

import BucketReef.Effects.Parties
import BucketReef.RateLimits.Attempts

/-!
# What the rate limit bounds

No failure is lost between handlers that record at once, and the handlers that passed the check before
the limit was reached are all that can go beyond it. Both are invariants of one key.
-/

namespace BucketReef
namespace RateLimit

open Transitions Parties

variable {ι : Type} [DecidableEq ι]

/-! ## What a handler is about to write -/

/-- What a transaction does to the count of a row. -/
inductive Change
  | add
  | remove
  deriving DecidableEq, Repr

def Change.apply : Change → ℕ → ℕ
  | add, n => n + 1
  | remove, _ => 0

/-- A row exists once it counts a failure. -/
def stored (n : ℕ) : Option ℕ := if n = 0 then none else some n

@[simp] theorem stored_zero : stored 0 = none := rfl

@[simp] theorem stored_succ (n : ℕ) : stored (n + 1) = some (n + 1) := rfl

theorem stored_eq_none {n : ℕ} : stored n = none ↔ n = 0 := by
  unfold stored
  split <;> simp [*]

@[simp] theorem stored_getD (n : ℕ) : (stored n).getD 0 = n := by
  cases n <;> rfl

section Phases

variable (service : AuthRateLimitService) (key : Key) (window : ℕ)

/-- What the handler has written of the row and not committed. -/
def Phase.change : Phase → Option Change
  | .recording attempt window' todo =>
    if key ∈ service.keys attempt ∧ key ∉ todo ∧ window' = window then some .add else none
  | .inserting attempt window' key' todo | .updatingAgain attempt window' key' todo =>
    if key ∈ service.keys attempt ∧ key ∉ key' :: todo ∧ window' = window then some .add else none
  | .clearing attempt _ cleared =>
    if key = service.accountKey attempt ∧ window ∈ cleared then some .remove else none
  | _ => none

/-- The handler can still add to the row without a check of it. -/
def Phase.MayFail : Phase → Prop
  | .checking attempt now todo => key ∈ service.keys attempt ∧
      (service.windowStart now < window ∨ service.windowStart now = window ∧ key ∉ todo)
  | .authenticating attempt now => key ∈ service.keys attempt ∧ service.windowStart now ≤ window
  | .recording attempt window' _ | .inserting attempt window' _ _
  | .updatingAgain attempt window' _ _ => key ∈ service.keys attempt ∧ window' = window
  | .idle | .clearing _ _ _ => False

instance : DecidablePred (Phase.MayFail service key window)
  | .checking _ _ _ => inferInstanceAs (Decidable (_ ∧ _))
  | .authenticating _ _ => inferInstanceAs (Decidable (_ ∧ _))
  | .recording _ _ _ => inferInstanceAs (Decidable (_ ∧ _))
  | .inserting _ _ _ _ => inferInstanceAs (Decidable (_ ∧ _))
  | .updatingAgain _ _ _ _ => inferInstanceAs (Decidable (_ ∧ _))
  | .idle => inferInstanceAs (Decidable False)
  | .clearing _ _ _ => inferInstanceAs (Decidable False)

/-- The clock has reached the handler, and its keys are in the order of the service. -/
def Phase.Valid (clock : ℕ) : Phase → Prop
  | .checking _ now _ | .authenticating _ now => now ≤ clock
  | .recording attempt window' todo =>
    window' ≤ service.windowStart clock ∧ todo <:+ service.keys attempt
  | .inserting attempt window' key' todo | .updatingAgain attempt window' key' todo =>
    window' ≤ service.windowStart clock ∧ (key' :: todo) <:+ service.keys attempt
  | .idle | .clearing _ _ _ => True

end Phases

variable {service : AuthRateLimitService} {key : Key} {s s' : State ι} {p : ι}

theorem AuthRateLimitService.keys_nodup (attempt : AuthAttemptContext) :
    (service.keys attempt).Nodup := by
  simp [keys, accountKey]

theorem AuthRateLimitService.maximum_pos (key : Key) : 1 ≤ service.maximum key := by
  have h := service.maxAttempts_pos
  cases key <;> simp only [maximum] <;> omega

theorem Phase.Valid.mono {clock later : ℕ} {phase : Phase} (hle : clock ≤ later)
    (h : phase.Valid service clock) : phase.Valid service later := by
  have hwindow := service.windowStart_mono hle
  cases phase with
  | idle => trivial
  | checking attempt now todo => exact le_trans h hle
  | authenticating attempt now => exact le_trans h hle
  | recording attempt window todo => exact ⟨h.1.trans hwindow, h.2⟩
  | inserting attempt window key' todo => exact ⟨h.1.trans hwindow, h.2⟩
  | updatingAgain attempt window key' todo => exact ⟨h.1.trans hwindow, h.2⟩
  | clearing attempt todo cleared => trivial

theorem added_of_ite {attempt : AuthAttemptContext} {window window' start : ℕ} {todo : List Key}
    (hstart : window' ≤ start)
    (h : (if key ∈ service.keys attempt ∧ key ∉ todo ∧ window' = window then some Change.add
      else none) = some .add) :
    window ≤ start ∧ key ∈ service.keys attempt ∧ window' = window := by
  rw [Option.ite_none_right_eq_some] at h
  obtain ⟨⟨hkey, -, rfl⟩, -⟩ := h
  exact ⟨hstart, hkey, rfl⟩

/-- What is added is of a window that has started, by a handler that may fail. -/
theorem Phase.change_add {clock window : ℕ} {phase : Phase} (hvalid : phase.Valid service clock)
    (h : phase.change service key window = some .add) :
    window ≤ service.windowStart clock ∧ phase.MayFail service key window := by
  cases phase with
  | recording attempt window' todo => exact added_of_ite hvalid.1 h
  | inserting attempt window' key' todo => exact added_of_ite hvalid.1 h
  | updatingAgain attempt window' key' todo => exact added_of_ite hvalid.1 h
  | clearing attempt todo cleared => simp [Phase.change] at h
  | idle => simp [Phase.change] at h
  | checking attempt now todo => simp [Phase.change] at h
  | authenticating attempt now => simp [Phase.change] at h

/-! ## The invariant of a key -/

/-- The failures of a key and a window, with those that handlers may still add. -/
structure Inv [Fintype ι] (service : AuthRateLimitService) (key : Key) (s : State ι) : Prop where
  counted : ∀ window, s.attempts key window = stored (failures service key window s.history)
  unstarted : ∀ window, service.windowStart s.clock < window →
    failures service key window s.history = 0
  valid : ∀ p, (s.phase p).Valid service s.clock
  drafted : ∀ window p value, s.draft key window = some (p, value) ↔
    ∃ change, (s.phase p).change service key window = some change ∧
      value = stored (change.apply (failures service key window s.history))
  bounded : ∀ window, failures service key window s.history +
      number (Phase.MayFail service key window) s.phase ≤
    service.maximum key - 1 + Fintype.card ι

variable [Fintype ι]

theorem inv_init (clock : ℕ) : Inv service key (State.init clock : State ι) where
  counted _ := rfl
  unstarted _ _ := rfl
  valid _ := trivial
  drafted window p value := by simp [State.init, Phase.change]
  bounded window := by
    have h := number_le_card (Phase.MayFail service key window) (State.init clock : State ι).phase
    simp only [State.init, failures] at h ⊢
    omega

omit [DecidableEq ι] in
theorem Inv.tick (h : Inv service key s) (elapsed : ℕ) :
    Inv service key { s with clock := s.clock + elapsed } where
  counted := h.counted
  unstarted window hlt :=
    h.unstarted window ((service.windowStart_mono (Nat.le_add_right _ _)).trans_lt hlt)
  valid p := (h.valid p).mono (Nat.le_add_right _ _)
  drafted := h.drafted
  bounded := h.bounded

/-- A handler that was not counted may add to the row as long as the limit is not reached. -/
theorem Inv.bounded_goto (h : Inv service key s) {next : Phase} {window : ℕ}
    (hfail : next.MayFail service key window → (s.phase p).MayFail service key window ∨
      failures service key window s.history < service.maximum key) :
    failures service key window s.history +
        number (Phase.MayFail service key window) (Function.update s.phase p next) ≤
      service.maximum key - 1 + Fintype.card ι := by
  by_cases hlt : failures service key window s.history < service.maximum key
  · have hcard := number_le_card (Phase.MayFail service key window)
      (Function.update s.phase p next)
    omega
  · have hle : number (Phase.MayFail service key window) (Function.update s.phase p next) ≤
        number (Phase.MayFail service key window) s.phase :=
      number_update_le fun hnext => (hfail hnext).resolve_right hlt
    have hbound := h.bounded window
    omega

theorem valid_update {next : Phase} (h : Inv service key s) (hvalid : next.Valid service s.clock)
    (q : ι) : (Function.update s.phase p next q).Valid service s.clock := by
  by_cases hq : q = p
  · subst hq
    rwa [Function.update_self]
  · rw [Function.update_of_ne hq]
    exact h.valid q

theorem Inv.goto (h : Inv service key s) {next : Phase} (hvalid : next.Valid service s.clock)
    (hchange : ∀ window, next.change service key window = (s.phase p).change service key window)
    (hfail : ∀ window, next.MayFail service key window →
      (s.phase p).MayFail service key window ∨
        failures service key window s.history < service.maximum key) :
    Inv service key (s.goto p next) where
  counted := h.counted
  unstarted := h.unstarted
  valid := valid_update h hvalid
  drafted window q value := by
    rw [show (s.goto p next).draft = s.draft from rfl, h.drafted window q value]
    by_cases hq : q = p
    · subst hq
      simp only [State.goto, Function.update_self, hchange]
    · simp only [State.goto, Function.update_of_ne hq]
  bounded window := h.bounded_goto (hfail window)

theorem Inv.write (h : Inv service key s) (change : Change) {key' : Key} {window' : ℕ}
    {value : Option ℕ} {next : Phase} (hwrite : s.write p key' window' value next = some s')
    (hvalid : next.Valid service s.clock)
    (hchange : ∀ window, next.change service key window =
      if key = key' ∧ window = window' then some change
      else (s.phase p).change service key window)
    (hvalue : key = key' →
      value = stored (change.apply (failures service key window' s.history)))
    (hfail : ∀ window, next.MayFail service key window →
      (s.phase p).MayFail service key window ∨
        failures service key window s.history < service.maximum key) :
    Inv service key s' := by
  unfold State.write at hwrite
  split at hwrite
  · cases hwrite
  · rename_i hfree
    cases hwrite
    refine ⟨h.counted, h.unstarted, valid_update h hvalid, fun window q written => ?_,
      fun window => h.bounded_goto (hfail window)⟩
    by_cases hrow : key = key' ∧ window = window'
    · obtain ⟨rfl, rfl⟩ := hrow
      -- nobody else has written the row
      have hnone : ∀ q, (s.phase q).change service key window = none := by
        intro q
        by_contra hne
        obtain ⟨other, hother⟩ := Option.ne_none_iff_exists'.mp hne
        have hdraft := (h.drafted window q _).mpr ⟨other, hother, rfl⟩
        rw [hfree] at hdraft
        cases hdraft
      simp only [Function.update_self, State.goto, Option.some.injEq, Prod.mk.injEq]
      by_cases hq : q = p
      · subst hq
        simp only [Function.update_self, hchange, and_self, if_true, Option.some.injEq,
          exists_eq_left', true_and, hvalue rfl]
        exact eq_comm
      · simp only [Function.update_of_ne hq, hnone, reduceCtorEq, false_and, exists_false, iff_false,
          not_and]
        exact fun hp => absurd hp.symm hq
    · have hdraft : Function.update s.draft key'
          (Function.update (s.draft key') window' (some (p, value))) key window =
            s.draft key window := by
        by_cases hkey : key = key'
        · subst hkey
          rw [Function.update_self, Function.update_of_ne fun hw => hrow ⟨rfl, hw⟩]
        · rw [Function.update_of_ne hkey]
      simp only [State.goto, hdraft]
      rw [h.drafted window q written]
      by_cases hq : q = p
      · subst hq
        simp only [Function.update_self, hchange, if_neg hrow]
      · simp only [Function.update_of_ne hq]

/-- A handler that leaves what others have written where it is. -/
theorem Inv.drafted_rollback (h : Inv service key s) {window : ℕ} {q : ι} {value : Option ℕ} :
    (s.rollback p).draft key window = some (q, value) ↔
      ∃ change, ((s.rollback p).phase q).change service key window = some change ∧
        value = stored (change.apply (failures service key window s.history)) := by
  simp only [State.rollback, State.goto, Option.filter_eq_some_iff, decide_eq_true_eq]
  by_cases hq : q = p
  · subst hq
    simp [Phase.change]
  · rw [h.drafted window q value, Function.update_of_ne hq]
    exact and_iff_left hq

theorem Inv.rollback (h : Inv service key s) : Inv service key (s.rollback p) where
  counted := h.counted
  unstarted := h.unstarted
  valid := valid_update h trivial
  drafted _ _ _ := h.drafted_rollback
  bounded _ := h.bounded_goto False.elim

omit [Fintype ι] in
theorem attempts_commit {event : Event} {window : ℕ} {value : Option ℕ}
    (h : s.draft key window = some (p, value)) : (s.commit p event).attempts key window = value := by
  simp only [State.commit, h, if_true]

omit [Fintype ι] in
theorem attempts_commit_of_ne {event : Event} {window : ℕ}
    (h : ∀ value, s.draft key window ≠ some (p, value)) :
    (s.commit p event).attempts key window = s.attempts key window := by
  simp only [State.commit]
  split
  · rename_i q value hdraft
    refine if_neg fun hq => h value ?_
    rw [hdraft, hq]
  · rfl

theorem Inv.commit (h : Inv service key s) {event : Event}
    (hevent : ∀ window, failures service key window (event :: s.history) =
      ((s.phase p).change service key window).elim (failures service key window s.history)
        fun change => change.apply (failures service key window s.history)) :
    Inv service key (s.commit p event) where
  counted window := by
    show (s.commit p event).attempts key window =
      stored (failures service key window (event :: s.history))
    rw [hevent]
    cases hchange : (s.phase p).change service key window with
    | none =>
      rw [Option.elim_none, ← h.counted window]
      refine attempts_commit_of_ne fun value hdraft => ?_
      obtain ⟨change, hsome, -⟩ := (h.drafted window p value).mp hdraft
      rw [hchange] at hsome
      cases hsome
    | some change =>
      exact attempts_commit ((h.drafted window p _).mpr ⟨change, hchange, rfl⟩)
  unstarted window hlt := by
    have hzero := h.unstarted window hlt
    show failures service key window (event :: s.history) = 0
    rw [hevent]
    cases hchange : (s.phase p).change service key window with
    | none => exact hzero
    | some change =>
      cases change with
      | add => exact absurd (Phase.change_add (h.valid p) hchange).1 (not_le.mpr hlt)
      | remove => rfl
  valid := valid_update h trivial
  drafted window q value := by
    show (s.rollback p).draft key window = some (q, value) ↔
      ∃ change, ((s.rollback p).phase q).change service key window = some change ∧
        value = stored (change.apply (failures service key window (event :: s.history)))
    rw [h.drafted_rollback]
    cases hchange : (s.phase p).change service key window with
    | none => rw [hevent, hchange, Option.elim_none]
    | some change =>
      -- the row is of the handler that commits, so no other has written it
      have hnone : ((s.rollback p).phase q).change service key window = none := by
        by_contra hne
        obtain ⟨other, hother⟩ := Option.ne_none_iff_exists'.mp hne
        have hheld := h.drafted_rollback.mpr ⟨other, hother, rfl⟩
        simp only [State.rollback, (h.drafted window p _).mpr ⟨change, hchange, rfl⟩,
          Option.filter_eq_some_iff, decide_eq_true_eq, Option.some.injEq, Prod.mk.injEq] at hheld
        exact hheld.2 hheld.1.1.symm
      simp only [hnone, reduceCtorEq, false_and, exists_false]
  bounded window := by
    have hbound := h.bounded window
    show failures service key window (event :: s.history) +
      number (Phase.MayFail service key window) (Function.update s.phase p .idle) ≤ _
    rw [hevent]
    cases hchange : (s.phase p).change service key window with
    | none => exact h.bounded_goto False.elim
    | some change =>
      cases change with
      | add =>
        have hlt : number (Phase.MayFail service key window) (Function.update s.phase p .idle) <
            number (Phase.MayFail service key window) s.phase :=
          number_update_lt (Phase.change_add (h.valid p) hchange).2 id
        simp only [Option.elim_some, Change.apply]
        omega
      | remove =>
        have hcard := number_le_card (Phase.MayFail service key window)
          (Function.update s.phase p .idle)
        simp only [Option.elim_some, Change.apply]
        omega

/-! ## One statement of a handler -/

omit [DecidableEq ι] in
/-- A handler that updates or inserts the row of the first key it has left adds to that row. -/
theorem Phase.change_recording {attempt : AuthAttemptContext} {window' : ℕ} {key' : Key}
    {todo : List Key} (hsuffix : (key' :: todo) <:+ service.keys attempt) (window : ℕ) :
    (Phase.recording attempt window' todo).change service key window =
      if key = key' ∧ window = window' then some .add
      else (Phase.recording attempt window' (key' :: todo)).change service key window := by
  have hmem : key' ∈ service.keys attempt := hsuffix.subset List.mem_cons_self
  have hnot : key' ∉ todo :=
    (List.nodup_cons.mp (hsuffix.sublist.nodup (service.keys_nodup attempt))).1
  by_cases hkey : key = key'
  · subst hkey
    simp only [Phase.change, hmem, hnot, not_false_eq_true, true_and, List.mem_cons_self,
      not_true_eq_false, false_and, and_false, if_false]
    exact if_congr eq_comm rfl rfl
  · simp only [Phase.change, hkey, false_and, if_false, List.mem_cons, false_or]

omit [DecidableEq ι] in
theorem Phase.change_clearing {attempt : AuthAttemptContext} {window' : ℕ} {todo todo' cleared : List ℕ}
    (window : ℕ) :
    (Phase.clearing attempt todo (window' :: cleared)).change service key window =
      if key = service.accountKey attempt ∧ window = window' then some .remove
      else (Phase.clearing attempt todo' cleared).change service key window := by
  by_cases hkey : key = service.accountKey attempt
  · by_cases hwindow : window = window' <;> simp [Phase.change, hkey, hwindow]
  · simp [Phase.change, hkey]

/-- The second update of `record_failure` finds its row. -/
def FindsRow (key : Key) (s : State ι) (p : ι) : Prop :=
  ∀ attempt window todo, s.phase p = .updatingAgain attempt window key todo →
    s.attempts key window ≠ none

theorem Inv.checkKey (h : Inv service key s) {attempt : AuthAttemptContext} {now : ℕ} {key' : Key}
    {todo : List Key} (hphase : s.phase p = .checking attempt now (key' :: todo))
    (hbelow : ¬ (s.attempts key' (service.windowStart now)).any
      fun n => service.maximum key' ≤ n) :
    Inv service key (s.goto p (.checking attempt now todo)) := by
  have hvalid := h.valid p
  rw [hphase] at hvalid
  refine h.goto hvalid (fun window => by rw [hphase]; rfl) fun window hfail => ?_
  rw [hphase]
  obtain ⟨hkey, hearlier | ⟨rfl, hdone⟩⟩ := hfail
  · exact .inl ⟨hkey, .inl hearlier⟩
  · by_cases hchecked : key = key'
    · subst hchecked
      refine .inr (Nat.lt_of_not_le fun hle => hbelow ?_)
      rw [h.counted]
      have hpos := service.maximum_pos key
      obtain ⟨n, hn⟩ := Nat.exists_eq_add_of_le' (hpos.trans hle)
      rw [hn] at hle ⊢
      simpa using hle
    · exact .inl ⟨hkey, .inr ⟨rfl, by simp [hchecked, hdone]⟩⟩

/-- The update of a row that exists. -/
theorem Inv.updateRow (h : Inv service key s) {attempt : AuthAttemptContext} {window' n : ℕ}
    {key' : Key} {todo : List Key}
    (hphase : s.phase p = .recording attempt window' (key' :: todo) ∨
      s.phase p = .inserting attempt window' key' todo ∨
      s.phase p = .updatingAgain attempt window' key' todo)
    (hrow : (s.attempts key' window').getD 0 = n)
    (hwrite : s.write p key' window' (some (n + 1)) (.recording attempt window' todo) = some s') :
    Inv service key s' := by
  have hvalid := h.valid p
  have hsame : (s.phase p).Valid service s.clock =
        (Phase.recording attempt window' (key' :: todo)).Valid service s.clock ∧
      (∀ window, (s.phase p).change service key window =
        (Phase.recording attempt window' (key' :: todo)).change service key window) ∧
      ∀ window, (s.phase p).MayFail service key window =
        (Phase.recording attempt window' todo).MayFail service key window := by
    obtain hphase | hphase | hphase := hphase <;> rw [hphase] <;> exact ⟨rfl, fun _ => rfl, fun _ => rfl⟩
  obtain ⟨hvalid', hchange, hmayFail⟩ := hsame
  rw [hvalid'] at hvalid
  refine h.write .add hwrite ⟨hvalid.1, (List.suffix_cons _ _).trans hvalid.2⟩ (fun window => ?_)
    (fun hkey => ?_) fun window hfail => ?_
  · rw [hchange]
    exact Phase.change_recording hvalid.2 window
  · subst hkey
    rw [h.counted, stored_getD] at hrow
    rw [hrow]
    rfl
  · rw [hmayFail]
    exact .inl hfail

theorem Inv.advance (h : Inv service key s) {authenticated : Bool} (hfinds : FindsRow key s p)
    (hstep : service.advance s p authenticated (s.phase p) = some s') : Inv service key s' := by
  have hvalid := h.valid p
  cases hphase : s.phase p with
  | idle => simp [hphase, AuthRateLimitService.advance] at hstep
  | checking attempt now todo =>
    rw [hphase] at hstep hvalid
    cases todo with
    | nil =>
      cases hstep
      refine h.goto hvalid (fun window => by rw [hphase]; rfl) fun window hfail => ?_
      obtain ⟨hkey, hle⟩ := hfail
      rw [hphase]
      exact .inl ⟨hkey, hle.lt_or_eq.imp_right fun heq => ⟨heq, List.not_mem_nil⟩⟩
    | cons key' todo =>
      simp only [AuthRateLimitService.advance, Option.some.injEq] at hstep
      split at hstep
      · subst hstep
        exact h.commit fun window => by rw [hphase]; rfl
      · rename_i hbelow
        subst hstep
        exact h.checkKey hphase hbelow
  | authenticating attempt now =>
    rw [hphase] at hstep hvalid
    simp only [AuthRateLimitService.advance, Option.some.injEq] at hstep
    split at hstep
    · subst hstep
      refine h.goto trivial (fun window => ?_) fun window hfail => hfail.elim
      rw [hphase]
      simp [Phase.change]
    · subst hstep
      refine h.goto ⟨le_rfl, List.suffix_rfl⟩ (fun window => ?_) fun window hfail => ?_
      · rw [hphase]
        exact if_neg fun hkey => hkey.2.1 hkey.1
      · obtain ⟨hkey, rfl⟩ := hfail
        rw [hphase]
        exact .inl ⟨hkey, service.windowStart_mono hvalid⟩
  | recording attempt window' todo =>
    rw [hphase] at hstep hvalid
    cases todo with
    | nil =>
      cases hstep
      refine h.commit fun window => ?_
      rw [hphase]
      by_cases hrow : key ∈ service.keys attempt ∧ window' = window
      · simp [failures, Phase.change, Change.apply, hrow]
      · simp [failures, Phase.change, hrow]
    | cons key' todo =>
      simp only [AuthRateLimitService.advance] at hstep
      split at hstep
      · cases hstep
        exact h.goto hvalid (fun window => by rw [hphase]; rfl) fun window hfail => by
          rw [hphase]; exact .inl hfail
      · rename_i n hn
        exact h.updateRow (.inl hphase) (by rw [hn]; rfl) hstep
  | inserting attempt window' key' todo =>
    rw [hphase] at hstep hvalid
    simp only [AuthRateLimitService.advance] at hstep
    split at hstep
    · cases hstep
      exact h.goto hvalid (fun window => by rw [hphase]; rfl) fun window hfail => by
        rw [hphase]; exact .inl hfail
    · rename_i hrow
      refine h.updateRow (.inr (.inl hphase)) ?_ hstep
      cases hattempts : s.attempts key' window' with
      | none => rfl
      | some n =>
        -- an occupied row with a draft makes the insertion wait
        cases hdraft : s.draft key' window' with
        | none => exact (hrow n hdraft hattempts).elim
        | some held => simp [State.write, hdraft] at hstep
  | updatingAgain attempt window' key' todo =>
    rw [hphase] at hstep hvalid
    simp only [AuthRateLimitService.advance] at hstep
    split at hstep
    · rename_i hnone
      cases hstep
      have hkey : key ≠ key' := fun hkey => by
        subst hkey
        exact hfinds _ _ _ hphase hnone
      refine h.goto ⟨hvalid.1, (List.suffix_cons _ _).trans hvalid.2⟩ (fun window => ?_)
        fun window hfail => by rw [hphase]; exact .inl hfail
      rw [hphase]
      simp [Phase.change, hkey]
    · rename_i n hn
      exact h.updateRow (.inr (.inr hphase)) (by rw [hn]; rfl) hstep
  | clearing attempt todo cleared =>
    rw [hphase] at hstep
    cases todo with
    | nil =>
      cases hstep
      refine h.commit fun window => ?_
      rw [hphase]
      by_cases hrow : key = service.accountKey attempt ∧ window ∈ cleared
      · simp [failures, Phase.change, Change.apply, hrow]
      · simp [failures, Phase.change, hrow]
    | cons window' todo =>
      simp only [AuthRateLimitService.advance] at hstep
      split at hstep
      · cases hstep
        exact h.goto trivial (fun window => by rw [hphase]; rfl) fun window hfail => hfail.elim
      · refine h.write .remove hstep trivial (fun window => ?_) (fun _ => rfl)
          fun window hfail => hfail.elim
        rw [hphase]
        exact Phase.change_clearing window

theorem Inv.login (h : Inv service key s) {attempt : AuthAttemptContext} (hidle : s.phase p = .idle) :
    Inv service key (s.goto p (.checking attempt s.clock (service.keys attempt))) := by
  refine h.goto le_rfl (fun window => by rw [hidle]; rfl) fun window hfail => ?_
  obtain ⟨hkey, hlater | ⟨-, hnot⟩⟩ := hfail
  · refine .inr ?_
    rw [h.unstarted window hlater]
    exact service.maximum_pos key
  · exact absurd hkey hnot

/-! ## Whole runs -/

/-- A second update of the key finds its row: no `clear_account` has deleted it in between. -/
def findsRow (key : Key) (s : State ι) : Label ι → Bool
  | .advance p _ =>
    match s.phase p with
    | .updatingAgain _ window key' _ => key' != key || (s.attempts key window).isSome
    | _ => true
  | _ => true

omit [DecidableEq ι] [Fintype ι] in
theorem findsRow_advance {authenticated : Bool} :
    findsRow key s (.advance p authenticated) = true ↔ FindsRow key s p := by
  unfold FindsRow
  constructor
  · intro h attempt window todo hphase hnone
    simp [findsRow, hphase, hnone] at h
  · intro h
    simp only [findsRow]
    split
    · rename_i attempt window key' todo hphase
      by_cases hkey : key' = key
      · subst hkey
        simp [Option.isSome_iff_ne_none, h _ _ _ hphase]
      · simp [hkey]
    · rfl

theorem step_inv {label : Label ι} (h : Inv service key s) (hfinds : findsRow key s label = true)
    (hstep : step service s label = some s') : Inv service key s' := by
  cases label with
  | tick elapsed =>
    cases hstep
    exact h.tick elapsed
  | login p attempt =>
    simp only [step, Option.ite_none_right_eq_some, Option.some.injEq] at hstep
    obtain ⟨hidle, rfl⟩ := hstep
    exact h.login hidle
  | advance p authenticated => exact h.advance (findsRow_advance.mp hfinds) hstep
  | fail p =>
    cases hstep
    exact h.rollback

theorem inv_of_reached {clock : ℕ}
    (h : Reached (step service) (fun s label => findsRow key s label = true) (State.init clock) s) :
    Inv service key s :=
  h.invariant (inv_init clock) fun _ _ _ hinv hfinds hstep => step_inv hinv hfinds hstep

/-- In a run where no second update of a key has its row deleted by a concurrent `clear_account`, the
stored attempts are the failures since the row was cleared, and at most one failure for each handler
exceeds the last allowed one. -/
theorem failures_bounded {clock : ℕ}
    (h : Reached (step service) (fun s label => findsRow key s label = true) (State.init clock) s)
    (window : ℕ) :
    s.attempts key window = stored (failures service key window s.history) ∧
      failures service key window s.history ≤ service.maximum key - 1 + Fintype.card ι :=
  have hinv := inv_of_reached h
  ⟨hinv.counted window, (Nat.le_add_right _ _).trans (hinv.bounded window)⟩

/-! Two handlers pass the check at once, and each records its failure: both are counted, one more than
the limit allows. -/

def strict : AuthRateLimitService where
  loginRateLimitWindowSeconds := 300
  loginRateLimitMaxAttempts := 1
  lower := id
  windowSeconds_pos := by decide
  maxAttempts_pos := by decide

def guess : AuthAttemptContext := ⟨"a", "b"⟩

def twoGuesses : List (Label (Fin 2)) :=
  List.flatten [[.login 0 guess, .login 1 guess], List.replicate 5 (.advance 0 false),
    List.replicate 9 (.advance 1 false), List.replicate 4 (.advance 0 false)]

theorem failures_bounded_twoGuesses :
    ∃ s, afterOk (step strict) (findsRow (strict.accountKey guess)) (State.init 0) twoGuesses = some s ∧
      s.attempts (strict.accountKey guess) 0 = some 2 ∧
      failures strict (strict.accountKey guess) 0 s.history ≤
        strict.maximum (strict.accountKey guess) - 1 + Fintype.card (Fin 2) :=
  ⟨_, rfl, rfl, (failures_bounded (Reached.afterOk .init (show afterOk (step strict)
    (findsRow (strict.accountKey guess)) (State.init 0) twoGuesses = some _ from rfl)) 0).2⟩

end RateLimit
end BucketReef

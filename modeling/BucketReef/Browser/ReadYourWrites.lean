import BucketReef.Browser.ListingCache
import Mathlib.Data.List.Lemmas

/-!
# Read your writes in the Browser

If no step stores a load older than an invalidation, a request that starts after a mutation has
returned is answered from loads after it. If no step removes a snapshot that is still read, no snapshot
is closed under a reader. The code ensures neither.
-/

namespace BucketReef
namespace Browser

open Caches Transitions

variable {Key Bucket V : Type} [DecidableEq Key] [DecidableEq Bucket]

/-! ## Answers after mutations -/

variable (settings : Settings Key Bucket)

/-- The load is later than every change of a mutation that returned before the request. -/
def After (s : State Key Bucket V) (key : Key) (startedAt loadedAt : ℕ) : Prop :=
  ∀ m ∈ s.mutations, ∀ r, m.returnedAt = some r → r < startedAt →
    ∀ effect ∈ m.effects, effect.1 = settings.bucket key → effect.2 < loadedAt

/-- The load is later than every change of a mutation that has invalidated the bucket. -/
def Current (s : State Key Bucket V) (expired : Mutation Bucket → Bucket → Bool) (bucket : Bucket)
    (loadedAt : ℕ) : Prop :=
  ∀ m ∈ s.mutations, expired m bucket = true →
    ∀ effect ∈ m.effects, effect.1 = bucket → effect.2 < loadedAt

theorem loadedSince_iff {s : State Key Bucket V} {expired : Mutation Bucket → Bucket → Bool}
    {bucket : Bucket} {loadedAt : ℕ} :
    loadedSince s expired bucket loadedAt = true ↔ Current s expired bucket loadedAt := by
  simp only [loadedSince, Current, List.all_eq_true, Bool.or_eq_true, Bool.not_eq_true',
    decide_eq_true_eq]
  constructor
  · intro h m hm hexpired effect heffect hbucket
    rcases h m hm with hnot | h
    · rw [hexpired] at hnot
      cases hnot
    · exact (h effect heffect).resolve_left (by simpa using hbucket)
  · intro h m hm
    cases hexpired : expired m bucket with
    | false => exact .inl rfl
    | true =>
      refine .inr fun effect heffect => ?_
      by_cases hbucket : effect.1 = bucket
      · exact .inr (h m hm hexpired effect heffect hbucket)
      · exact .inl hbucket

/-- What a request carries from its phase. -/
def Phase.Sound (s : State Key Bucket V) : Phase Key V → Prop
  | .refreshingPages _ _ startedAt | .refreshingSnapshots _ _ startedAt | .looking _ _ startedAt
  | .missed _ _ startedAt => startedAt < s.time
  | .loading _ _ startedAt loadedAt => startedAt < s.time ∧ startedAt ≤ loadedAt
  | .loadedPage _ startedAt page => startedAt < s.time ∧ startedAt ≤ page.loadedAt
  | .loadedSnapshot _ startedAt snapshot => startedAt < s.time ∧ startedAt ≤ snapshot.loadedAt
  | .reading key startedAt snapshot _ =>
    startedAt < s.time ∧ After settings s key startedAt snapshot.loadedAt
  | .done => True

structure MutationSound (time : ℕ) (m : Mutation Bucket) : Prop where
  effects : ∀ effect ∈ m.effects, effect.1 ∈ m.buckets ∧ effect.2 < time
  returned : ∀ r, m.returnedAt = some r → m.ended = true ∧ m.pages = [] ∧ m.snapshots = [] ∧
    r < time ∧ ∀ effect ∈ m.effects, effect.2 < r

structure Inv (s : State Key Bucket V) : Prop where
  mutations : ∀ m ∈ s.mutations, MutationSound s.time m
  pages : ∀ pair ∈ s.pages,
    Current s Mutation.pagesExpired (settings.bucket pair.1) pair.2.value.loadedAt
  snapshots : ∀ pair ∈ s.snapshots,
    Current s Mutation.snapshotsExpired (settings.bucket pair.1) pair.2.value.loadedAt
  requests : ∀ phase ∈ s.requests, phase.Sound settings s
  answers : ∀ a ∈ s.answers, a.startedAt < s.time ∧ After settings s a.key a.startedAt a.loadedAt

variable {settings} {s s' : State Key Bucket V}

omit [DecidableEq Key] [DecidableEq Bucket] in
/-- A load of the request itself is later than mutations that returned before it. -/
theorem After.of_le {key : Key} {startedAt loadedAt : ℕ}
    (hmutations : ∀ m ∈ s.mutations, MutationSound s.time m) (hle : startedAt ≤ loadedAt) :
    After settings s key startedAt loadedAt := by
  intro m hm r hr hlt effect heffect _
  have := ((hmutations m hm).returned r hr).2.2.2.2 effect heffect
  omega

omit [DecidableEq Key] in
/-- What a cache holds is later than mutations that have returned. -/
theorem Current.after {expired : Mutation Bucket → Bucket → Bool} {key : Key}
    {startedAt loadedAt : ℕ} (h : Current s expired (settings.bucket key) loadedAt)
    (hmutations : ∀ m ∈ s.mutations, MutationSound s.time m)
    (hexpired : ∀ m : Mutation Bucket, m.ended = true → m.pages = [] → m.snapshots = [] →
      settings.bucket key ∈ m.buckets → expired m (settings.bucket key) = true) :
    After settings s key startedAt loadedAt := by
  intro m hm r hr _ effect heffect hbucket
  obtain ⟨hended, hpages, hsnapshots, _, _⟩ := (hmutations m hm).returned r hr
  have hmem := ((hmutations m hm).effects effect heffect).1
  rw [hbucket] at hmem
  exact h m hm (hexpired m hended hpages hsnapshots hmem) effect heffect hbucket

omit [DecidableEq Key] [DecidableEq Bucket] in
/-- Answers stay after the mutations that returned before them. -/
theorem After.frame {key : Key} {startedAt loadedAt : ℕ} (h : After settings s key startedAt loadedAt)
    (hstarted : startedAt ≤ s.time)
    (hreturned : ∀ m ∈ s'.mutations, ∀ r, m.returnedAt = some r → r < s.time →
      ∃ old ∈ s.mutations, old.returnedAt = some r ∧ old.effects = m.effects) :
    After settings s' key startedAt loadedAt := by
  intro m hm r hr hlt effect heffect
  obtain ⟨old, hold, hr', heffects⟩ := hreturned m hm r hr (by omega)
  exact h old hold r hr' hlt effect (heffects ▸ heffect)

omit [DecidableEq Key] [DecidableEq Bucket] in
theorem Phase.Sound.frame {phase : Phase Key V} (h : phase.Sound settings s)
    (htime : s'.time = s.time + 1)
    (hreturned : ∀ m ∈ s'.mutations, ∀ r, m.returnedAt = some r → r < s.time →
      ∃ old ∈ s.mutations, old.returnedAt = some r ∧ old.effects = m.effects) :
    phase.Sound settings s' := by
  have hlater : ∀ n, n < s.time → n < s'.time := fun n hn => by omega
  cases phase with
  | refreshingPages => exact hlater _ h
  | refreshingSnapshots => exact hlater _ h
  | looking => exact hlater _ h
  | missed => exact hlater _ h
  | loading => exact h.imp_left (hlater _)
  | loadedPage => exact h.imp_left (hlater _)
  | loadedSnapshot => exact h.imp_left (hlater _)
  | reading => exact ⟨hlater _ h.1, h.2.frame (Nat.le_of_lt h.1) hreturned⟩
  | done => trivial

omit [DecidableEq Key] [DecidableEq Bucket] in
theorem MutationSound.later {time time' : ℕ} {m : Mutation Bucket} (h : MutationSound time m)
    (hle : time ≤ time') : MutationSound time' m where
  effects effect heffect := (h.effects effect heffect).imp_right fun hlt => by omega
  returned r hr := by
    obtain ⟨hended, hpages, hsnapshots, hlt, heffects⟩ := h.returned r hr
    exact ⟨hended, hpages, hsnapshots, by omega, heffects⟩

omit [DecidableEq Key] in
/-- A step of a request: the mutations are as before. -/
theorem Inv.moveRequest (h : Inv settings s) (htime : s'.time = s.time + 1)
    (hmutations : s'.mutations = s.mutations)
    (hpages : ∀ pair ∈ s'.pages, pair ∈ s.pages ∨
      Current s Mutation.pagesExpired (settings.bucket pair.1) pair.2.value.loadedAt)
    (hsnapshots : ∀ pair ∈ s'.snapshots, pair ∈ s.snapshots ∨
      Current s Mutation.snapshotsExpired (settings.bucket pair.1) pair.2.value.loadedAt)
    (hrequests : ∀ phase ∈ s'.requests, phase ∈ s.requests ∨ phase.Sound settings s')
    (hanswers : ∀ a ∈ s'.answers, a ∈ s.answers ∨
      (a.startedAt < s.time ∧ After settings s a.key a.startedAt a.loadedAt)) : Inv settings s' := by
  have hreturned : ∀ m ∈ s'.mutations, ∀ r, m.returnedAt = some r → r < s.time →
      ∃ old ∈ s.mutations, old.returnedAt = some r ∧ old.effects = m.effects := by
    intro m hm r hr _
    rw [hmutations] at hm
    exact ⟨m, hm, hr, rfl⟩
  refine ⟨?_, ?_, ?_, ?_, ?_⟩
  · intro m hm
    rw [hmutations] at hm
    exact (h.mutations m hm).later (by omega)
  · intro pair hpair m hm
    rw [hmutations] at hm
    exact (hpages pair hpair).elim (fun hold => h.pages pair hold m hm) fun hnew => hnew m hm
  · intro pair hpair m hm
    rw [hmutations] at hm
    exact (hsnapshots pair hpair).elim (fun hold => h.snapshots pair hold m hm) fun hnew => hnew m hm
  · intro phase hphase
    exact (hrequests phase hphase).elim
      (fun hold => (h.requests phase hold).frame htime hreturned) id
  · intro a ha
    obtain ⟨hlt, hafter⟩ := (hanswers a ha).elim (h.answers a) id
    exact ⟨by omega, hafter.frame (Nat.le_of_lt hlt) hreturned⟩

omit [DecidableEq Key] in
/-- A step of a mutation: one mutation changes, and the caches only lose entries. -/
theorem Inv.moveMutation (h : Inv settings s) (m' : Mutation Bucket) (htime : s'.time = s.time + 1)
    (hmutations : ∀ m ∈ s'.mutations, m ∈ s.mutations ∨ m = m')
    (hsound : MutationSound s'.time m')
    (hreturned : ∀ r, m'.returnedAt = some r → r < s.time →
      ∃ old ∈ s.mutations, old.returnedAt = some r ∧ old.effects = m'.effects)
    (hpages : ∀ pair ∈ s'.pages, pair ∈ s.pages ∧
      (m'.pagesExpired (settings.bucket pair.1) = true → ∃ old ∈ s.mutations,
        old.pagesExpired (settings.bucket pair.1) = true ∧ old.effects = m'.effects))
    (hsnapshots : ∀ pair ∈ s'.snapshots, pair ∈ s.snapshots ∧
      (m'.snapshotsExpired (settings.bucket pair.1) = true → ∃ old ∈ s.mutations,
        old.snapshotsExpired (settings.bucket pair.1) = true ∧ old.effects = m'.effects))
    (hrequests : s'.requests = s.requests) (hanswers : s'.answers = s.answers) :
    Inv settings s' := by
  have hreturned' : ∀ m ∈ s'.mutations, ∀ r, m.returnedAt = some r → r < s.time →
      ∃ old ∈ s.mutations, old.returnedAt = some r ∧ old.effects = m.effects := by
    intro m hm r hr hlt
    rcases hmutations m hm with hold | rfl
    · exact ⟨m, hold, hr, rfl⟩
    · exact hreturned r hr hlt
  refine ⟨?_, ?_, ?_, ?_, ?_⟩
  · intro m hm
    rcases hmutations m hm with hold | rfl
    · exact (h.mutations m hold).later (by omega)
    · exact hsound
  · intro pair hpair m hm hexpired
    obtain ⟨hold, hcarried⟩ := hpages pair hpair
    rcases hmutations m hm with hm | rfl
    · exact h.pages pair hold m hm hexpired
    · obtain ⟨old, hmem, hexpired', heffects⟩ := hcarried hexpired
      rw [← heffects]
      exact h.pages pair hold old hmem hexpired'
  · intro pair hpair m hm hexpired
    obtain ⟨hold, hcarried⟩ := hsnapshots pair hpair
    rcases hmutations m hm with hm | rfl
    · exact h.snapshots pair hold m hm hexpired
    · obtain ⟨old, hmem, hexpired', heffects⟩ := hcarried hexpired
      rw [← heffects]
      exact h.snapshots pair hold old hmem hexpired'
  · intro phase hphase
    rw [hrequests] at hphase
    exact (h.requests phase hphase).frame htime hreturned'
  · intro a ha
    rw [hanswers] at ha
    obtain ⟨hlt, hafter⟩ := h.answers a ha
    exact ⟨by omega, hafter.frame (Nat.le_of_lt hlt) hreturned'⟩

/-! ## Steps of requests -/

def State.next (s : State Key Bucket V) : State Key Bucket V := { s with time := s.time + 1 }

omit [DecidableEq Key] [DecidableEq Bucket] in
theorem mem_set {α : Type} {l : List α} {i : ℕ} {a b : α} (h : a ∈ l.set i b) : a ∈ l ∨ a = b :=
  List.mem_or_eq_of_mem_set h

theorem advance_inv (h : Inv settings s) {i : ℕ} {phase : Phase Key V}
    (hphase : s.requests[i]? = some phase)
    (hstores : storesCurrent settings s (.advance i) = true)
    (hs : advance settings s i phase = some s') : Inv settings s'.next := by
  have hsound := h.requests phase (List.mem_of_getElem? hphase)
  simp only [storesCurrent, hphase] at hstores
  -- a request that goes on with the tables pruned
  have hset : ∀ {t : State Key Bucket V} {phase' : Phase Key V}, t.mutations = s.mutations →
      t.time = s.time → t.requests = s.requests → t.answers = s.answers →
      (∀ pair ∈ t.pages, pair ∈ s.pages) → (∀ pair ∈ t.snapshots, pair ∈ s.snapshots) →
      phase'.Sound settings (t.setRequest i phase').next → Inv settings (t.setRequest i phase').next := by
    intro t phase' hmutations htime hrequests hanswers hpages hsnapshots hphase'
    refine h.moveRequest (congrArg (· + 1) htime) hmutations (fun pair hp => .inl (hpages pair hp))
      (fun pair hp => .inl (hsnapshots pair hp)) ?_ ?_
    · intro other hother
      change other ∈ t.requests.set i phase' at hother
      rw [hrequests] at hother
      rcases mem_set hother with hold | rfl
      · exact .inl hold
      · exact .inr hphase'
    · intro a ha
      change a ∈ t.answers at ha
      rw [hanswers] at ha
      exact .inl ha
  have hanswer : ∀ {t : State Key Bucket V} {a : Answer Key V}, t.mutations = s.mutations →
      t.time = s.time → t.requests = s.requests → t.answers = s.answers →
      (∀ pair ∈ t.pages, pair ∈ s.pages ∨
        Current s Mutation.pagesExpired (settings.bucket pair.1) pair.2.value.loadedAt) →
      (∀ pair ∈ t.snapshots, pair ∈ s.snapshots) → a.startedAt < s.time →
      After settings s a.key a.startedAt a.loadedAt → Inv settings (t.answer i a).next := by
    intro t a hmutations htime hrequests hanswers hpages hsnapshots hlt hafter
    refine h.moveRequest (congrArg (· + 1) htime) hmutations hpages
      (fun pair hp => .inl (hsnapshots pair hp)) ?_ ?_
    · intro other hother
      change other ∈ t.requests.set i .done at hother
      rw [hrequests] at hother
      rcases mem_set hother with hold | rfl
      · exact .inl hold
      · exact .inr trivial
    · intro a' ha
      change a' ∈ t.answers ++ [a] at ha
      rw [hanswers] at ha
      refine (List.mem_append.mp ha).imp_right ?_
      intro ha
      rw [List.mem_singleton.mp ha]
      exact ⟨hlt, hafter⟩
  have hsubset : ∀ predicate : Key → Bool, ∀ pair ∈ (s.pages.ttlInvalidate predicate).table,
      pair ∈ s.pages := fun predicate pair hpair => (LruTable.mem_removeWhere.mp hpair).1
  have hsubset' : ∀ predicate : Key → Bool, ∀ pair ∈ (s.snapshots.ttlInvalidate predicate).table,
      pair ∈ s.snapshots := fun predicate pair hpair => (LruTable.mem_removeWhere.mp hpair).1
  cases phase with
  | refreshingPages key sorted startedAt =>
    cases hs
    exact hset rfl rfl rfl rfl (hsubset fun k => settings.bucket k = settings.bucket key)
      (fun _ => id) (Nat.lt_succ_of_lt hsound)
  | refreshingSnapshots key sorted startedAt =>
    cases hs
    exact hset rfl rfl rfl rfl (fun _ => id)
      (hsubset' fun k => settings.bucket k = settings.bucket key) (Nat.lt_succ_of_lt hsound)
  | looking key sorted startedAt =>
    cases hs
    cases sorted with
    | false =>
      simp only [lookPage, Bool.false_eq_true, if_false]
      split
      · rename_i page hreply
        obtain ⟨pair, hpair, rfl, rfl⟩ := LruTable.ttlGet_reply hreply
        refine hanswer rfl rfl rfl rfl (fun pair hp => .inl (LruTable.mem_of_ttlGet hp)) (fun _ => id)
          hsound ((h.pages pair hpair).after h.mutations ?_)
        intro m hended hpages _ hmem
        simp [Mutation.pagesExpired, hended, hpages, hmem]
      · exact hset rfl rfl rfl rfl (fun _ => LruTable.mem_of_ttlGet) (fun _ => id)
          (Nat.lt_succ_of_lt hsound)
    | true =>
      simp only [lookSnapshot, if_true]
      split
      · rename_i snapshot hreply
        obtain ⟨pair, hpair, rfl, rfl⟩ := LruTable.ttlGet_reply hreply
        refine hset rfl rfl rfl rfl (fun _ => id) (fun _ => LruTable.mem_of_ttlGet)
          ⟨Nat.lt_succ_of_lt hsound, ?_⟩
        refine (h.snapshots pair hpair).after h.mutations ?_
        intro m hended _ hsnapshots hmem
        simp [Mutation.snapshotsExpired, hended, hsnapshots, hmem]
      · exact hset rfl rfl rfl rfl (fun _ => id) (fun _ => LruTable.mem_of_ttlGet)
          (Nat.lt_succ_of_lt hsound)
  | missed key sorted startedAt =>
    cases hs
    exact hset rfl rfl rfl rfl (fun _ => id) (fun _ => id)
      ⟨Nat.lt_succ_of_lt hsound, Nat.le_of_lt hsound⟩
  | loadedPage key startedAt page =>
    cases hs
    refine hanswer rfl rfl rfl rfl ?_ (fun _ => id) hsound.1 (.of_le h.mutations hsound.2)
    intro pair hpair
    rcases LruTable.mem_of_ttlSet hpair with hold | rfl
    · exact .inl hold
    · exact .inr (loadedSince_iff.mp hstores)
  | loadedSnapshot key startedAt snapshot =>
    cases hs
    refine h.moveRequest rfl rfl (fun _ => .inl) ?_ ?_ (fun _ => .inl)
    · intro pair hpair
      rcases LruTable.mem_of_ttlSet hpair with hold | rfl
      · exact .inl hold
      · exact .inr (loadedSince_iff.mp hstores)
    · intro other hother
      rcases mem_set hother with hold | rfl
      · exact .inl hold
      · exact .inr ⟨Nat.lt_succ_of_lt hsound.1,
          (After.of_le h.mutations hsound.2 : After settings s key startedAt snapshot.loadedAt)⟩
  | reading key startedAt snapshot prefixesRead =>
    cases hs
    unfold fetch
    split
    · exact hset rfl rfl rfl rfl (fun _ => id) (fun _ => id) trivial
    · split
      · exact hanswer rfl rfl rfl rfl (fun _ => .inl) (fun _ => id) hsound.1 hsound.2
      · exact hset rfl rfl rfl rfl (fun _ => id) (fun _ => id)
          ⟨Nat.lt_succ_of_lt hsound.1, hsound.2⟩
  | loading => cases hs
  | done => cases hs

/-! ## Steps of mutations -/

omit [DecidableEq Key] in
theorem advanceMutation_inv (h : Inv settings s) {i : ℕ} {m : Mutation Bucket}
    (hm : s.mutations[i]? = some m) (hs : advanceMutation settings s i m = some s') :
    Inv settings s'.next := by
  have hmem := List.mem_of_getElem? hm
  have hsound := h.mutations m hmem
  unfold advanceMutation at hs
  split at hs
  · rename_i hended
    obtain ⟨hended, hrunning⟩ := hended
    have hnone : ∀ {m' : Mutation Bucket}, m'.returnedAt = m.returnedAt → m'.effects = m.effects →
        m'.buckets = m.buckets → MutationSound (s.time + 1) m' := by
      intro m' hreturned heffects hbuckets
      refine ⟨?_, ?_⟩
      · intro effect heffect
        rw [heffects] at heffect
        rw [hbuckets]
        exact (hsound.later (Nat.le_succ _)).effects effect heffect
      · intro r hr
        rw [hreturned, hrunning] at hr
        cases hr
    split at hs
    · split at hs
      · rename_i bucket rest hpages
        cases hs
        refine h.moveMutation ({ m with pages := rest }) rfl (fun _ => mem_set)
          (hnone rfl rfl rfl) ?_ ?_ ?_ rfl rfl
        · intro r hr
          rw [show ({ m with pages := rest } : Mutation Bucket).returnedAt = none from hrunning] at hr
          cases hr
        · intro pair hpair
          have hpair : pair ∈ s.pages.removeWhere fun key => settings.bucket key = bucket := hpair
          obtain ⟨hold, hother⟩ := LruTable.mem_removeWhere.mp hpair
          refine ⟨hold, fun hexpired => ⟨m, hmem, ?_, rfl⟩⟩
          -- the bucket of a page that stays is not the invalidated one
          have hne : settings.bucket pair.1 ≠ bucket := by simpa using hother
          simp only [Mutation.pagesExpired, Bool.and_eq_true, decide_eq_true_eq] at hexpired ⊢
          refine ⟨hexpired.1, ?_⟩
          rw [hpages]
          simpa [hne] using hexpired.2
        · intro pair hpair
          exact ⟨hpair, fun hexpired => ⟨m, hmem, hexpired, rfl⟩⟩
      · rename_i hlength _ hpages
        cases hs
        have hsnapshots : m.snapshots = [] := by
          rw [hpages] at hlength
          exact List.length_eq_zero_iff.mp hlength.symm
        refine h.moveMutation ({ m with returnedAt := some s.time }) rfl (fun _ => mem_set)
          ⟨(hsound.later (Nat.le_succ _)).effects, ?_⟩ ?_ ?_ ?_ rfl rfl
        · rintro r ⟨⟩
          exact ⟨hended, hpages, hsnapshots, Nat.lt_succ_self _,
            fun effect heffect => (hsound.effects effect heffect).2⟩
        · rintro r ⟨⟩ hlt
          omega
        · intro pair hpair
          exact ⟨hpair, fun hexpired => ⟨m, hmem, hexpired, rfl⟩⟩
        · intro pair hpair
          exact ⟨hpair, fun hexpired => ⟨m, hmem, hexpired, rfl⟩⟩
    · split at hs
      · rename_i bucket rest hsnapshots
        cases hs
        refine h.moveMutation ({ m with snapshots := rest }) rfl (fun _ => mem_set)
          (hnone rfl rfl rfl) ?_ ?_ ?_ rfl rfl
        · intro r hr
          rw [show ({ m with snapshots := rest } : Mutation Bucket).returnedAt = none from
            hrunning] at hr
          cases hr
        · intro pair hpair
          exact ⟨hpair, fun hexpired => ⟨m, hmem, hexpired, rfl⟩⟩
        · intro pair hpair
          have hpair : pair ∈ s.snapshots.removeWhere fun key => settings.bucket key = bucket := hpair
          obtain ⟨hold, hother⟩ := LruTable.mem_removeWhere.mp hpair
          refine ⟨hold, fun hexpired => ⟨m, hmem, ?_, rfl⟩⟩
          have hne : settings.bucket pair.1 ≠ bucket := by simpa using hother
          simp only [Mutation.snapshotsExpired, Bool.and_eq_true, decide_eq_true_eq] at hexpired ⊢
          refine ⟨hexpired.1, ?_⟩
          rw [hsnapshots]
          simpa [hne] using hexpired.2
      · cases hs
  · cases hs

omit [DecidableEq Key] in
theorem init_inv (settings : Settings Key Bucket) (clock : ℕ) :
    Inv settings (State.init clock : State Key Bucket V) where
  mutations := by simp [State.init]
  pages := by simp [State.init]
  snapshots := by simp [State.init]
  requests := by simp [State.init]
  answers := by simp [State.init]

theorem step_inv {label : Label Key Bucket V} (h : Inv settings s)
    (hstores : storesCurrent settings s label = true) (hstep : step settings s label = some s') :
    Inv settings s' := by
  obtain ⟨acted, hs, rfl⟩ := Option.map_eq_some_iff.mp hstep
  clear hstep
  change Inv settings acted.next
  cases label with
  | tick elapsed =>
    cases hs
    exact h.moveRequest rfl rfl (fun _ => .inl) (fun _ => .inl) (fun _ => .inl) (fun _ => .inl)
  | request key sorted forceRefresh =>
    cases hs
    refine h.moveRequest rfl rfl (fun _ => .inl) (fun _ => .inl) ?_ (fun _ => .inl)
    intro phase hphase
    refine (List.mem_append.mp hphase).imp_right ?_
    intro hphase
    rw [List.mem_singleton.mp hphase]
    cases forceRefresh <;> exact Nat.lt_succ_self _
  | advance i =>
    obtain ⟨phase, hphase, hs⟩ := Option.bind_eq_some_iff.mp hs
    exact advance_inv h hphase hstores hs
  | loadReturns i content =>
    simp only [act] at hs
    split at hs
    · rename_i key sorted startedAt loadedAt hphase
      have hsound := h.requests _ (List.mem_of_getElem? hphase)
      cases hs
      refine h.moveRequest rfl rfl (fun _ => .inl) (fun _ => .inl) ?_ (fun _ => .inl)
      intro phase hphase
      rcases mem_set hphase with hold | rfl
      · exact .inl hold
      · right
        cases sorted <;> exact ⟨Nat.lt_succ_of_lt hsound.1, hsound.2⟩
    · cases hs
  | loadFails i =>
    simp only [act] at hs
    split at hs
    · cases hs
      refine h.moveRequest rfl rfl (fun _ => .inl) (fun _ => .inl) ?_ (fun _ => .inl)
      intro phase hphase
      rcases mem_set hphase with hold | rfl
      · exact .inl hold
      · exact .inr trivial
    · cases hs
  | mutate buckets =>
    cases hs
    refine h.moveMutation ({ buckets := buckets.eraseDups }) rfl ?_ ⟨by simp, by simp⟩
      (by simp) ?_ ?_ rfl rfl
    · intro m hm
      exact (List.mem_append.mp hm).imp_right List.mem_singleton.mp
    · intro pair hpair
      exact ⟨hpair, by simp [Mutation.pagesExpired]⟩
    · intro pair hpair
      exact ⟨hpair, by simp [Mutation.snapshotsExpired]⟩
  | effect i bucket =>
    simp only [act] at hs
    split at hs
    · rename_i m hm
      simp only [Option.ite_none_right_eq_some, Option.some.injEq] at hs
      obtain ⟨⟨hrunning, hbucket⟩, rfl⟩ := hs
      have hsound := h.mutations m (List.mem_of_getElem? hm)
      have hreturned : m.returnedAt = none := by
        cases hr : m.returnedAt with
        | none => rfl
        | some r =>
          have := (hsound.returned r hr).1
          rw [hrunning] at this
          cases this
      refine h.moveMutation ({ m with effects := m.effects ++ [(bucket, s.time)] }) rfl
        (fun _ => mem_set) ⟨?_, ?_⟩ ?_ ?_ ?_ rfl rfl
      · intro effect heffect
        rcases List.mem_append.mp heffect with hold | hnew
        · exact (hsound.effects effect hold).imp_right Nat.lt_succ_of_lt
        · rw [List.mem_singleton.mp hnew]
          exact ⟨hbucket, Nat.lt_succ_self _⟩
      · intro r hr
        change m.returnedAt = some r at hr
        rw [hreturned] at hr
        cases hr
      · intro r hr
        change m.returnedAt = some r at hr
        rw [hreturned] at hr
        cases hr
      · intro pair hpair
        exact ⟨hpair, by simp [Mutation.pagesExpired, hrunning]⟩
      · intro pair hpair
        exact ⟨hpair, by simp [Mutation.snapshotsExpired, hrunning]⟩
    · cases hs
  | endBody i =>
    simp only [act] at hs
    split at hs
    · rename_i m hm
      split at hs
      · cases hs
      · rename_i hrunning
        cases hs
        have hsound := h.mutations m (List.mem_of_getElem? hm)
        have hreturned : m.returnedAt = none := by
          cases hr : m.returnedAt with
          | none => rfl
          | some r => exact absurd (hsound.returned r hr).1 hrunning
        refine h.moveMutation
          ({ m with ended := true, pages := m.buckets, snapshots := m.buckets }) rfl
          (fun _ => mem_set) ⟨(hsound.later (Nat.le_succ _)).effects, ?_⟩ ?_ ?_ ?_ rfl rfl
        · intro r hr
          change m.returnedAt = some r at hr
          rw [hreturned] at hr
          cases hr
        · intro r hr
          change m.returnedAt = some r at hr
          rw [hreturned] at hr
          cases hr
        · intro pair hpair
          exact ⟨hpair, by simp [Mutation.pagesExpired]⟩
        · intro pair hpair
          exact ⟨hpair, by simp [Mutation.snapshotsExpired]⟩
    · cases hs
  | advanceMutation i =>
    obtain ⟨m, hm, hs⟩ := Option.bind_eq_some_iff.mp hs
    exact advanceMutation_inv h hm hs

/-! ## Readers of snapshots -/

/-- The request has stored the snapshot it built, if it built one. -/
def Phase.stored : Phase Key V → Bool
  | .reading _ _ _ _ | .done => true
  | _ => false

def snapshotIds (s : State Key Bucket V) : List ℕ := s.snapshots.values.map Snapshot.id

structure Readers (s : State Key Bucket V) : Prop where
  /-- A request holds open snapshots only. -/
  held : ∀ phase ∈ s.requests, ∀ id, phase.holds = some id → id ∉ s.closed
  cached : ∀ id ∈ snapshotIds s, id ∉ s.closed
  nodup : (snapshotIds s).Nodup
  /-- A snapshot was stored by the request it is named after. -/
  stored : ∀ id, id ∈ snapshotIds s ∨ id ∈ s.closed →
    ∃ phase : Phase Key V, s.requests[id]? = some phase ∧ phase.stored = true
  fresh : ∀ (i : ℕ) (key : Key) (startedAt : ℕ) (snapshot : Snapshot V),
    s.requests[i]? = some (.loadedSnapshot key startedAt snapshot) → snapshot.id = i

omit [DecidableEq Key] [DecidableEq Bucket] in
/-- A step that closes snapshots nobody holds, and stores new ones. -/
theorem Readers.move (h : Readers s) (evicted added : List (Snapshot V))
    (htable : (s'.snapshots.values ++ evicted).Perm (s.snapshots.values ++ added))
    (hclosed : s'.closed = s.closed ++ evicted.map Snapshot.id)
    (hadded : ∀ snapshot ∈ added, snapshot.id ∉ snapshotIds s ∧ snapshot.id ∉ s.closed)
    (hsingle : (added.map Snapshot.id).Nodup)
    (hkeeps : ∀ snapshot ∈ evicted, ∀ phase ∈ s.requests, phase.holds ≠ some snapshot.id)
    (hheld : ∀ phase ∈ s'.requests, ∀ id, phase.holds = some id →
      (∃ old ∈ s.requests, old.holds = some id) ∨ id ∉ s'.closed)
    (hstored : ∀ (id : ℕ) (phase : Phase Key V), s.requests[id]? = some phase → phase.stored = true →
      ∃ phase' : Phase Key V, s'.requests[id]? = some phase' ∧ phase'.stored = true)
    (hnew : ∀ snapshot ∈ added, ∃ phase : Phase Key V, s'.requests[snapshot.id]? = some phase ∧
      phase.stored = true)
    (hfresh : ∀ (i : ℕ) (key : Key) (startedAt : ℕ) (snapshot : Snapshot V),
      s'.requests[i]? = some (.loadedSnapshot key startedAt snapshot) → snapshot.id = i) :
    Readers s' := by
  have hperm : (snapshotIds s' ++ evicted.map Snapshot.id).Perm
      (snapshotIds s ++ added.map Snapshot.id) := by
    have := htable.map Snapshot.id
    rwa [List.map_append, List.map_append] at this
  have hall : (snapshotIds s' ++ evicted.map Snapshot.id).Nodup := by
    refine hperm.nodup_iff.mpr (List.nodup_append.mpr ⟨h.nodup, hsingle, ?_⟩)
    rintro id hid id' hid' rfl
    obtain ⟨snapshot, hsnapshot, rfl⟩ := List.mem_map.mp hid'
    exact (hadded snapshot hsnapshot).1 hid
  obtain ⟨hnodup, _, hdisjoint⟩ := List.nodup_append.mp hall
  have horigin : ∀ id, id ∈ snapshotIds s' ∨ id ∈ evicted.map Snapshot.id →
      id ∈ snapshotIds s ∨ ∃ snapshot ∈ added, snapshot.id = id := by
    intro id hid
    have hmem := hperm.mem_iff.mp (List.mem_append.mpr hid)
    exact (List.mem_append.mp hmem).imp_right List.mem_map.mp
  have hopen : ∀ id, id ∈ snapshotIds s ∨ (∃ snapshot ∈ added, snapshot.id = id) →
      id ∉ s.closed := by
    rintro id (hid | ⟨snapshot, hsnapshot, rfl⟩)
    · exact h.cached id hid
    · exact (hadded snapshot hsnapshot).2
  refine ⟨?_, ?_, hnodup, ?_, hfresh⟩
  · intro phase hphase id hid
    rcases hheld phase hphase id hid with ⟨old, hold, hid'⟩ | hopen'
    · rw [hclosed, List.mem_append]
      rintro (hmem | hmem)
      · exact h.held old hold id hid' hmem
      · obtain ⟨snapshot, hsnapshot, rfl⟩ := List.mem_map.mp hmem
        exact hkeeps snapshot hsnapshot old hold hid'
    · exact hopen'
  · intro id hid
    rw [hclosed, List.mem_append]
    rintro (hmem | hmem)
    · exact hopen id (horigin id (.inl hid)) hmem
    · exact hdisjoint id hid id hmem rfl
  · intro id hid
    have hold : id ∈ snapshotIds s ∨ id ∈ s.closed → ∃ phase : Phase Key V, s'.requests[id]? = some phase ∧
        phase.stored = true := by
      intro hid
      obtain ⟨phase, hphase, hphase'⟩ := h.stored id hid
      exact hstored id phase hphase hphase'
    have hcases : id ∈ s.closed ∨ id ∈ snapshotIds s' ∨ id ∈ evicted.map Snapshot.id := by
      rcases hid with hid | hid
      · exact .inr (.inl hid)
      · rw [hclosed, List.mem_append] at hid
        exact hid.imp_right .inr
    rcases hcases with hid | hid
    · exact hold (.inr hid)
    · rcases horigin id hid with hid | ⟨snapshot, hsnapshot, rfl⟩
      · exact hold (.inl hid)
      · exact hnew snapshot hsnapshot

omit [DecidableEq Key] [DecidableEq Bucket] in
/-- A request that stored its snapshot stays a request that did. -/
theorem stored_set {l : List (Phase Key V)} {i : ℕ} {phase phase' : Phase Key V}
    (hphase : l[i]? = some phase) (hkeep : phase.stored = true → phase'.stored = true) (id : ℕ)
    (other : Phase Key V) (hother : l[id]? = some other) (hstored : other.stored = true) :
    ∃ next, (l.set i phase')[id]? = some next ∧ next.stored = true := by
  by_cases hid : i = id
  · subst hid
    rw [hphase] at hother
    cases hother
    obtain ⟨hlt, _⟩ := List.getElem?_eq_some_iff.mp hphase
    exact ⟨phase', by rw [List.getElem?_set_self hlt], hkeep hstored⟩
  · exact ⟨other, by rw [List.getElem?_set_ne hid]; exact hother, hstored⟩

omit [DecidableEq Key] [DecidableEq Bucket] in
theorem fresh_set (h : Readers s) {i : ℕ} {phase : Phase Key V}
    (hphase : ∀ key startedAt snapshot, phase = .loadedSnapshot key startedAt snapshot →
      snapshot.id = i) (j : ℕ) (key : Key) (startedAt : ℕ) (snapshot : Snapshot V)
    (hj : (s.requests.set i phase)[j]? = some (.loadedSnapshot key startedAt snapshot)) :
    snapshot.id = j := by
  by_cases hij : i = j
  · subst hij
    rw [List.getElem?_set] at hj
    split at hj
    · split at hj
      · exact hphase key startedAt snapshot (Option.some.inj hj)
      · cases hj
    · rename_i hne
      exact absurd rfl hne
  · rw [List.getElem?_set_ne hij] at hj
    exact h.fresh j key startedAt snapshot hj

omit [DecidableEq Key] [DecidableEq Bucket] in
/-- A request moves on while the snapshots stay, or lose entries nobody reads. -/
theorem Readers.setRequest (h : Readers s) {i : ℕ} {phase phase' : Phase Key V}
    (evicted : List (Snapshot V)) (hphase : s.requests[i]? = some phase)
    (hrequests : s'.requests = s.requests.set i phase')
    (htable : (s'.snapshots.values ++ evicted).Perm s.snapshots.values)
    (hclosed : s'.closed = s.closed ++ evicted.map Snapshot.id)
    (hkeeps : ∀ snapshot ∈ evicted, ∀ phase ∈ s.requests, phase.holds ≠ some snapshot.id)
    (hstored : phase.stored = true → phase'.stored = true)
    (hheld : ∀ id, phase'.holds = some id → phase.holds = some id ∨ id ∉ s'.closed)
    (hfresh : ∀ key startedAt snapshot, phase' = .loadedSnapshot key startedAt snapshot →
      snapshot.id = i) : Readers s' := by
  refine h.move evicted [] (by simpa using htable) hclosed (by simp) (by simp) hkeeps ?_ ?_
    (by simp) ?_
  · intro other hother id hid
    rw [hrequests] at hother
    rcases mem_set hother with hold | rfl
    · exact .inl ⟨other, hold, hid⟩
    · exact (hheld id hid).imp_left fun hid' => ⟨phase, List.mem_of_getElem? hphase, hid'⟩
  · rw [hrequests]
    exact stored_set hphase hstored
  · rw [hrequests]
    exact fresh_set h hfresh

omit [DecidableEq Key] [DecidableEq Bucket] in
/-- Steps that change neither requests nor snapshots, or only take snapshots away. -/
theorem Readers.evict (h : Readers s) (evicted : List (Snapshot V))
    (hrequests : s'.requests = s.requests)
    (htable : (s'.snapshots.values ++ evicted).Perm s.snapshots.values)
    (hclosed : s'.closed = s.closed ++ evicted.map Snapshot.id)
    (hkeeps : ∀ snapshot ∈ evicted, ∀ phase ∈ s.requests, phase.holds ≠ some snapshot.id) :
    Readers s' := by
  refine h.move evicted [] (by simpa using htable) hclosed (by simp) (by simp) hkeeps ?_ ?_
    (by simp) ?_
  · intro phase hphase id hid
    rw [hrequests] at hphase
    exact .inl ⟨phase, hphase, hid⟩
  · intro id phase hphase hstored
    rw [hrequests]
    exact ⟨phase, hphase, hstored⟩
  · rw [hrequests]
    exact h.fresh

omit [DecidableEq Bucket] in
theorem keepsReaders_iff [DecidableEq Bucket] {label : Label Key Bucket V} :
    keepsReaders settings s label = true ↔ ∀ snapshot ∈ evictedBy settings s label,
      ∀ phase ∈ s.requests, phase.holds ≠ some snapshot.id := by
  simp [keepsReaders]

theorem advance_readers (h : Readers s) {i : ℕ} {phase : Phase Key V}
    (hphase : s.requests[i]? = some phase)
    (hkeeps : keepsReaders settings s (.advance i) = true)
    (hs : advance settings s i phase = some s') : Readers s' := by
  rw [keepsReaders_iff] at hkeeps
  simp only [evictedBy, hphase] at hkeeps
  have hnone : ∀ {phase' : Phase Key V} {s' : State Key Bucket V},
      s'.requests = s.requests.set i phase' → s'.snapshots = s.snapshots → s'.closed = s.closed →
      (phase.stored = true → phase'.stored = true) →
      (∀ id, phase'.holds = some id → phase.holds = some id) →
      (∀ key startedAt snapshot, phase' ≠ .loadedSnapshot key startedAt snapshot) → Readers s' := by
    intro phase' s' hrequests hsnapshots hclosed hstored hheld hnot
    refine h.setRequest [] hphase hrequests (by simp [hsnapshots]) (by simp [hclosed])
      (by simp) hstored (fun id hid => .inl (hheld id hid)) ?_
    intro key startedAt snapshot hloaded
    exact absurd hloaded (hnot key startedAt snapshot)
  cases phase with
  | refreshingPages key sorted startedAt =>
    cases hs
    exact hnone rfl rfl rfl (by simp [Phase.stored]) (by simp [Phase.holds]) (by intros; simp)
  | refreshingSnapshots key sorted startedAt =>
    cases hs
    exact h.setRequest _ hphase rfl (LruTable.ttlInvalidate_perm s.snapshots fun k =>
      settings.bucket k = settings.bucket key) rfl hkeeps
      (by simp [Phase.stored]) (by simp [Phase.holds]) (fun _ _ _ hloaded => by cases hloaded)
  | looking key sorted startedAt =>
    cases hs
    cases sorted with
    | false =>
      simp only [lookPage, Bool.false_eq_true, if_false]
      split
      · exact hnone rfl rfl rfl (by simp [Phase.stored]) (by simp [Phase.holds]) (by intros; simp)
      · exact hnone rfl rfl rfl (by simp [Phase.stored]) (by simp [Phase.holds]) (by intros; simp)
    | true =>
      simp only [lookSnapshot, if_true]
      split
      · rename_i snapshot hreply
        have hperm := LruTable.ttlGet_perm s.snapshots s.clock key
        refine h.setRequest _ hphase rfl hperm rfl hkeeps (by simp [Phase.stored]) ?_
          (fun _ _ _ hloaded => by cases hloaded)
        rintro id ⟨⟩
        right
        -- a hit evicts nothing
        have hevicted : (s.snapshots.ttlGet s.clock key).evicted = [] := by
          unfold LruTable.ttlGet at hreply ⊢
          split at hreply
          · cases hreply
          · split at hreply
            · cases hreply
            · rename_i hlive
              simp [hlive]
        obtain ⟨pair, hpair, _, rfl⟩ := LruTable.ttlGet_reply hreply
        show pair.2.value.id ∉ s.closed ++ _
        rw [hevicted, List.map_nil, List.append_nil]
        exact h.cached _ (List.mem_map_of_mem (List.mem_map_of_mem hpair))
      · exact h.setRequest _ hphase rfl (LruTable.ttlGet_perm _ _ _) rfl hkeeps
          (by simp [Phase.stored]) (by simp [Phase.holds]) (fun _ _ _ hloaded => by cases hloaded)
  | missed key sorted startedAt =>
    cases hs
    exact hnone rfl rfl rfl (by simp [Phase.stored]) (by simp [Phase.holds]) (by intros; simp)
  | loadedPage key startedAt page =>
    cases hs
    exact hnone rfl rfl rfl (by simp [Phase.stored]) (by simp [Phase.holds]) (by intros; simp)
  | loadedSnapshot key startedAt snapshot =>
    cases hs
    have hid : snapshot.id = i := h.fresh i key startedAt snapshot hphase
    have hunstored : snapshot.id ∉ snapshotIds s ∧ snapshot.id ∉ s.closed := by
      have hnot : ¬ ∃ phase : Phase Key V, s.requests[snapshot.id]? = some phase ∧ phase.stored = true := by
        rintro ⟨other, hother, hstored⟩
        rw [hid, hphase] at hother
        cases hother
        cases hstored
      exact ⟨fun hmem => hnot (h.stored _ (.inl hmem)), fun hmem => hnot (h.stored _ (.inr hmem))⟩
    obtain ⟨hlt, _⟩ := List.getElem?_eq_some_iff.mp hphase
    refine h.move _ [snapshot] (LruTable.ttlSet_perm _ _ _ _) rfl ?_ (by simp) hkeeps ?_ ?_
      ?_ ?_
    · intro other hother
      rw [List.mem_singleton.mp hother]
      exact hunstored
    · intro other hother id hid'
      rcases mem_set hother with hold | rfl
      · exact .inl ⟨other, hold, hid'⟩
      · exact .inl ⟨_, List.mem_of_getElem? hphase, hid'⟩
    · exact stored_set hphase fun hstored => by cases hstored
    · intro other hother
      rw [List.mem_singleton.mp hother, hid]
      exact ⟨_, List.getElem?_set_self hlt, rfl⟩
    · exact fresh_set h (fun _ _ _ hloaded => by cases hloaded)
  | reading key startedAt snapshot prefixesRead =>
    cases hs
    unfold fetch
    split
    · exact hnone rfl rfl rfl (fun _ => rfl) (by simp [Phase.holds]) (by intros; simp)
    · split
      · exact hnone rfl rfl rfl (fun _ => rfl) (by simp [Phase.holds]) (by intros; simp)
      · exact hnone rfl rfl rfl (fun _ => rfl) (by simp [Phase.holds]) (by intros; simp)
  | loading => cases hs
  | done => cases hs

omit [DecidableEq Key] [DecidableEq Bucket] in
theorem init_readers (clock : ℕ) : Readers (State.init clock : State Key Bucket V) := by
  constructor <;> simp [State.init, snapshotIds, LruTable.values]

theorem step_readers {label : Label Key Bucket V} (h : Readers s)
    (hkeeps : keepsReaders settings s label = true) (hstep : step settings s label = some s') :
    Readers s' := by
  obtain ⟨acted, hs, rfl⟩ := Option.map_eq_some_iff.mp hstep
  clear hstep
  suffices hacted : Readers acted from ⟨hacted.held, hacted.cached, hacted.nodup, hacted.stored,
    hacted.fresh⟩
  have hsame : ∀ {t : State Key Bucket V}, t.requests = s.requests → t.snapshots = s.snapshots →
      t.closed = s.closed → Readers t := by
    intro t hrequests hsnapshots hclosed
    exact h.evict [] hrequests (by simp [hsnapshots]) (by simp [hclosed]) (by simp)
  cases label with
  | tick elapsed =>
    cases hs
    exact hsame rfl rfl rfl
  | request key sorted forceRefresh =>
    cases hs
    have hplain : ∀ phase : Phase Key V, phase = (if forceRefresh then
        .refreshingPages key sorted s.time else .looking key sorted s.time) →
          phase.holds = none ∧ ∀ k t snapshot, phase ≠ .loadedSnapshot k t snapshot := by
      rintro phase rfl
      cases forceRefresh <;> exact ⟨rfl, by intros; simp⟩
    refine h.move [] [] (by simp) (by simp) (by simp) (by simp) (by simp) ?_ ?_
      (by simp) ?_
    · intro phase hphase id hid
      rcases List.mem_append.mp hphase with hold | hnew
      · exact .inl ⟨phase, hold, hid⟩
      · rw [(hplain phase (List.mem_singleton.mp hnew)).1] at hid
        cases hid
    · intro id phase hphase hstored
      obtain ⟨hlt, _⟩ := List.getElem?_eq_some_iff.mp hphase
      exact ⟨phase, by rw [List.getElem?_append_left hlt]; exact hphase, hstored⟩
    · intro i k t snapshot hi
      by_cases hlt : i < s.requests.length
      · rw [List.getElem?_append_left hlt] at hi
        exact h.fresh i k t snapshot hi
      · have hmem := List.mem_of_getElem? ((List.getElem?_append_right (by omega)).symm.trans hi)
        exact absurd rfl ((hplain _ (List.mem_singleton.mp hmem)).2 k t snapshot)
  | advance i =>
    obtain ⟨phase, hphase, hs⟩ := Option.bind_eq_some_iff.mp hs
    exact advance_readers h hphase hkeeps hs
  | loadReturns i content =>
    simp only [act] at hs
    split at hs
    · rename_i key sorted startedAt loadedAt hphase
      cases hs
      refine h.setRequest [] hphase rfl (by simp [State.setRequest])
        (by simp [State.setRequest]) (by simp) (by simp [Phase.stored]) ?_ ?_
      · intro id hid
        right
        cases sorted with
        | false => cases hid
        | true =>
          cases hid
          intro hmem
          obtain ⟨other, hother, hstored⟩ := h.stored i (.inr hmem)
          rw [hphase] at hother
          cases hother
          cases hstored
      · intro k t snapshot hloaded
        cases sorted with
        | false => cases hloaded
        | true =>
          cases hloaded
          rfl
    · cases hs
  | loadFails i =>
    simp only [act] at hs
    split at hs
    · rename_i hphase
      cases hs
      exact h.setRequest [] hphase rfl (by simp [State.setRequest])
        (by simp [State.setRequest]) (by simp) (by simp [Phase.stored]) (by simp [Phase.holds])
        (fun _ _ _ hloaded => by cases hloaded)
    · cases hs
  | mutate buckets =>
    cases hs
    exact hsame rfl rfl rfl
  | effect i bucket =>
    simp only [act] at hs
    split at hs
    · split at hs <;> cases hs
      exact hsame rfl rfl rfl
    · cases hs
  | endBody i =>
    simp only [act] at hs
    split at hs
    · split at hs <;> cases hs
      exact hsame rfl rfl rfl
    · cases hs
  | advanceMutation i =>
    obtain ⟨m, hm, hs⟩ := Option.bind_eq_some_iff.mp hs
    rw [keepsReaders_iff] at hkeeps
    simp only [evictedBy, hm] at hkeeps
    unfold advanceMutation at hs
    split at hs
    · split at hs
      · split at hs <;> cases hs
        · exact hsame rfl rfl rfl
        · exact hsame rfl rfl rfl
      · rename_i hlength
        rw [if_neg hlength] at hkeeps
        split at hs
        · rename_i bucket rest hsnapshots
          rw [hsnapshots] at hkeeps
          cases hs
          exact h.evict _ rfl (LruTable.ttlInvalidate_perm s.snapshots fun k =>
            settings.bucket k = bucket) rfl hkeeps
        · cases hs
    · cases hs

/-! ## Runs -/

/-- Every answer to a request that starts after a mutation has returned is of a load after it. -/
def ReadsWrites (settings : Settings Key Bucket) (s : State Key Bucket V) : Prop :=
  ∀ a ∈ s.answers, After settings s a.key a.startedAt a.loadedAt

/-- No request holds a closed snapshot. -/
def ReadersOpen (s : State Key Bucket V) : Prop :=
  ∀ phase ∈ s.requests, ∀ id, phase.holds = some id → id ∉ s.closed

/-- A run keeps both properties if no step stores a load older than an invalidation for a mutation,
and none removes a snapshot that a request still reads. -/
theorem browser_reads_writes (settings : Settings Key Bucket) (clock : ℕ) (s : State Key Bucket V)
    (h : Reached (step settings) (fun s label =>
      (storesCurrent settings s label && keepsReaders settings s label) = true)
        (State.init clock) s) :
    ReadsWrites settings s ∧ ReadersOpen s := by
  have hboth : Inv settings s ∧ Readers s := by
    induction h with
    | init => exact ⟨init_inv settings clock, init_readers clock⟩
    | step _ hok hs hinv =>
      obtain ⟨hstores, hkeeps⟩ := (Bool.and_eq_true _ _).mp hok
      exact ⟨step_inv hinv.1 hstores hs, step_readers hinv.2 hkeeps hs⟩
  exact ⟨fun a ha => (hboth.1.answers a ha).2, hboth.2.held⟩

/-- A request lists a bucket, a mutation of the bucket runs and returns, the request stores its page,
and a second request is answered from it. -/
def staleStore : List (Label String String String) :=
  [.request "a/" false false, .advance 0, .advance 0, .mutate ["a/"], .effect 0 "a/", .endBody 0,
    .advanceMutation 0, .advanceMutation 0, .advanceMutation 0, .loadReturns 0 "old", .advance 0,
    .request "a/" false false, .advance 1]

/-- A request reads the prefixes of a snapshot, and a mutation of the bucket invalidates it. -/
def closedReader : List (Label String String String) :=
  [.request "a/" true false, .advance 0, .advance 0, .loadReturns 0 "sorted", .advance 0, .advance 0,
    .mutate ["a/"], .endBody 0, .advanceMutation 0, .advanceMutation 0]

/-- The same listing and mutation one after the other, and a second listing that reads a snapshot. -/
def quietRun : List (Label String String String) :=
  [.request "a/" true false, .advance 0, .advance 0, .loadReturns 0 "old", .advance 0, .advance 0,
    .advance 0, .mutate ["a/"], .effect 0 "a/", .endBody 0, .advanceMutation 0, .advanceMutation 0,
    .advanceMutation 0, .request "a/" true false, .advance 1, .advance 1, .loadReturns 1 "new",
    .advance 1, .advance 1, .advance 1]

theorem browser_reads_writes_quietRun :
    ∃ s : State String String String, afterOk (step ⟨id, 10, 512, 128⟩) (fun s label =>
        storesCurrent ⟨id, 10, 512, 128⟩ s label && keepsReaders ⟨id, 10, 512, 128⟩ s label)
          (State.init 0) quietRun = some s ∧
      (s.answers.map Answer.content = ["old", "new"]) ∧ ReadsWrites ⟨id, 10, 512, 128⟩ s := by
  have hrun : (afterOk (step ⟨id, 10, 512, 128⟩) (fun s label =>
      storesCurrent ⟨id, 10, 512, 128⟩ s label && keepsReaders ⟨id, 10, 512, 128⟩ s label)
        (State.init 0) quietRun).any (fun s => s.answers.map Answer.content = ["old", "new"]) =
      true := by
    decide +kernel
  obtain ⟨s, hs, hend⟩ := (Option.any_eq_true _ _).mp hrun
  exact ⟨s, hs, by simpa using hend,
    (browser_reads_writes ⟨id, 10, 512, 128⟩ 0 s (Reached.init.afterOk hs)).1⟩

theorem browser_loses_writes :
    ¬ (∀ s : State String String String,
        Reached (step ⟨id, 10, 512, 128⟩) anyStep (State.init 0) s →
          ReadsWrites ⟨id, 10, 512, 128⟩ s) ∧
      ¬ (∀ s : State String String String,
        Reached (step ⟨id, 10, 512, 128⟩) anyStep (State.init 0) s → ReadersOpen s) := by
  constructor
  · intro hclaim
    have hrun : (after (step ⟨id, 10, 512, 128⟩) (State.init 0) staleStore).any (fun s =>
        s.answers.any fun a => s.mutations.any fun m => m.effects.any fun effect =>
          m.returnedAt.any fun r => r < a.startedAt && effect.1 = a.key &&
            a.loadedAt ≤ effect.2) = true := by
      decide +kernel
    obtain ⟨s, hs, hend⟩ := (Option.any_eq_true _ _).mp hrun
    obtain ⟨a, ha, hend⟩ := List.any_eq_true.mp hend
    obtain ⟨m, hm, hend⟩ := List.any_eq_true.mp hend
    obtain ⟨effect, heffect, hend⟩ := List.any_eq_true.mp hend
    obtain ⟨r, hr, hend⟩ := (Option.any_eq_true _ _).mp hend
    simp only [Bool.and_eq_true, decide_eq_true_eq] at hend
    obtain ⟨⟨hlt, hbucket⟩, hle⟩ := hend
    have := hclaim s (Reached.init.after hs) a ha m hm r hr hlt effect heffect hbucket
    omega
  · intro hclaim
    have hrun : (after (step ⟨id, 10, 512, 128⟩) (State.init 0) closedReader).any (fun s =>
        s.requests.any fun phase => phase.holds.any fun n => n ∈ s.closed) = true := by
      decide +kernel
    obtain ⟨s, hs, hend⟩ := (Option.any_eq_true _ _).mp hrun
    obtain ⟨phase, hphase, hend⟩ := List.any_eq_true.mp hend
    obtain ⟨n, hn, hend⟩ := (Option.any_eq_true _ _).mp hend
    exact hclaim s (Reached.init.after hs) phase hphase n hn (by simpa using hend)

end Browser
end BucketReef

import BucketReef.Effects.Identities
import BucketReef.Portal.StorageSpaces
import Mathlib.Logic.Equiv.List

/-!
# Concurrent share mutations

Each mutation rewrites the projection from what its own transaction sees, before it commits. The
projection is lost where another transaction has an open change it depends on, or has committed one
since it was read. In runs without such writes, the projection of the committed grants is what is left
when every request has ended.
-/

namespace BucketReef
namespace StorageSpaces

open Effects Portal Derived

namespace Directory

variable (d : Directory)

/-! ## What the projection depends on -/

theorem metadata_eq {rows : Rows} {bucketName : String} {metadata : StorageSpaceMetadata}
    (h : d.metadata rows bucketName = some metadata) :
    metadata.id = d.spaceId bucketName ∧ metadata.bucketName = bucketName := by
  simp only [Directory.metadata, view, if_true, Option.map_eq_some_iff] at h
  obtain ⟨row, -, rfl⟩ := h
  exact ⟨rfl, rfl⟩

theorem metadata_congr {rows rows' : Rows} {bucketName : String}
    (h : rows (.space bucketName) = rows' (.space bucketName)) :
    d.metadata rows bucketName = d.metadata rows' bucketName := by
  simp only [Directory.metadata, view, if_true, h]

theorem allowedBuckets_congr {rows rows' : Rows} {userId : ℕ}
    (hspaces : ∀ bucketName, rows (.space bucketName) = rows' (.space bucketName))
    (hgrants : ∀ space, rows (.grant space userId) = rows' (.grant space userId))
    (role : PortalAccountRole) : d.allowedBuckets rows userId role = d.allowedBuckets rows' userId role := by
  cases role with
  | portalManager => rfl
  | portalUser =>
    funext bucketName
    have hmetadata := d.metadata_congr (hspaces bucketName)
    unfold Directory.metadata at hmetadata
    simp only [allowedBuckets, Database.storageSpaceRolesByBucket, hmetadata]
    simp only [view, hgrants]

theorem principalsForSpace_congr {rows rows' : Rows} {metadata : StorageSpaceMetadata}
    (h : ∀ userId, rows (.grant metadata.id userId) = rows' (.grant metadata.id userId)) :
    d.principalsForSpace rows metadata = d.principalsForSpace rows' metadata := by
  have hgrants : (d.view rows).grantUserIds metadata = (d.view rows').grantUserIds metadata := by
    simp only [Database.grantUserIds, view, h]
  have hallowed : (d.view rows).portalStorageSpaceAllowedUserIds d.accountId metadata =
      (d.view rows').portalStorageSpaceAllowedUserIds d.accountId metadata := by
    unfold Database.portalStorageSpaceAllowedUserIds
    rw [hgrants]
    rfl
  simp only [principalsForSpace, hallowed]

theorem bucketDeny_congr {rows rows' : Rows} {bucketName : String}
    (hspace : rows (.space bucketName) = rows' (.space bucketName))
    (hgrants : ∀ userId, rows (.grant (d.spaceId bucketName) userId) =
      rows' (.grant (d.spaceId bucketName) userId)) :
    d.bucketDeny rows bucketName = d.bucketDeny rows' bucketName := by
  unfold bucketDeny
  rw [← d.metadata_congr hspace]
  cases hmetadata : d.metadata rows bucketName with
  | none => rfl
  | some metadata =>
    have hid := (d.metadata_eq hmetadata).1
    rw [← hid] at hgrants
    simp only [Option.map_some, d.principalsForSpace_congr hgrants]

/-- The policy is the projection of the rows. -/
def Projects (rows : Rows) : (x : Item) → Policy x → Prop
  | .inlinePolicy userId, policy => ∀ role, d.projectedRole userId = some role →
      policy.roles = d.allowedBuckets rows userId role
  | .bucketPolicy bucketName, policy => ∀ deny, d.bucketDeny rows bucketName = some deny →
      policy.deny = some deny

/-- The rows a policy depends on. -/
def relevant : Key → Item → Bool
  | .grant _ user, .inlinePolicy userId =>
    user = userId && d.projectedRole userId = some .portalUser
  | .space _, .inlinePolicy userId => d.projectedRole userId = some .portalUser
  | .grant space _, .bucketPolicy bucketName => space = d.spaceId bucketName
  | .space bucketName', .bucketPolicy bucketName => bucketName' = bucketName

/-- The policies of the endpoint, derived from the rows. -/
def derivation : Derivation Key Row Item Policy where
  relevant := d.relevant
  Fits := d.Projects
  congr := by
    intro rows rows' x policy hrows hprojects
    cases x with
    | inlinePolicy userId =>
      intro role hrole
      rw [hprojects role hrole]
      cases role with
      | portalManager => rfl
      | portalUser =>
        refine d.allowedBuckets_congr (fun bucketName => hrows _ ?_) (fun space => hrows _ ?_) .portalUser
        · simp [relevant, hrole]
        · simp [relevant, hrole]
    | bucketPolicy bucketName =>
      intro deny hdeny
      refine hprojects deny ?_
      rw [← hdeny]
      refine d.bucketDeny_congr (hrows _ ?_) fun userId => hrows _ ?_
      · simp [relevant]
      · simp [relevant]

end Directory

variable {d : Directory}

/-! ## The rules -/

/-- No change the policy depends on was committed since the last query of the session. -/
def Session.unchangedSinceQuery (d : Directory) (w : World) (s : Session) (x : Item) : Bool :=
  (w.store.history.drop s.readAt).all fun change => !d.relevant change.1 x

/-- No other session has an open change the policy depends on. -/
def World.uncontended (d : Directory) (w : World) (me : ℕ) (x : Item) : Bool :=
  w.openSessions.all fun i => i = me || !d.derivation.touches w.store i x

/-- The put of a policy is computed from all there is. -/
def Op.current (d : Directory) : Op → World → Session → Bool
  | .putPolicy x _, w, s => s.unchangedSinceQuery d w x && w.uncontended d s.me x
  | _, _, _ => true

/-- The database accepts the operation. -/
def Op.succeeds : Op → World → Session → Bool
  | .flush change expected, w, s => !w.locked s.me change.1 &&
      !expected.any (· ≠ change.1.present (w.store.view s.me change.1))
  | .touch key, w, s => !w.locked s.me key && key.present (w.store.view s.me key)
  | _, _, _ => true

/-- What a session relies on: nobody touches its transaction, and rows only change by commits. -/
structure Relies (me : ℕ) (w w' : World) : Prop where
  sessions : w.sessions ≤ w'.sessions
  openSession : me ∈ w.openSessions → me ∈ w'.openSessions
  flushed : w'.store.flushed me = w.store.flushed me
  written : w'.store.written me = w.store.written me
  committed : ∃ changes, w'.store.history = w.store.history ++ changes ∧
    w'.store.rows = applyChanges w.store.rows changes

structure Consistent (d : Directory) (w : World) : Prop where
  coherent : Coherent d.derivation w.store
  known : ∀ i ∈ w.openSessions, i < w.sessions
  closed : ∀ i, i ∉ w.openSessions → w.store.flushed i = []

theorem Relies.refl (me : ℕ) (w : World) : Relies me w w :=
  ⟨Nat.le_refl _, id, rfl, rfl, [], (List.append_nil _).symm, rfl⟩

theorem Relies.trans {me : ℕ} {w₁ w₂ w₃ : World} (h : Relies me w₁ w₂) (h' : Relies me w₂ w₃) :
    Relies me w₁ w₃ := by
  obtain ⟨changes, hhistory, hrows⟩ := h.committed
  obtain ⟨changes', hhistory', hrows'⟩ := h'.committed
  refine ⟨Nat.le_trans h.sessions h'.sessions, h'.openSession ∘ h.openSession, h'.flushed.trans h.flushed,
    h'.written.trans h.written, changes ++ changes', ?_, ?_⟩
  · rw [hhistory', hhistory, List.append_assoc]
  · rw [hrows', hrows, applyChanges, applyChanges, applyChanges, List.foldl_append]

/-- Where nothing the policy depends on was committed since the query, it is the projection of what the
session sees. -/
def Computed (d : Directory) (x : Item) (policy : Policy x) (w : World) (s : Session) : Prop :=
  s.unchangedSinceQuery d w x = true → d.Projects (w.store.view s.me) x policy

/-- The session has written every policy its open changes are relevant to. -/
def Projected (d : Directory) (w : World) (me : ℕ) : Prop :=
  ∀ x, d.derivation.touches w.store me x = true → w.store.written me x = true

def rules (d : Directory) (me : ℕ) : Rules Op World Session where
  rely := Relies me
  inv := Consistent d
  allowed op w s := (op.current d w s && op.succeeds w s) = true
  require op w s := s.me = me ∧ match op with
    | .putPolicy x policy => Computed d x policy w s
    | .flush _ _ => me ∈ w.openSessions ∧ w.store.flushed me = []
    | .commit => Projected d w me
    | .rollback | .close => w.store.flushed me = []
    | _ => True
  rely_refl := Relies.refl me
  rely_trans := Relies.trans

/-! ## What the operations keep -/

theorem not_holds_of_closed {w : World} {i : ℕ} (h : w.store.flushed i = []) (x : Item) :
    ¬ d.derivation.Holds w.store i x := by
  refine not_holds_of_untouched ?_
  rw [Derivation.touches, h, List.any_nil]

/-- A step of the session with the identity `me` leaves the transactions of the others alone. -/
theorem relies_of_store {me other : ℕ} {w : World} {store : Store} (hother : other ≠ me)
    (hflushed : ∀ i, i ≠ me → store.flushed i = w.store.flushed i)
    (hwritten : ∀ i, i ≠ me → store.written i = w.store.written i)
    (hcommitted : ∃ changes, store.history = w.store.history ++ changes ∧
      store.rows = applyChanges w.store.rows changes) : Relies other w { w with store := store } :=
  ⟨Nat.le_refl _, id, hflushed other hother, hwritten other hother, hcommitted⟩

theorem guarantee {op : Op} {w : World} {s : Session} {other : ℕ} (hother : other ≠ s.me) :
    Relies other w (exec op .none w s).1 := by
  have hrefl := Relies.refl other w
  have hnone {store : Store} (hhistory : store.history = w.store.history)
      (hrows : store.rows = w.store.rows) : ∃ changes, store.history = w.store.history ++ changes ∧
        store.rows = applyChanges w.store.rows changes :=
    ⟨[], hhistory.trans (List.append_nil _).symm, hrows⟩
  cases op with
  | query | remote | getPolicy => exact hrefl
  | putPolicy x policy =>
    refine relies_of_store hother (fun _ _ => rfl) (fun i hi => ?_) (hnone rfl rfl)
    simp only [Store.write, Function.update_of_ne hi]
  | flush change expected =>
    simp only [exec]
    split
    · exact hrefl
    · split
      · exact hrefl
      · refine relies_of_store hother (fun i hi => ?_) (fun i hi => ?_) (hnone rfl rfl)
        · simp only [Store.flush, Function.update_of_ne hi]
        · simp only [Store.flush, Function.update_of_ne hi]
  | touch key =>
    simp only [exec]
    split
    · exact hrefl
    · split <;> exact hrefl
  | commit =>
    refine relies_of_store hother (fun i hi => ?_) (fun _ _ => rfl) ⟨_, rfl, rfl⟩
    simp only [Store.commit, Function.update_of_ne hi]
  | rollback =>
    refine relies_of_store hother (fun i hi => ?_) (fun _ _ => rfl) (hnone rfl rfl)
    simp only [Store.rollback, Function.update_of_ne hi]
  | close =>
    refine ⟨Nat.le_refl _, fun hopen => ?_, ?_, rfl, hnone rfl rfl⟩
    · exact List.mem_filter.mpr ⟨hopen, by simpa using hother⟩
    · show (w.store.rollback s.me).flushed other = w.store.flushed other
      simp only [Store.rollback, Function.update_of_ne hother]

theorem Consistent.of_store {w : World} (h : Consistent d w) {store : Store}
    (hcoherent : Coherent d.derivation store)
    (hflushed : ∀ i, i ∉ w.openSessions → store.flushed i = w.store.flushed i) :
    Consistent d { w with store := store } :=
  ⟨hcoherent, h.known, fun i hi => (hflushed i hi).trans (h.closed i hi)⟩

theorem consistent_exec {op : Op} {w : World} {s : Session} (h : Consistent d w)
    (hrequire : (rules d s.me).require op w s) (hcurrent : op.current d w s = true) :
    Consistent d (exec op .none w s).1 := by
  obtain ⟨-, hrequire⟩ := hrequire
  cases op with
  | query | remote | getPolicy => exact h
  | putPolicy x policy =>
    rw [Op.current, Bool.and_eq_true] at hcurrent
    obtain ⟨hunchanged, huncontended⟩ := hcurrent
    refine h.of_store (h.coherent.write (hrequire hunchanged) fun i hi => ?_) fun _ _ => rfl
    by_cases hopen : i ∈ w.openSessions
    · have hnot := List.all_eq_true.mp huncontended i hopen
      simpa [hi] using hnot
    · rw [Derivation.touches, h.closed i hopen, List.any_nil]
  | flush change expected =>
    obtain ⟨hopen, hclosed⟩ := hrequire
    simp only [exec]
    split
    · exact h
    · split
      · exact h
      · refine h.of_store (h.coherent.flush (not_holds_of_closed hclosed) change) fun i hi => ?_
        have hne : i ≠ s.me := by
          rintro rfl
          exact hi hopen
        simp only [Store.flush, Function.update_of_ne hne]
  | touch key =>
    simp only [exec]
    split
    · exact h
    · split <;> exact h
  | commit =>
    refine ⟨h.coherent.commit hrequire, h.known, fun i hi => ?_⟩
    by_cases hne : i = s.me
    · subst hne
      exact Function.update_self ..
    · show (w.store.commit s.me).flushed i = []
      simp only [Store.commit, Function.update_of_ne hne]
      exact h.closed i hi
  | rollback =>
    refine h.of_store (h.coherent.rollback (not_holds_of_closed hrequire)) fun i hi => ?_
    by_cases hne : i = s.me
    · subst hne
      exact (Function.update_self ..).trans hrequire.symm
    · simp only [Store.rollback, Function.update_of_ne hne]
  | close =>
    refine ⟨h.coherent.rollback (not_holds_of_closed hrequire), fun i hi => ?_, fun i hi => ?_⟩
    · exact h.known i (List.mem_filter.mp hi).1
    · by_cases hne : i = s.me
      · subst hne
        exact Function.update_self ..
      · show (w.store.rollback s.me).flushed i = []
        simp only [Store.rollback, Function.update_of_ne hne]
        refine h.closed i fun hopen => hi (List.mem_filter.mpr ⟨hopen, by simpa using hne⟩)

/-- An accepted operation returns. -/
theorem exec_ok {op : Op} {w : World} {s : Session} (h : op.succeeds w s = true) (e : Error) :
    (exec op .none w s).2.2 ≠ .error e := by
  cases op with
  | flush change expected =>
    simp only [Op.succeeds, Bool.and_eq_true, Bool.not_eq_true'] at h
    simp only [exec, h.1, h.2, Bool.false_eq_true, if_false, faulty]
    rintro ⟨⟩
  | touch key =>
    simp only [Op.succeeds, Bool.and_eq_true, Bool.not_eq_true'] at h
    simp only [exec, h.1, h.2, Bool.false_eq_true, if_false, if_true, faulty]
    rintro ⟨⟩
  | _ =>
    simp only [exec, faulty]
    rintro ⟨⟩

/-! ## The system -/

inductive ShareMutation
  | set (access : Access) (target : ℕ) (bucketName : String) (role : MemberRole)
  | revoke (access : Access) (target : ℕ) (bucketName : String)
  deriving DecidableEq, Repr

def ShareMutation.service (d : Directory) : ShareMutation → Service Unit
  | .set access target bucketName role => setStorageSpaceShare d access target bucketName role
  | .revoke access target bucketName => revokeStorageSpaceShare d access target bucketName

def World.opened (w : World) : World :=
  { w with sessions := w.sessions + 1, openSessions := w.sessions :: w.openSessions }

/-- Share mutations whose calls do not fail, each in a session of its own. -/
def shareSystem (d : Directory) : System Op Reply Error World Session Unit Empty ShareMutation where
  exec op _ := exec op .none
  apply event _ := event.elim
  start mutation w := some (w.opened, { me := w.sessions },
    (mutation.service d).tryFinally (Prog.perform Op.close))

abbrev SystemState : Type := State Op Reply Error World Session
abbrev ShareLabel : Type := Label Unit Empty ShareMutation

/-! ## What a session knows -/

/-- The session `m` is open, its open changes are `changes`, and it has written the policies in `W`. -/
structure Mine (m : ℕ) (changes : List Change) (W : Item → Prop) (w : World) (s : Session) : Prop where
  me : s.me = m
  openSession : m ∈ w.openSessions
  flushed : w.store.flushed m = changes
  written : ∀ x, W x → w.store.written m x = true
  readAt : s.readAt ≤ w.store.history.length

/-- The session has seen the rows at its last query. -/
def Seen (d : Directory) (rows : Rows) (w : World) (s : Session) : Prop :=
  ∀ x policy, d.Projects rows x policy → Computed d x policy w s

variable {m : ℕ} {changes : List Change} {W : Item → Prop}

theorem Mine.stable : Stable (rules d m) (Mine m changes W) := by
  intro w w' s h hrely _
  obtain ⟨more, hhistory, -⟩ := hrely.committed
  refine ⟨h.me, hrely.openSession h.openSession, hrely.flushed.trans h.flushed, fun x hx => ?_, ?_⟩
  · rw [hrely.written]
    exact h.written x hx
  · rw [hhistory, List.length_append]
    exact Nat.le_trans h.readAt (Nat.le_add_right _ _)

/-- A later commit leaves the computed policy alone, or makes it outdated. -/
theorem Computed.rely {x : Item} {policy : Policy x} {w w' : World} {s : Session}
    (h : Computed d x policy w s) (hreadAt : s.readAt ≤ w.store.history.length)
    (hrely : Relies s.me w w') : Computed d x policy w' s := by
  obtain ⟨more, hhistory, hrows⟩ := hrely.committed
  intro hunchanged
  rw [Session.unchangedSinceQuery, hhistory, List.drop_append_of_le_length hreadAt, List.all_append,
    Bool.and_eq_true] at hunchanged
  have hmore : (more.any fun change => d.derivation.relevant change.1 x) = false := by
    refine List.any_eq_false.mpr fun change hchange => ?_
    show ¬ d.relevant change.1 x = true
    simpa using List.all_eq_true.mp hunchanged.2 change hchange
  refine d.derivation.congr (fun k hk => ?_) (h hunchanged.1)
  show applyChanges w.store.rows (w.store.flushed s.me) k =
    applyChanges w'.store.rows (w'.store.flushed s.me) k
  rw [hrely.flushed, hrows]
  exact applyChanges_congr (applyChanges_of_irrelevant hmore hk).symm

theorem stable_computed {x : Item} {policy : Policy x} :
    Stable (rules d m) fun w s => Mine m changes W w s ∧ Computed d x policy w s := by
  intro w w' s h hrely hinv
  refine ⟨Mine.stable w w' s h.1 hrely hinv, h.2.rely h.1.readAt ?_⟩
  rw [h.1.me]
  exact hrely

/-- The program returns, and `Q` holds then. -/
abbrev Returns (d : Directory) (m : ℕ) {α : Type} (p : Service α) (Q : α → World → Session → Prop)
    (w : World) (s : Session) : Prop :=
  wp (shareSystem d).toMachine (rules d m) p Q (fun _ _ _ => False) w s

theorem Returns.bind {α β : Type} {p : Service α} {f : α → Service β} {Q : α → World → Session → Prop}
    {Q' : β → World → Session → Prop} {onFail : Error → World → Session → Prop} {w : World} {s : Session}
    (hp : Returns d m p Q w s)
    (hf : ∀ a w s, Q a w s → wp (shareSystem d).toMachine (rules d m) (f a) Q' onFail w s) :
    wp (shareSystem d).toMachine (rules d m) (p >>= f) Q' onFail w s :=
  wp_bind (wp_mono hp hf fun _ _ _ h => h.elim)

theorem Returns.tryCatch {α : Type} {p : Service α} {handler : Error → Service α}
    {Q : α → World → Session → Prop} {onFail : Error → World → Session → Prop} {w : World} {s : Session}
    (h : Returns d m p Q w s) :
    wp (shareSystem d).toMachine (rules d m) (p.tryCatch handler) Q onFail w s :=
  wp_tryCatch (wp_mono h (fun _ _ _ h => h) fun _ _ _ h => h.elim)

theorem returns_perform {op : Op} {A : World → Session → Prop} {Q : Reply op → World → Session → Prop}
    {w : World} {s : Session} (hA : A w s) (hstable : Stable (rules d m) A) (hme : ∀ w s, A w s → s.me = m)
    (hrequire : ∀ w s, A w s → (rules d m).require op w s)
    (hQ : ∀ w s a, A w s → (exec op .none w s).2.2 = .ok a →
      Q a (exec op .none w s).1 (exec op .none w s).2.1) : Returns d m (Prog.perform op) Q w s := by
  refine wp_perform hA hstable fun w s hA hinv => ?_
  have hr := hrequire w s hA
  refine step_of_exec hr (fun hallowed _ => ?_) (fun _ _ a hok => hQ w s a hA hok) ?_
  · have hallowed' := (Bool.and_eq_true _ _).mp hallowed
    refine consistent_exec hinv ?_ hallowed'.1
    rw [hme w s hA]
    exact hr
  · intro hallowed _ e herror
    exact exec_ok ((Bool.and_eq_true _ _).mp hallowed).2 e herror

theorem exec_query (w : World) (s : Session) : exec .query .none w s =
    (w, { s with readAt := w.store.history.length }, .ok (w.store.view s.me)) := rfl

theorem returns_query {w : World} {s : Session} (h : Mine m changes W w s) :
    Returns d m (Prog.perform Op.query)
      (fun (rows : Rows) w s => Mine m changes W w s ∧ Seen d rows w s) w s := by
  refine returns_perform h Mine.stable (fun _ _ h => h.me) (fun _ _ h => ⟨h.me, trivial⟩) ?_
  intro w s rows h hok
  rw [exec_query] at hok ⊢
  cases hok
  exact ⟨⟨h.me, h.openSession, h.flushed, h.written, Nat.le_refl _⟩, fun _ _ hprojects _ => hprojects⟩

/-- A call that changes neither the world nor the session. -/
theorem returns_unchanged {op : Op} {A : World → Session → Prop} {w : World} {s : Session} (hA : A w s)
    (hstable : Stable (rules d m) A) (hme : ∀ w s, A w s → s.me = m)
    (hrequire : ∀ w s, s.me = m → (rules d m).require op w s)
    (hexec : ∀ w s, (exec op .none w s).1 = w ∧ (exec op .none w s).2.1 = s) :
    Returns d m (Prog.perform op) (fun _ => A) w s := by
  refine returns_perform hA hstable hme (fun w s hA => hrequire w s (hme w s hA)) fun w s _ hA _ => ?_
  obtain ⟨hworld, hsession⟩ := hexec w s
  rw [hworld, hsession]
  exact hA

theorem returns_putPolicy {x : Item} {policy : Policy x} {w : World} {s : Session}
    (h : Mine m changes W w s) (hcomputed : Computed d x policy w s) :
    Returns d m (Prog.perform (Op.putPolicy x policy))
      (fun _ => Mine m changes fun y => W y ∨ y = x) w s := by
  refine returns_perform ⟨h, hcomputed⟩ stable_computed (fun _ _ h => h.1.me) (fun _ _ h => ⟨h.1.me, h.2⟩) ?_
  intro w s _ h _
  refine ⟨h.1.me, h.1.openSession, h.1.flushed, fun y hy => ?_, h.1.readAt⟩
  show Function.update w.store.written s.me (Function.update (w.store.written s.me) x true) m y = true
  rw [h.1.me, Function.update_self]
  by_cases hyx : y = x
  · rw [hyx, Function.update_self]
  · rw [Function.update_of_ne hyx]
    exact h.1.written y (hy.resolve_right hyx)

/-! ## The projection -/

theorem Mine.mono {W' : Item → Prop} {w : World} {s : Session} (h : Mine m changes W w s)
    (hsub : ∀ x, W' x → W x) : Mine m changes W' w s :=
  ⟨h.me, h.openSession, h.flushed, fun x hx => h.written x (hsub x hx), h.readAt⟩

theorem returns_syncUserStorageSpaceProjection {userId : ℕ} {role : PortalAccountRole}
    (hrole : d.projectedRole userId = some role) {w : World} {s : Session} (h : Mine m changes W w s) :
    Returns d m (syncUserStorageSpaceProjection d userId role)
      (fun _ => Mine m changes fun y => W y ∨ y = .inlinePolicy userId) w s := by
  have hroles : Returns d m (accessByBucket d userId role) (fun roles w s => Mine m changes W w s ∧
      ∀ policy : InlinePolicy, Computed d (.inlinePolicy userId) { policy with roles := roles } w s) w s := by
    cases role with
    | portalManager =>
      refine ⟨h, fun policy _ role hrole' => ?_⟩
      obtain rfl := Option.some.inj (hrole.symm.trans hrole')
      rfl
    | portalUser =>
      refine (returns_query h).bind fun rows w s h => ⟨h.1, fun policy => h.2 _ _ fun role hrole' => ?_⟩
      obtain rfl := Option.some.inj (hrole.symm.trans hrole')
      rfl
  refine hroles.bind fun roles w s h => ?_
  have hstable : Stable (rules d m) fun w s => Mine m changes W w s ∧
      ∀ policy : InlinePolicy, Computed d (.inlinePolicy userId) { policy with roles := roles } w s :=
    fun w w' s h hrely hinv => ⟨Mine.stable w w' s h.1 hrely hinv, fun policy =>
      (stable_computed w w' s ⟨h.1, h.2 policy⟩ hrely hinv).2⟩
  refine (returns_unchanged h hstable (fun _ _ h => h.1.me) (fun _ _ hme => ⟨hme, trivial⟩)
    fun _ _ => ⟨rfl, rfl⟩).bind fun policy w s h => ?_
  exact returns_putPolicy h.1 (h.2 policy)

/-- The policies of the participants in a list. -/
def ParticipantPolicy (d : Directory) (userIds : List ℕ) (x : Item) : Prop :=
  ∃ userId ∈ userIds, x = .inlinePolicy userId ∧ (d.projectedRole userId).isSome = true

theorem returns_syncParticipants (userIds : List ℕ) {w : World} {s : Session} (h : Mine m changes W w s) :
    Returns d m (Prog.forEach userIds (syncParticipant d))
      (fun _ => Mine m changes fun x => W x ∨ ParticipantPolicy d userIds x) w s := by
  induction userIds generalizing W w s with
  | nil => exact h.mono fun x hx => hx.resolve_right fun ⟨_, hmem, _⟩ => absurd hmem List.not_mem_nil
  | cons userId userIds ih =>
    have hfirst : Returns d m (syncParticipant d userId) (fun _ => Mine m changes fun x =>
        W x ∨ (x = .inlinePolicy userId ∧ (d.projectedRole userId).isSome = true)) w s := by
      unfold syncParticipant
      cases hrole : d.projectedRole userId with
      | none => exact h.mono fun x hx => hx.resolve_right fun ⟨_, hnone⟩ => nomatch hnone
      | some role =>
        refine (returns_unchanged h Mine.stable (fun _ _ h => h.me) (fun _ _ hme => ⟨hme, trivial⟩)
          fun _ _ => ⟨rfl, rfl⟩).bind fun _ w s h => ?_
        refine wp_mono (returns_syncUserStorageSpaceProjection hrole h) (fun _ _ _ h => ?_) fun _ _ _ h => h
        exact h.mono fun x hx => hx.imp_right And.left
    refine hfirst.bind fun _ w s h => wp_mono (ih h) (fun _ _ _ h => h.mono ?_) fun _ _ _ h => h
    rintro x (hx | ⟨other, hmem, hx⟩)
    · exact .inl (.inl hx)
    · rcases List.mem_cons.mp hmem with rfl | hmem
      · exact .inl (.inr hx)
      · exact .inr ⟨other, hmem, hx⟩

theorem returns_syncStorageSpaceBucketPolicy (bucketName : String) {w : World} {s : Session}
    (h : Mine m changes W w s) : Returns d m (syncStorageSpaceBucketPolicy d bucketName)
      (fun _ => Mine m changes fun x => W x ∨ x = .bucketPolicy bucketName) w s := by
  refine (returns_unchanged h Mine.stable (fun _ _ h => h.me) (fun _ _ hme => ⟨hme, trivial⟩)
    fun _ _ => ⟨rfl, rfl⟩).bind fun (policy : BucketPolicy) w s h => ?_
  refine (returns_query h).bind fun rows w s h => ?_
  exact returns_putPolicy h.1 (h.2 _ _ fun deny hdeny => hdeny)

/-- The policies that the rewriting of a projection for some more users reaches. -/
def Reached (d : Directory) (bucketName : String) (extraUserIds : List ℕ) (x : Item) : Prop :=
  x = .bucketPolicy bucketName ∨
    ParticipantPolicy d ((d.database.users.map User.id).filter fun userId => userId ∈ extraUserIds) x

theorem returns_syncStorageSpaceAccessProjection (bucketName : String) (extraUserIds : List ℕ) {w : World}
    {s : Session} (h : Mine m changes W w s) :
    Returns d m (syncStorageSpaceAccessProjection d bucketName extraUserIds)
      (fun _ => Mine m changes (Reached d bucketName extraUserIds)) w s := by
  refine (returns_query h).bind fun rows w s h => ?_
  have husers : Returns d m (syncStorageSpaceUserProjections d
      (d.participantUserIds rows bucketName ++ extraUserIds)) (fun _ => Mine m changes
        (ParticipantPolicy d ((d.database.users.map User.id).filter fun userId => userId ∈ extraUserIds)))
        w s := by
    refine (returns_unchanged h.1 Mine.stable (fun _ _ h => h.me) (fun _ _ hme => ⟨hme, trivial⟩)
      fun _ _ => ⟨rfl, rfl⟩).bind fun _ w s h => ?_
    refine wp_mono (returns_syncParticipants _ h) (fun _ _ _ h => h.mono ?_) fun _ _ _ h => h
    rintro x ⟨userId, hmem, hx⟩
    refine .inr ⟨userId, ?_, hx⟩
    rw [List.mem_filter] at hmem ⊢
    refine ⟨hmem.1, ?_⟩
    simp only [decide_eq_true_eq] at hmem ⊢
    exact List.mem_append_right _ hmem.2
  refine husers.bind fun _ w s h => ?_
  refine wp_mono (returns_syncStorageSpaceBucketPolicy bucketName h) (fun _ _ _ h => h.mono ?_)
    fun _ _ _ h => h
  exact fun x hx => hx.symm

/-! ## The mutations -/

theorem mem_of_memberRole {userId : ℕ} {role : PortalAccountRole} (h : d.memberRole userId = some role) :
    userId ∈ d.database.users.map User.id := by
  rw [Directory.memberRole, Option.map_eq_some_iff] at h
  obtain ⟨entry, hentry, -⟩ := h
  have hid : entry.1 = userId := by simpa using List.find?_some hentry
  obtain ⟨user, huser, hrole⟩ := List.mem_filterMap.mp (List.mem_of_find?_eq_some hentry)
  obtain ⟨role, -, rfl⟩ := Option.map_eq_some_iff.mp hrole
  exact List.mem_map.mpr ⟨user, huser, hid⟩

theorem memberRole_of_projectedRole {userId : ℕ} {role : PortalAccountRole}
    (h : d.projectedRole userId = some role) : d.memberRole userId = some role := by
  unfold Directory.projectedRole at h
  split at h
  · exact h
  · cases h

/-- A change of a grant is relevant to the policies the mutation reaches, and to no others. -/
theorem reached_of_relevant {bucketName : String} {target : ℕ} {x : Item}
    (h : d.relevant (.grant (d.spaceId bucketName) target) x = true) : Reached d bucketName [target] x := by
  cases x with
  | inlinePolicy userId =>
    simp only [Directory.relevant, Bool.and_eq_true, decide_eq_true_eq] at h
    obtain ⟨rfl, hrole⟩ := h
    refine .inr ⟨target, List.mem_filter.mpr ⟨?_, by simp⟩, rfl, by rw [hrole]; rfl⟩
    exact mem_of_memberRole (memberRole_of_projectedRole hrole)
  | bucketPolicy name =>
    simp only [Directory.relevant, decide_eq_true_eq] at h
    exact .inl (by rw [d.distinctSpaces h])

/-- The changes concern the grant of the target. -/
def ConcernsGrant (d : Directory) (bucketName : String) (target : ℕ) (changes : List Change) : Prop :=
  ∀ change ∈ changes, change.1 = .grant (d.spaceId bucketName) target

theorem Mine.projected {bucketName : String} {target : ℕ} {w : World} {s : Session}
    (h : Mine m changes (Reached d bucketName [target]) w s)
    (hchanges : ConcernsGrant d bucketName target changes) : Projected d w m := by
  intro x htouches
  rw [Derivation.touches, h.flushed, List.any_eq_true] at htouches
  obtain ⟨change, hchange, hrelevant⟩ := htouches
  refine h.written x (reached_of_relevant ?_)
  rw [← hchanges change hchange]
  exact hrelevant

/-- Nothing is open. -/
abbrev Idle (m : ℕ) : World → Session → Prop := Mine m [] fun _ => False

theorem returns_commit {w : World} {s : Session} (h : Mine m changes W w s)
    (hprojected : ∀ w s, Mine m changes W w s → Projected d w m) :
    Returns d m (Prog.perform Op.commit) (fun _ => Idle m) w s := by
  refine returns_perform h Mine.stable (fun _ _ h => h.me) (fun w s h => ⟨h.me, hprojected w s h⟩) ?_
  intro w s _ h _
  refine ⟨h.me, h.openSession, ?_, nofun, ?_⟩
  · show Function.update w.store.flushed s.me [] m = []
    rw [h.me, Function.update_self]
  · show s.readAt ≤ (w.store.history ++ w.store.flushed s.me).length
    rw [List.length_append]
    exact Nat.le_trans h.readAt (Nat.le_add_right _ _)

theorem returns_flush {change : Change} {expected : Option Bool} {w : World} {s : Session}
    (h : Idle m w s) : Returns d m (Prog.perform (Op.flush change expected))
      (fun _ => Mine m [change] fun _ => False) w s := by
  refine returns_perform h Mine.stable (fun _ _ h => h.me)
    (fun w s h => ⟨h.me, h.openSession, h.flushed⟩) ?_
  intro w s _ h hok
  simp only [exec] at hok ⊢
  split at hok
  · cases hok
  · rename_i hlocked
    rw [if_neg hlocked]
    split at hok
    · cases hok
    · rename_i hexpected
      rw [if_neg hexpected]
      refine ⟨h.me, h.openSession, ?_, by rintro _ ⟨⟩, h.readAt⟩
      show Function.update w.store.flushed s.me (w.store.flushed s.me ++ [change]) m = [change]
      rw [h.me, Function.update_self, h.flushed, List.nil_append]

theorem returns_touch {key : Key} {w : World} {s : Session} (h : Idle m w s) :
    Returns d m (Prog.perform (Op.touch key)) (fun _ => Idle m) w s := by
  refine returns_unchanged h Mine.stable (fun _ _ h => h.me) (fun _ _ hme => ⟨hme, trivial⟩) fun w s => ?_
  simp only [exec]
  split
  · exact ⟨rfl, rfl⟩
  · split <;> exact ⟨rfl, rfl⟩

theorem returns_project {flushed : Service Unit} {bucketName : String} {target : ℕ} {message : String}
    {w : World} {s : Session}
    (hflushed : Returns d m flushed (fun _ w s => ∃ changes, ConcernsGrant d bucketName target changes ∧
      Mine m changes (fun _ => False) w s) w s) :
    Returns d m (project d flushed bucketName [target] message) (fun _ => Idle m) w s := by
  refine Returns.bind hflushed.tryCatch ?_
  rintro _ w s ⟨changes, hchanges, h⟩
  refine Returns.tryCatch ?_
  refine (returns_syncStorageSpaceAccessProjection bucketName [target] h).bind fun _ w s h => ?_
  exact returns_commit h fun w s h => h.projected hchanges

theorem returns_flushGrant {bucketName : String} {target : ℕ} {grant : Option MemberRole} {role : MemberRole}
    {w : World} {s : Session} (h : Idle m w s) :
    Returns d m (flushGrant (d.spaceId bucketName) target grant role)
      (fun _ w s => ∃ changes, ConcernsGrant d bucketName target changes ∧
        Mine m changes (fun _ => False) w s) w s := by
  have hflush {expected : Option Bool} : Returns d m
      (Prog.perform (Op.flush ⟨.grant (d.spaceId bucketName) target, some role⟩ expected))
      (fun _ w s => ∃ changes, ConcernsGrant d bucketName target changes ∧
        Mine m changes (fun _ => False) w s) w s :=
    wp_mono (returns_flush h) (fun _ _ _ h => ⟨_, fun change hchange => by
      rw [List.mem_singleton.mp hchange], h⟩) fun _ _ _ h => h
  unfold flushGrant
  cases grant with
  | none => exact hflush
  | some current =>
    dsimp only
    split
    · exact wp_mono (returns_touch h) (fun _ _ _ h => ⟨[], fun _ hmem => absurd hmem List.not_mem_nil, h⟩)
        fun _ _ _ h => h
    · exact hflush

/-- The program ends with nothing open, whether it returns or raises. -/
abbrev Ends (d : Directory) (m : ℕ) {α : Type} (p : Service α) (Q : α → World → Session → Prop) (w : World)
    (s : Session) : Prop :=
  wp (shareSystem d).toMachine (rules d m) p Q (fun _ => Idle m) w s

theorem Returns.ends {α : Type} {p : Service α} {Q : α → World → Session → Prop} {w : World} {s : Session}
    (h : Returns d m p Q w s) : Ends d m p Q w s :=
  wp_mono h (fun _ _ _ h => h) fun _ _ _ h => h.elim

theorem ends_requireStorageSpaceManager (rows : Rows) (access : Access) (bucketName : String)
    (includeArchived : Bool) {w : World} {s : Session} (h : Idle m w s) :
    Ends d m (requireStorageSpaceManager d rows access bucketName includeArchived)
      (fun metadata w s => metadata.id = d.spaceId bucketName ∧ Idle m w s) w s := by
  unfold requireStorageSpaceManager
  split
  · rename_i hmetadata _
    exact ⟨(d.metadata_eq hmetadata).1, h⟩
  · rename_i hmetadata _
    exact ⟨(d.metadata_eq hmetadata).1, h⟩
  · exact h
  · exact h

theorem ends_setStorageSpaceShare (access : Access) (target : ℕ) (bucketName : String) (role : MemberRole)
    {w : World} {s : Session} (h : Idle m w s) :
    Ends d m (setStorageSpaceShare d access target bucketName role) (fun _ => Idle m) w s := by
  refine (returns_query h).bind fun rows w s h => ?_
  refine wp_bind (wp_mono (ends_requireStorageSpaceManager rows access bucketName false h.1) ?_
    fun _ _ _ h => h)
  rintro metadata w s ⟨hid, h⟩
  refine wp_bind (wp_guard (fun _ => ?_) fun _ => h)
  refine wp_bind (wp_guard (fun _ => ?_) fun _ => h)
  refine (returns_query h).bind fun rows w s h => ?_
  refine (returns_project ?_).ends
  rw [hid]
  exact returns_flushGrant h.1

theorem ends_revokeStorageSpaceShare (access : Access) (target : ℕ) (bucketName : String) {w : World}
    {s : Session} (h : Idle m w s) :
    Ends d m (revokeStorageSpaceShare d access target bucketName) (fun _ => Idle m) w s := by
  refine (returns_query h).bind fun rows w s h => ?_
  refine wp_bind (wp_mono (ends_requireStorageSpaceManager rows access bucketName false h.1) ?_
    fun _ _ _ h => h)
  rintro metadata w s ⟨hid, h⟩
  refine (returns_query h).bind fun rows w s h => ?_
  dsimp only
  split
  · refine (returns_commit h.1 fun w s h => ?_).tryCatch
    intro x htouches
    rw [Derivation.touches, h.flushed] at htouches
    cases htouches
  · refine (returns_project ?_).ends
    rw [hid]
    refine wp_mono (returns_flush h.1) (fun _ _ _ h => ⟨_, fun change hchange => ?_, h⟩) fun _ _ _ h => h
    rw [List.mem_singleton.mp hchange]

theorem ends_service (mutation : ShareMutation) {w : World} {s : Session} (h : Idle m w s) :
    Ends d m (mutation.service d) (fun _ => Idle m) w s := by
  cases mutation with
  | set access target bucketName role => exact ends_setStorageSpaceShare access target bucketName role h
  | revoke access target bucketName => exact ends_revokeStorageSpaceShare access target bucketName h

/-! ## Every run -/

theorem safe_service (mutation : ShareMutation) {w : World} {s : Session} (h : Idle m w s) :
    wp (shareSystem d).toMachine (rules d m)
      ((mutation.service d).tryFinally (Prog.perform Op.close)) (fun _ _ _ => True) (fun _ _ _ => True)
      w s := by
  have hclose {w : World} {s : Session} (h : Idle m w s) :
      wp (shareSystem d).toMachine (rules d m) (Prog.perform Op.close) (fun _ _ _ => True)
        (fun _ _ _ => True) w s :=
    wp_mono (returns_perform h Mine.stable (fun _ _ h => h.me) (fun w s h => ⟨h.me, h.flushed⟩)
      fun _ _ _ _ _ => trivial) (fun _ _ _ h => h) fun _ _ _ _ => trivial
  exact wp_tryFinally (wp_mono (ends_service mutation h) (fun _ _ _ h => hclose h) fun _ _ _ h => hclose h)

/-- No call of the step fails, and no policy is written from rows that are not current. -/
def Current (d : Directory) (st : SystemState) (label : ShareLabel) : Bool :=
  permitted (fun op w s => op.current d w s && op.succeeds w s) st label

theorem sessions_exec (op : Op) (w : World) (s : Session) :
    (exec op .none w s).1.sessions = w.sessions ∧ (exec op .none w s).2.1.me = s.me := by
  cases op with
  | flush change expected | touch key =>
    simp only [exec]
    split
    · exact ⟨rfl, rfl⟩
    · split <;> exact ⟨rfl, rfl⟩
  | _ => exact ⟨rfl, rfl⟩

theorem relies_opened (m : ℕ) (w : World) : Relies m w w.opened :=
  ⟨Nat.le_succ _, List.mem_cons_of_mem _, rfl, rfl, [], (List.append_nil _).symm, rfl⟩

theorem Consistent.opened {w : World} (h : Consistent d w) : Consistent d w.opened := by
  refine ⟨h.coherent, fun i hi => ?_, fun i hi => h.closed i fun hopen => hi (List.mem_cons_of_mem _ hopen)⟩
  rcases List.mem_cons.mp hi with rfl | hi
  · exact Nat.lt_succ_self _
  · exact Nat.lt_succ_of_lt (h.known i hi)

/-- A new session has nothing open. -/
theorem Consistent.idle {w : World} (h : Consistent d w) :
    Idle w.sessions w.opened { me := w.sessions } :=
  ⟨rfl, List.mem_cons_self, h.closed _ fun hopen => Nat.lt_irrefl _ (h.known _ hopen), nofun,
    Nat.zero_le _⟩

theorem soundFor : SoundFor (shareSystem d) Session.me (rules d) (fun w me => me < w.sessions) (Consistent d)
    (fun st label => Current d st label = true) where
  inv_iff _ _ := Iff.rfl
  known_mono hrely hknown := Nat.lt_of_lt_of_le hknown hrely.sessions
  known_exec op _ w s hknown := by
    show s.me < (exec op .none w s).1.sessions
    rw [(sessions_exec op w s).1]
    exact hknown
  ident_exec op _ w s := (sessions_exec op w s).2
  event := fun {_ e} => e.elim
  start hinv _ hstart := by
    simp only [shareSystem, Option.some.injEq, Prod.mk.injEq] at hstart
    obtain ⟨rfl, rfl, rfl⟩ := hstart
    refine ⟨⟨Nat.lt_irrefl _, Nat.lt_succ_self _⟩, fun m _ => relies_opened m _, hinv.opened, ?_⟩
    exact safe_service _ hinv.idle
  advance hok hthread hprog := allowed_of_permitted hok hthread hprog
  guarantee _ _ _ _ hother := guarantee hother

/-- A world in which no request runs and every policy is the projection of the rows. -/
structure Settled (d : Directory) (w : World) : Prop where
  projects : ∀ x, d.Projects w.store.rows x (w.store.values x)
  flushed : ∀ i, w.store.flushed i = []
  openSessions : w.openSessions = []

theorem Settled.consistent {w : World} (h : Settled d w) : Consistent d w := by
  refine ⟨⟨fun i x hi => ?_, fun i j x hi _ => ?_, fun x _ => h.projects x⟩, fun i hi => ?_,
    fun i _ => h.flushed i⟩
  · exact absurd hi (not_holds_of_closed (h.flushed i) x)
  · exact absurd hi (not_holds_of_closed (h.flushed i) x)
  · rw [h.openSessions] at hi
    exact absurd hi List.not_mem_nil

/-- When every request of a run without late or early writes has ended, every policy is the projection
of the committed grants. -/
theorem shares_projected {w : World} (hsettled : Settled d w) {st : SystemState}
    (h : Reachable (shareSystem d) (fun st label => Current d st label = true) w st)
    (hended : st.world.openSessions = []) (x : Item) :
    d.Projects st.world.store.rows x (st.world.store.values x) := by
  have hinv := (SafeStateFor.of_reachable soundFor hsettled.consistent h).inv
  refine hinv.coherent.fits (fun i => hinv.closed i ?_) x
  rw [hended]
  exact List.not_mem_nil

/-! ## A project with two users and one Storage Space -/

/-- The policies the projection of the rows writes. -/
def Directory.projection (d : Directory) (rows : Rows) : (x : Item) → Policy x
  | .inlinePolicy userId =>
    { roles := match d.projectedRole userId with
        | none => fun _ => none
        | some role => d.allowedBuckets rows userId role }
  | .bucketPolicy bucketName => { deny := d.bucketDeny rows bucketName }

/-- Nobody is at work, and the endpoint has the projection of the rows. -/
def Directory.settled (d : Directory) (rows : Rows) : World where
  store :=
    { rows := rows
      flushed := fun _ => []
      values := d.projection rows
      written := fun _ _ => false }

theorem settled_settled (d : Directory) (rows : Rows) : Settled d (d.settled rows) := by
  refine ⟨fun x => ?_, fun _ => rfl, rfl⟩
  cases x with
  | inlinePolicy userId =>
    intro role hrole
    simp only [Directory.settled, Directory.projection, hrole]
  | bucketPolicy bucketName => exact fun deny hdeny => hdeny

/-- User 1 manages account 3, users 7 and 8 use it. -/
def team : Database where
  users := [{ id := 1 }, { id := 7 }, { id := 8 }]
  distinctUsers := by decide
  uiGroups := []
  userS3Accounts := fun userId _ =>
    some { portalRole := some (if userId = 1 then .portalManager else .portalUser), hasRole := .inr rfl }
  accountIamUsers := fun userId _ =>
    if userId = 1 then none else some { iamUserId := "", iamUsername := some "portal user" }

def bucketNumber (bucketName : String) : ℕ := Encodable.encode (bucketName.toList.map Char.toNat)

theorem bucketNumber_injective : Function.Injective bucketNumber := by
  intro b b' h
  have hchars : b.toList.map Char.toNat = b'.toList.map Char.toNat := Encodable.encode_injective h
  refine String.toList_injective ?_
  exact List.map_injective_iff.mpr (fun c c' hc => Char.toNat_inj.mp hc) hchars

def project3 : Directory where
  database := team
  accountId := 3
  spaceId := bucketNumber
  distinctSpaces := bucketNumber_injective

/-- The Storage Space of bucket "b" is shared with user 7. -/
def sharedRows : Rows
  | .space bucketName => if bucketName = "b" then some { sharing := .restricted } else none
  | .grant space userId => if space = bucketNumber "b" ∧ userId = 7 then some .viewer else none

def manager : Access := ⟨1, some .portalManager⟩

def advances (i n : ℕ) : List ShareLabel := List.replicate n (.advance i ())

/-- A request shares the Storage Space with user 8, too. While it is at work another one begins, which
revokes the share of user 7 and ends after it. -/
def overlapping : List ShareLabel :=
  .start (.set manager 8 "b" .editor) :: (advances 0 8 ++
    .start (.revoke manager 7 "b") :: (advances 1 2 ++ advances 0 10 ++ advances 1 16))

theorem shares_projected_overlapping : ∃ st, Reachable (shareSystem project3)
    (fun st label => Current project3 st label = true) (project3.settled sharedRows) st ∧
      st.world.openSessions = [] ∧ st.world.store.rows (.grant (bucketNumber "b") 8) = some .editor ∧
        st.world.store.rows (.grant (bucketNumber "b") 7) = none ∧
          ∀ x, project3.Projects st.world.store.rows x (st.world.store.values x) := by
  have hrun : ((shareSystem project3).run (Current project3) ⟨project3.settled sharedRows, []⟩
      overlapping).any (fun st => decide (st.world.openSessions = [] ∧
        st.world.store.rows (.grant (bucketNumber "b") 8) = some .editor ∧
          st.world.store.rows (.grant (bucketNumber "b") 7) = none)) = true := by
    decide +kernel
  obtain ⟨st, hst, hend⟩ := (Option.any_eq_true _ _).mp hrun
  obtain ⟨hended, hgrant, hrevoked⟩ := of_decide_eq_true hend
  have hreachable := Reachable.init.run hst
  exact ⟨st, hreachable, hended, hgrant, hrevoked,
    shares_projected (settled_settled _ _) hreachable hended⟩

/-- The share of user 7 is revoked while the policy of the bucket is being computed for user 8. -/
def overtaken : List ShareLabel :=
  .start (.set manager 8 "b" .editor) :: (advances 0 15 ++
    .start (.revoke manager 7 "b") :: (advances 1 14 ++ advances 0 3))

/-- The request of the thread has returned. -/
def returned (t : Thread Op Reply Error Session) : Bool :=
  match t.prog with
  | .ret _ => true
  | _ => false

/-- Both requests return, and a user whose grant was revoked is exempted from the Deny of the bucket. -/
theorem revoked_share_restored : ∃ st, Reachable (shareSystem project3) (fun _ _ => true = true)
    (project3.settled sharedRows) st ∧ st.threads.map returned = [true, true] ∧
      st.world.openSessions = [] ∧ st.world.store.rows (.grant (bucketNumber "b") 7) = none ∧
        ∃ principals, (st.world.store.values (.bucketPolicy "b")).deny = some (.notPrincipal principals) ∧
          .user 7 ∈ principals := by
  have hrun : ((shareSystem project3).run (fun _ _ => true) ⟨project3.settled sharedRows, []⟩ overtaken).any
      (fun st => decide (st.threads.map returned = [true, true] ∧ st.world.openSessions = [] ∧
        st.world.store.rows (.grant (bucketNumber "b") 7) = none ∧
          (st.world.store.values (.bucketPolicy "b")).deny =
            some (.notPrincipal [.user 7, .user 8, .root, .technical]))) = true := by
    decide +kernel
  obtain ⟨st, hst, hend⟩ := (Option.any_eq_true _ _).mp hrun
  obtain ⟨hreturned, hended, hgrant, hdeny⟩ := of_decide_eq_true hend
  exact ⟨st, Reachable.init.run hst, hreturned, hended, hgrant, _, hdeny, by decide⟩

end StorageSpaces
end BucketReef

import BucketReef.Portal.ExternalCredentials

/-!
# Revocation is one-way

A call that read the credential before a deletion committed `RevocationPending` writes back what it
read. When every write still finds the row as its session read it, a committed revocation is never
undone.
-/

namespace BucketReef
namespace ExternalCredentials

open Effects

/-- The session writes a new status over the row it read, or the status the row has already, and the
bucket policy is the one it put itself. -/
def World.unchangedSince (w : World) (s : Session) (object : Loaded) : Bool :=
  !object.changes || ((w.row = object.base || w.row.status = object.current.status) &&
    s.put.all fun exempted => exempted = w.exempted)

/-- The operation does not write back something older than what is there. -/
def Op.current : Op → World → Session → Bool
  | .commit, w, s => s.object.all (w.unchangedSince s)
  | .putBucketPolicy true, w, s => w.row = s.read
  | _, _, _ => true

/-! ## The rules -/

/-- Neither revoked nor about to be. -/
def Credential.Open (row : Credential) : Prop := row.status ≠ .revocationPending ∧ row.revokedAt = false

/-- The remote side of the credential is gone. -/
structure Deleted (w : World) : Prop where
  key : w.key = none
  inlinePolicy : w.inlinePolicy = false
  iamUser : w.iamUser = false

/-- What has been deleted stays deleted, and a revocation stays committed. -/
structure Relies (w w' : World) : Prop where
  key : w.key = none → w'.key = none
  inlinePolicy : w.inlinePolicy = false → w'.inlinePolicy = false
  iamUser : w.iamUser = false → w'.iamUser = false
  revocationCommitted : w.revocationCommitted = true → w'.revocationCommitted = true

/-- The invariant of the credential. -/
structure OneWay (w : World) : Prop where
  pending : w.revocationCommitted = true → w.row.status = .revocationPending ∨ w.row.revokedAt = true
  denied : w.revocationCommitted = true → w.exempted = false
  revoked : w.row.revokedAt = true → w.row.status = .inactive ∧ Deleted w

/-- What a session may have to write when it commits. -/
inductive Writable (w : World) (s : Session) (object : Loaded) : Prop
  | unchanged (h : object.current = object.base)
  | toggle (hopen : object.base.Open) (hrevoked : object.current.revokedAt = object.base.revokedAt)
      (hstatus : object.current.status ≠ .revocationPending)
  | start (hopen : object.base.Open) (hrevoked : object.current.revokedAt = object.base.revokedAt)
      (hstatus : object.current.status = .revocationPending) (hput : s.put = some false)
  | finish (hbase : object.base = ⟨.revocationPending, false⟩) (hcurrent : object.current = ⟨.inactive, true⟩)
      (hdeleted : Deleted w)
  | again (hbase : object.base = ⟨.inactive, true⟩) (hcurrent : object.current = ⟨.inactive, true⟩)

theorem Relies.refl (w : World) : Relies w w := ⟨id, id, id, id⟩

theorem Relies.trans {w₁ w₂ w₃ : World} (h : Relies w₁ w₂) (h' : Relies w₂ w₃) : Relies w₁ w₃ :=
  ⟨h'.key ∘ h.key, h'.inlinePolicy ∘ h.inlinePolicy, h'.iamUser ∘ h.iamUser,
    h'.revocationCommitted ∘ h.revocationCommitted⟩

theorem Deleted.rely {w w' : World} (h : Deleted w) (hrely : Relies w w') : Deleted w' :=
  ⟨hrely.key h.key, hrely.inlinePolicy h.inlinePolicy, hrely.iamUser h.iamUser⟩

def rules : Rules Op World Session where
  rely := Relies
  inv := OneWay
  allowed op w s := op.current w s = true
  require
    | .commit, w, s => ∀ object, s.object = some object → Writable w s object
    | .putBucketPolicy true, _, s => s.read.Open
    | _, _, _ => True
  rely_refl := Relies.refl
  rely_trans := Relies.trans

/-! ## What the operations change -/

theorem OneWay.not_committed {w : World} (h : OneWay w) (hopen : w.row.Open) :
    w.revocationCommitted = false := by
  cases hcommitted : w.revocationCommitted with
  | false => rfl
  | true =>
    rcases h.pending hcommitted with hpending | hrevoked
    · exact absurd hpending hopen.1
    · rw [hopen.2] at hrevoked
      cases hrevoked

/-- A commit that leaves the row as it is. -/
theorem OneWay.of_row_eq {w : World} (h : OneWay w) {s : Session} (hrow : (w.committed s).row = w.row)
    (hcommitted : (w.committed s).revocationCommitted = w.revocationCommitted) :
    OneWay (w.committed s) := by
  have hrest : (w.committed s).exempted = w.exempted ∧ (w.committed s).key = w.key ∧
      (w.committed s).inlinePolicy = w.inlinePolicy ∧ (w.committed s).iamUser = w.iamUser := by
    unfold World.committed
    split <;> exact ⟨rfl, rfl, rfl, rfl⟩
  obtain ⟨hexempted, hkey, hinline, huser⟩ := hrest
  refine ⟨?_, ?_, ?_⟩
  · rw [hrow, hcommitted]
    exact h.pending
  · rw [hexempted, hcommitted]
    exact h.denied
  · rw [hrow]
    intro hrevoked
    obtain ⟨hstatus, hdeleted⟩ := h.revoked hrevoked
    exact ⟨hstatus, hkey.trans hdeleted.key, hinline.trans hdeleted.inlinePolicy, huser.trans hdeleted.iamUser⟩

/-- A commit of a new status, by what it makes of the row. -/
theorem oneWay_of_written {w : World} {s : Session} {object : Loaded}
    (hobject : s.object = some object) {row : Credential} (hrow : object.written w.row = row)
    {committed : Bool} (hcommitted : (w.revocationCommitted ||
      (object.changes && object.current.status = .revocationPending)) = committed)
    (hpending : committed = true → row.status = .revocationPending ∨ row.revokedAt = true)
    (hdenied : committed = true → w.exempted = false)
    (hrevoked : row.revokedAt = true → row.status = .inactive ∧ Deleted w) :
    OneWay (w.committed s) := by
  have heq : w.committed s = { w with row := row, revocationCommitted := committed } := by
    rw [← hrow, ← hcommitted]
    simp [World.committed, hobject]
  rw [heq]
  refine ⟨hpending, hdenied, fun hr => ?_⟩
  obtain ⟨hstatus, hdeleted⟩ := hrevoked hr
  exact ⟨hstatus, hdeleted.key, hdeleted.inlinePolicy, hdeleted.iamUser⟩

/-- The row a changed status is written to. -/
theorem written_of_changes {object : Loaded} (hne : object.current.status ≠ object.base.status)
    (row : Credential) : object.written row =
      ⟨object.current.status, pick object.base.revokedAt object.current.revokedAt row.revokedAt⟩ := by
  rw [Loaded.written, pick, if_neg hne]

theorem oneWay_committed {w : World} {s : Session} (h : OneWay w)
    (hwritable : ∀ object, s.object = some object → Writable w s object)
    (hcurrent : s.object.all (w.unchangedSince s) = true) : OneWay (w.committed s) := by
  cases hobject : s.object with
  | none => exact h.of_row_eq (by simp [World.committed, hobject]) (by simp [World.committed, hobject])
  | some object =>
    rw [hobject, Option.all_some] at hcurrent
    have hcommitted : w.committed s = { w with
        row := object.written w.row
        revocationCommitted := w.revocationCommitted ||
          (object.changes && object.current.status = .revocationPending) } := by
      simp [World.committed, hobject]
    cases hchanges : object.changes with
    | false =>
      have hstatus : object.current.status = object.base.status := by simpa [Loaded.changes] using hchanges
      refine h.of_row_eq ?_ (by rw [hcommitted]; simp [hchanges])
      have hrevoked : object.current.revokedAt = object.base.revokedAt := by
        cases hwritable object hobject with
        | unchanged heq => rw [heq]
        | toggle _ heq _ => exact heq
        | start _ heq _ _ => exact heq
        | finish hbase hcurrent _ =>
          rw [hbase, hcurrent] at hstatus
          cases hstatus
        | again hbase hcurrent => rw [hbase, hcurrent]
      rw [hcommitted]
      simp [Loaded.written, pick, hstatus, hrevoked]
    | true =>
      have hne : object.current.status ≠ object.base.status := by simpa [Loaded.changes] using hchanges
      simp only [World.unchangedSince, hchanges, Bool.not_true, Bool.false_or, Bool.and_eq_true,
        Bool.or_eq_true, decide_eq_true_eq] at hcurrent
      obtain ⟨hrow, hput⟩ := hcurrent
      cases hwritable object hobject with
      | unchanged heq => exact absurd (congrArg Credential.status heq) hne
      | toggle hopen hrevoked hstatus =>
        have hwritten : object.written w.row = ⟨object.current.status, w.row.revokedAt⟩ := by
          rw [written_of_changes hne, pick, if_pos hrevoked]
        have hsame : (w.revocationCommitted || (object.changes &&
            object.current.status = .revocationPending)) = w.revocationCommitted := by
          simp [hstatus]
        rcases hrow with hrow | hrow
        · have hnot := h.not_committed (hrow ▸ hopen)
          refine oneWay_of_written hobject hwritten (hsame.trans hnot) nofun nofun ?_
          intro hr
          rw [hrow, hopen.2] at hr
          cases hr
        · have hkept : object.written w.row = w.row := by rw [hwritten, ← hrow]
          exact oneWay_of_written hobject hkept hsame h.pending h.denied h.revoked
      | start hopen hrevoked hstatus hput' =>
        have hwritten : object.written w.row = ⟨.revocationPending, w.row.revokedAt⟩ := by
          rw [written_of_changes hne, pick, if_pos hrevoked, hstatus]
        have hdenied : w.exempted = false := by simpa [hput'] using hput.symm
        have hcommitted : (w.revocationCommitted || (object.changes &&
            object.current.status = .revocationPending)) = true := by
          simp [hchanges, hstatus]
        refine oneWay_of_written hobject hwritten hcommitted (fun _ => .inl rfl) (fun _ => hdenied) ?_
        intro hr
        have hinactive := (h.revoked hr).1
        rcases hrow with hrow | hrow
        · rw [hrow, hopen.2] at hr
          cases hr
        · rw [hrow, hstatus] at hinactive
          cases hinactive
      | finish hbase hcurrent hdeleted =>
        have hwritten : object.written w.row = ⟨.inactive, true⟩ := by
          rw [written_of_changes hne, pick, hbase, hcurrent, if_neg (by decide)]
        have hcommitted : (w.revocationCommitted || (object.changes &&
            object.current.status = .revocationPending)) = w.revocationCommitted := by
          simp [hcurrent]
        exact oneWay_of_written hobject hwritten hcommitted (fun _ => .inr rfl) h.denied
          fun _ => ⟨rfl, hdeleted⟩
      | again hbase hcurrent =>
        rw [hbase, hcurrent] at hne
        exact absurd rfl hne

theorem faulty_fst {α : Type} {P : World → Prop} {before after : World × Session}
    (hbefore : P before.1) (hafter : P after.1) (fault : Fault) (a : α) :
    P (faulty fault before after a).1 := by
  cases fault with
  | none => exact hafter
  | before => exact hbefore
  | after => exact hafter

theorem relies_committed (w : World) (s : Session) : Relies w (w.committed s) := by
  unfold World.committed
  split
  · exact Relies.refl w
  · exact ⟨id, id, id, fun h => by simp [h]⟩

theorem relies_exec (op : Op) (fault : Fault) (w : World) (s : Session) :
    Relies w (exec op fault w s).1 := by
  have hrefl := Relies.refl w
  cases op with
  | findExternalCredential =>
    simp only [exec]
    split <;> exact faulty_fst hrefl hrefl fault _
  | refresh | assign | flush | rollback | getBucketPolicy | queryPrincipals =>
    exact faulty_fst hrefl hrefl fault _
  | commit => exact faulty_fst hrefl (relies_committed w s) fault ()
  | updateAccessKeyStatus status =>
    simp only [exec]
    split
    · rename_i hkey
      refine faulty_fst hrefl ⟨fun hnone => ?_, id, id, id⟩ fault ()
      rw [hnone] at hkey
      cases hkey
    · exact hrefl
  | deleteAccessKey => exact faulty_fst hrefl ⟨fun _ => rfl, id, id, id⟩ fault ()
  | deleteUserInlinePolicy => exact faulty_fst hrefl ⟨id, fun _ => rfl, id, id⟩ fault ()
  | deleteUser =>
    simp only [exec]
    split
    · exact hrefl
    · exact faulty_fst hrefl ⟨id, id, fun _ => rfl, id⟩ fault ()
  | putBucketPolicy exempted => exact faulty_fst hrefl ⟨id, id, id, id⟩ fault ()

/-- A change of the remote side keeps the invariant. -/
theorem OneWay.of_rely {w w' : World} (h : OneWay w) (hrow : w'.row = w.row)
    (hexempted : w'.exempted = w.exempted) (hcommitted : w'.revocationCommitted = w.revocationCommitted)
    (hrely : Relies w w') : OneWay w' := by
  refine ⟨?_, ?_, ?_⟩
  · rw [hrow, hcommitted]
    exact h.pending
  · rw [hexempted, hcommitted]
    exact h.denied
  · rw [hrow]
    exact fun hrevoked => ⟨(h.revoked hrevoked).1, (h.revoked hrevoked).2.rely hrely⟩

theorem oneWay_exec {op : Op} {w : World} {s : Session} (h : OneWay w)
    (hrequire : rules.require op w s) (hallowed : op.current w s = true) (fault : Fault) :
    OneWay (exec op fault w s).1 := by
  have hrely := relies_exec op fault w s
  cases op with
  | findExternalCredential =>
    simp only [exec]
    split <;> exact faulty_fst h h fault _
  | refresh | assign | flush | rollback | getBucketPolicy | queryPrincipals =>
    exact faulty_fst h h fault _
  | commit => exact faulty_fst h (oneWay_committed h hrequire hallowed) fault ()
  | updateAccessKeyStatus status =>
    simp only [exec]
    split
    · rename_i hkey
      refine faulty_fst h (h.of_rely rfl rfl rfl ⟨fun hnone => ?_, id, id, id⟩) fault ()
      rw [hnone] at hkey
      cases hkey
    · exact h
  | deleteAccessKey => exact faulty_fst h (h.of_rely rfl rfl rfl ⟨fun _ => rfl, id, id, id⟩) fault ()
  | deleteUserInlinePolicy =>
    exact faulty_fst h (h.of_rely rfl rfl rfl ⟨id, fun _ => rfl, id, id⟩) fault ()
  | deleteUser =>
    simp only [exec]
    split
    · exact h
    · exact faulty_fst h (h.of_rely rfl rfl rfl ⟨id, id, fun _ => rfl, id⟩) fault ()
  | putBucketPolicy exempted =>
    refine faulty_fst h ⟨h.pending, fun hcommitted => ?_, fun hrevoked => ?_⟩ fault ()
    · cases exempted with
      | false => rfl
      | true =>
        have hrow : w.row = s.read := by simpa [Op.current] using hallowed
        have hnot := h.not_committed (hrow ▸ hrequire)
        rw [hnot] at hcommitted
        cases hcommitted
    · obtain ⟨hstatus, hdeleted⟩ := h.revoked hrevoked
      exact ⟨hstatus, hdeleted.key, hdeleted.inlinePolicy, hdeleted.iamUser⟩

/-! ## The sessions -/

/-- The program runs to `Q` if it returns. -/
abbrev Returns {α : Type} (p : Service α) (Q : α → World → Session → Prop) (w : World) (s : Session) :
    Prop :=
  wp system.toMachine rules p Q (fun _ _ _ => True) w s

/-- An operation whose requirement holds where `A` does. -/
theorem returns_perform {op : Op} {A : World → Session → Prop} {Q : Reply op → World → Session → Prop}
    {w : World} {s : Session} (hA : A w s) (hstable : Stable rules A)
    (hrequire : ∀ w s, A w s → OneWay w → rules.require op w s)
    (hQ : ∀ fault w s a, A w s → OneWay w → op.current w s = true →
      (exec op fault w s).2.2 = .ok a → Q a (exec op fault w s).1 (exec op fault w s).2.1) :
    Returns (Prog.perform op) Q w s := by
  refine wp_perform hA hstable fun w s hA hinv => ?_
  have hr := hrequire w s hA hinv
  refine step_of_exec hr (oneWay_exec hinv hr) ?_ fun _ _ _ _ => trivial
  exact fun hallowed fault a hok => hQ fault w s a hA hinv hallowed hok

theorem Returns.bind {α β : Type} {p : Service α} {f : α → Service β} {Q : α → World → Session → Prop}
    {Q' : β → World → Session → Prop} {w : World} {s : Session} (hp : Returns p Q w s)
    (hf : ∀ a w s, Q a w s → Returns (f a) Q' w s) : Returns (p >>= f) Q' w s :=
  wp_bind (wp_mono hp hf fun _ _ _ h => h)

theorem faulty_ok {α : Type} {before after : World × Session} {a b : α} {fault : Fault}
    (h : (faulty fault before after a).2.2 = .ok b) : fault = .none ∧ a = b := by
  cases fault with
  | none => exact ⟨rfl, Except.ok.inj h⟩
  | before => cases h
  | after => cases h

/-- The operation calls a remote side and leaves the session alone. -/
def Op.remote : Op → Bool
  | .updateAccessKeyStatus _ | .deleteAccessKey | .deleteUserInlinePolicy | .deleteUser | .getBucketPolicy => true
  | _ => false

theorem require_of_remote {op : Op} (h : op.remote = true) (w : World) (s : Session) :
    rules.require op w s := by
  cases op with
  | updateAccessKeyStatus | deleteAccessKey | deleteUserInlinePolicy | deleteUser | getBucketPolicy =>
    trivial
  | _ => cases h

theorem session_of_remote {op : Op} (h : op.remote = true) (fault : Fault) (w : World) (s : Session) :
    (exec op fault w s).2.1 = s := by
  have hfaulty {w' : World} : (faulty fault (w, s) (w', s) ()).2.1 = s := by
    cases fault <;> rfl
  cases op with
  | deleteAccessKey | deleteUserInlinePolicy | getBucketPolicy => exact hfaulty
  | updateAccessKeyStatus | deleteUser =>
    simp only [exec]
    split
    · first
      | exact hfaulty
      | rfl
    · first
      | exact hfaulty
      | rfl
  | _ => cases h

/-- A remote call keeps what the environment keeps. -/
theorem keeps_remote {op : Op} {A : World → Session → Prop} (h : op.remote = true)
    (hstable : Stable rules A) : Keeps system.toMachine rules A _ (Prog.perform op : Service _) := by
  refine keeps_perform hstable fun w s hA hinv => ?_
  have hrequire := require_of_remote h w s
  refine ⟨hrequire, fun hallowed fault => ?_⟩
  have hinv' := oneWay_exec hinv hrequire hallowed fault
  refine ⟨hinv', ?_⟩
  show A _ (exec op fault w s).2.1
  rw [session_of_remote h fault w s]
  exact hstable w _ s hA (relies_exec op fault w s) hinv'

theorem Returns.of_keeps {α : Type} {p : Service α} {A : World → Session → Prop} {w : World} {s : Session}
    (hp : Keeps system.toMachine rules A α p) (h : A w s) : Returns p (fun _ => A) w s :=
  wp_mono (hp w s h) (fun _ _ _ h => h) fun _ _ _ _ => trivial

theorem returns_fails {p : Service Unit} {Q : World → Session → Prop} {w : World} {s : Session}
    (h : Returns p (fun _ => Q) w s) : Returns p.fails (fun failed w s => failed = false → Q w s) w s := by
  refine wp_fails (wp_mono h ?_ ?_)
  · exact fun _ _ _ h _ => h
  · exact fun _ _ _ _ hfailed => nomatch hfailed

/-- What a session holds: an object, which may be flushed, over a row that was open when it was read. -/
structure At (object : Option Loaded) (flushed : Bool) (_ : World) (s : Session) : Prop where
  held : s.object = object
  written : s.flushed = flushed
  base : ∀ loaded, object = some loaded →
    loaded.base.Open ∧ loaded.current.revokedAt = loaded.base.revokedAt
  read : object.any Loaded.changes = true → s.read.Open

theorem At.stable {object : Option Loaded} {flushed : Bool} : Stable rules (At object flushed) :=
  fun _ _ _ h _ _ => ⟨h.held, h.written, h.base, h.read⟩

/-- A session that puts an exemption may rely on the row it read for it. -/
def Exempting (object : Option Loaded) (exempted : Bool) (s : Session) : Prop :=
  exempted = true → s.read.Open ∧
    ∀ loaded, object = some loaded → loaded.current.status ≠ .revocationPending

theorem open_of_principal {archived : Bool} {row : Credential} (h : World.principal archived row = true) :
    row.status = .active ∧ row.revokedAt = false := by
  simp only [World.principal, Bool.and_eq_true, decide_eq_true_eq, Bool.not_eq_true'] at h
  exact ⟨h.1.2, h.2⟩

theorem view_of_unchanged {object : Option Loaded} {flushed : Bool} {w : World} {s : Session}
    (h : At object flushed w s) (hchanges : (s.flushed && s.object.any Loaded.changes) = false) :
    w.view s = w.row := by
  unfold World.view
  split
  · rename_i loaded hobject hflushed
    rw [hflushed, hobject, Bool.true_and, Option.any_some] at hchanges
    obtain ⟨-, hrevoked⟩ := h.base loaded (by rw [← h.held, hobject])
    have hstatus : loaded.current.status = loaded.base.status := by
      simpa [Loaded.changes] using hchanges
    rw [Loaded.written, pick, pick, if_pos hstatus, if_pos hrevoked]
  · rfl

/-- The query for the principals, before the put that uses it. -/
theorem returns_queryPrincipals {object : Option Loaded} {flushed : Bool} {w : World} {s : Session}
    (hflushed : object.isSome = flushed) (h : At object flushed w s) :
    Returns (Prog.perform Op.queryPrincipals)
      (fun exempted w s => At object flushed w s ∧ Exempting object exempted s) w s := by
  refine returns_perform h At.stable (fun _ _ _ _ => trivial) ?_
  intro fault w s exempted h hinv hallowed hok
  obtain ⟨rfl, hexempted⟩ := faulty_ok hok
  cases hchanges : s.flushed && s.object.any Loaded.changes with
  | true =>
    simp only [exec, faulty, hchanges, if_true]
    rw [Bool.and_eq_true] at hchanges
    have hread := h.read (h.held ▸ hchanges.2)
    refine ⟨⟨h.held, h.written, h.base, fun _ => hread⟩, fun htrue => ⟨hread, ?_⟩⟩
    intro loaded hloaded hpending
    have hview : (w.view s).status = .active := (open_of_principal (hexempted.trans htrue)).1
    have hne : loaded.current.status ≠ loaded.base.status := by
      have hany := hchanges.2
      rw [h.held, hloaded, Option.any_some] at hany
      simpa [Loaded.changes] using hany
    rw [World.view, h.held, hloaded, hchanges.1] at hview
    simp only [written_of_changes hne, hpending] at hview
    cases hview
  | false =>
    simp only [exec, faulty, hchanges, Bool.false_eq_true, if_false]
    have hunchanged : object.any Loaded.changes = false := by
      cases object with
      | none => rfl
      | some loaded =>
        rw [h.written, ← hflushed, h.held] at hchanges
        simpa using hchanges
    refine ⟨⟨h.held, h.written, h.base, fun hany => ?_⟩, fun htrue => ?_⟩
    · rw [hunchanged] at hany
      cases hany
    · obtain ⟨hactive, hrevoked⟩ := open_of_principal (hexempted.trans htrue)
      rw [view_of_unchanged h hchanges] at hactive hrevoked
      refine ⟨⟨by rw [hactive]; simp, hrevoked⟩, fun loaded hloaded hpending => ?_⟩
      rw [hloaded, Option.any_some] at hunchanged
      have hstatus : loaded.current.status = loaded.base.status := by
        simpa [Loaded.changes] using hunchanged
      exact (h.base loaded hloaded).1.1 (hstatus ▸ hpending)

/-- The put of a session that starts a revocation denies the principal. -/
def Denying (object : Option Loaded) (s : Session) : Prop :=
  ∀ loaded, object = some loaded → loaded.current.status = .revocationPending → s.put = some false

theorem returns_putBucketPolicy {object : Option Loaded} {flushed : Bool} {exempted : Bool} {w : World}
    {s : Session} (h : At object flushed w s) (hexempting : Exempting object exempted s) :
    Returns (Prog.perform (Op.putBucketPolicy exempted))
      (fun _ w s => At object flushed w s ∧ Denying object s) w s := by
  have hstable : Stable rules fun w s => At object flushed w s ∧ Exempting object exempted s :=
    fun w w' s h hrely hinv => ⟨At.stable w w' s h.1 hrely hinv, h.2⟩
  refine returns_perform ⟨h, hexempting⟩ hstable ?_ ?_
  · intro w s h _
    cases exempted with
    | false => trivial
    | true => exact (h.2 rfl).1
  · intro fault w s _ h hinv hallowed hok
    obtain ⟨rfl, -⟩ := faulty_ok hok
    refine ⟨⟨h.1.held, h.1.written, h.1.base, h.1.read⟩, fun loaded hloaded hpending => ?_⟩
    cases exempted with
    | false => rfl
    | true => exact absurd hpending ((h.2 rfl).2 loaded hloaded)

theorem returns_syncStorageSpaceAccessProjection {object : Option Loaded} {flushed : Bool} {w : World}
    {s : Session} (hflushed : object.isSome = flushed) (h : At object flushed w s) :
    Returns syncStorageSpaceAccessProjection (fun _ w s => At object flushed w s ∧ Denying object s)
      w s := by
  have hget : Returns (Prog.perform Op.getBucketPolicy) (fun _ => At object flushed) w s :=
    .of_keeps (keeps_remote rfl At.stable) h
  refine hget.bind fun _ w s h => (returns_queryPrincipals hflushed h).bind fun exempted w s h => ?_
  exact returns_putBucketPolicy h.1 h.2

/-! ## The compensation -/

theorem returns_rollback (w : World) (s : Session) :
    Returns (Prog.perform Op.rollback) (fun _ => At none false) w s := by
  refine returns_perform (A := fun _ _ => True) trivial (fun _ _ _ _ _ _ => trivial)
    (fun _ _ _ _ => trivial) ?_
  intro fault w s _ _ _ _ hok
  obtain ⟨rfl, -⟩ := faulty_ok hok
  exact ⟨rfl, rfl, nofun, nofun⟩

/-- The compensation raises in any case, so nothing is known about where it returns. -/
theorem returns_restoreExternalAccessKeyStatus {Q : Unit → World → Session → Prop} (previous : KeyStatus)
    (remoteUpdated projected : Bool) (e : Error) (action : String) (w : World) (s : Session) :
    Returns (restoreExternalAccessKeyStatus previous remoteUpdated projected e action) Q w s := by
  refine (returns_fails (returns_rollback w s)).bind fun rollbackFailed w s h => ?_
  have hstable : Stable rules fun w s => rollbackFailed = false → At none false w s :=
    fun w w' s h hrely hinv hok => At.stable w w' s (h hok) hrely hinv
  have hremote : Keeps system.toMachine rules (fun w s => rollbackFailed = false → At none false w s) _
      (Prog.failsWhen remoteUpdated (Prog.perform (Op.updateAccessKeyStatus previous))) := by
    exact (keeps_composes _).failsWhen fun _ => keeps_remote rfl hstable
  refine (Returns.of_keeps hremote h).bind fun remoteFailed w s h => ?_
  have hprojection : Returns (Prog.failsWhen (projected && !rollbackFailed) syncStorageSpaceAccessProjection)
      (fun _ _ _ => True) w s := by
    unfold Prog.failsWhen
    split
    · rename_i hprojected
      rw [Bool.and_eq_true, Bool.not_eq_true'] at hprojected
      have hsync := returns_syncStorageSpaceAccessProjection rfl (h hprojected.2)
      exact wp_mono (returns_fails hsync) (fun _ _ _ _ => trivial) fun _ _ _ h => h
    · trivial
  refine hprojection.bind fun projectionFailed w s _ => ?_
  cases rollbackFailed || remoteFailed || projectionFailed <;> trivial

/-- A step whose failure is compensated. -/
theorem returns_restoring {p : Service Unit} {Q : World → Session → Prop} {previous : KeyStatus}
    {remoteUpdated projected : Bool} {action : String} {w : World} {s : Session}
    (h : Returns p (fun _ => Q) w s) :
    Returns (p.tryCatch fun e =>
      restoreExternalAccessKeyStatus previous remoteUpdated projected e action) (fun _ => Q) w s :=
  wp_tryCatch (wp_mono h (fun _ _ _ h => h) fun e w s _ =>
    returns_restoreExternalAccessKeyStatus previous remoteUpdated projected e action w s)

/-! ## The operations -/

/-- The session has just read the row. -/
structure Fresh (row : Credential) (_ : World) (s : Session) : Prop where
  held : s.object = some ⟨row, row⟩
  written : s.flushed = false
  read : s.read = row

theorem Fresh.stable {row : Credential} : Stable rules (Fresh row) :=
  fun _ _ _ h _ _ => ⟨h.held, h.written, h.read⟩

/-- The object of a status change. -/
def statusChange (row : Credential) (status : CredentialStatus) : Loaded :=
  ⟨row, { row with status := status }⟩

theorem returns_assign_flush {row : Credential} (hopen : row.Open) (status : CredentialStatus) {w : World}
    {s : Session} (h : Fresh row w s) :
    Returns (do
      Prog.perform (Op.assign fun row => { row with status := status })
      Prog.perform Op.flush) (fun _ => At (some (statusChange row status)) true) w s := by
  have hassign : Returns (Prog.perform (Op.assign fun row => { row with status := status }))
      (fun _ => At (some (statusChange row status)) false) w s := by
    refine returns_perform h Fresh.stable (fun _ _ _ _ => trivial) ?_
    intro fault w s _ h _ _ hok
    obtain ⟨rfl, -⟩ := faulty_ok hok
    refine ⟨?_, h.written, ?_, fun _ => ?_⟩
    · simp [exec, faulty, h.held, statusChange]
    · rintro loaded hloaded
      cases hloaded
      exact ⟨hopen, rfl⟩
    · simp only [exec, faulty, h.held, Option.isSome_some, if_true, h.read]
      exact hopen
  refine hassign.bind fun _ w s h => ?_
  refine returns_perform h At.stable (fun _ _ _ _ => trivial) ?_
  intro fault w s _ h _ _ hok
  obtain ⟨rfl, -⟩ := faulty_ok hok
  exact ⟨h.held, rfl, h.base, h.read⟩

/-- The commit of a status change, after the put of the bucket policy. -/
theorem returns_commit {row : Credential} (hopen : row.Open) (status : CredentialStatus) {w : World}
    {s : Session} (h : At (some (statusChange row status)) true w s)
    (hdenying : Denying (some (statusChange row status)) s) :
    Returns (Prog.perform Op.commit)
      (fun _ w _ => status = .revocationPending → w.revocationCommitted = true) w s := by
  have hstable : Stable rules fun w s => At (some (statusChange row status)) true w s ∧
      Denying (some (statusChange row status)) s :=
    fun w w' s h hrely hinv => ⟨At.stable w w' s h.1 hrely hinv, h.2⟩
  refine returns_perform ⟨h, hdenying⟩ hstable ?_ ?_
  · intro w s h _ object hobject
    obtain rfl : statusChange row status = object := Option.some.inj (h.1.held.symm.trans hobject)
    by_cases hpending : status = .revocationPending
    · exact .start hopen rfl hpending (h.2 _ rfl hpending)
    · exact .toggle hopen rfl hpending
  · intro fault w s _ h _ _ hok hpending
    obtain ⟨rfl, -⟩ := faulty_ok hok
    show (w.committed s).revocationCommitted = true
    simp [World.committed, h.1.held, statusChange, Loaded.changes, hpending, Ne.symm hopen.1]

/-- A status change of an open credential; where it returns, a revocation is committed. -/
theorem returns_persistExternalAccessKeyStatus {row : Credential} (hopen : row.Open)
    (previous remoteStatus : KeyStatus) (status : CredentialStatus) (action : String) {w : World}
    {s : Session} (h : Fresh row w s) :
    Returns (persistExternalAccessKeyStatus previous remoteStatus status action)
      (fun _ w _ => status = .revocationPending → w.revocationCommitted = true) w s := by
  have hremote : Returns (Prog.when (previous ≠ remoteStatus)
      ((Prog.perform (Op.updateAccessKeyStatus remoteStatus)).tryCatch fun e =>
        restoreExternalAccessKeyStatus previous false false e action)) (fun _ => Fresh row) w s := by
    unfold Prog.when
    cases decide (previous ≠ remoteStatus) with
    | true => exact returns_restoring (.of_keeps (keeps_remote rfl Fresh.stable) h)
    | false => exact h
  refine hremote.bind fun _ w s h => ?_
  refine Returns.bind (returns_restoring (returns_assign_flush hopen status h)) fun _ w s h => ?_
  refine returns_restoring ?_
  exact (returns_syncStorageSpaceAccessProjection rfl h).bind fun _ w s h => returns_commit hopen status h.1 h.2

/-- A step of the cleanup: its failure is remembered. -/
theorem returns_cleanupStep {p : Service Unit} {A : World → Session → Prop} {B : World → Prop} {w : World}
    {s : Session} (hA : A w s) (hkeeps : Keeps system.toMachine rules A Unit p)
    (hB : Returns p (fun _ w _ => B w) w s) :
    Returns p.fails (fun failed w s => A w s ∧ (failed = false → B w)) w s := by
  refine wp_fails (wp_mono (wp_and (hkeeps w s hA) hB) ?_ ?_)
  · exact fun _ _ _ h => ⟨h.1, fun _ => h.2⟩
  · exact fun _ _ _ h => ⟨h.1, nofun⟩

/-- What a remote call brings about when it returns. -/
theorem returns_remote {op : Op} {B : World → Prop} (h : op.remote = true)
    (hB : ∀ fault w s a, (exec op fault w s).2.2 = .ok a → B (exec op fault w s).1) (w : World)
    (s : Session) : Returns (Prog.perform op) (fun _ w _ => B w) w s :=
  returns_perform (A := fun _ _ => True) trivial (fun _ _ _ _ _ _ => trivial)
    (fun w s _ _ => require_of_remote h w s) fun fault w s a _ _ _ hok => hB fault w s a hok

/-- The session has loaded a row whose revocation was committed. -/
structure Revoking (row : Credential) (_ : World) (s : Session) : Prop where
  held : s.object = some ⟨row, row⟩
  revoking : row = ⟨.revocationPending, false⟩ ∨ row = ⟨.inactive, true⟩

theorem Revoking.stable {row : Credential} : Stable rules (Revoking row) :=
  fun _ _ _ h _ _ => ⟨h.held, h.revoking⟩

theorem returns_cleanupExternalCredentialRemote {row : Credential} {w : World} {s : Session}
    (h : Revoking row w s) : Returns cleanupExternalCredentialRemote
      (fun failed w s => Revoking row w s ∧ (failed = false → Deleted w)) w s := by
  have hkey : Returns (Prog.perform Op.deleteAccessKey) (fun _ w _ => w.key = none) w s := by
    refine returns_remote rfl (fun fault w s a hok => ?_) w s
    obtain ⟨rfl, -⟩ := faulty_ok hok
    rfl
  refine (returns_cleanupStep h (keeps_remote rfl Revoking.stable) hkey).bind fun keyFailed w s h => ?_
  have hkeyStable : Stable rules fun w s => Revoking row w s ∧ (keyFailed = false → w.key = none) :=
    fun w w' s h hrely hinv => ⟨Revoking.stable w w' s h.1 hrely hinv, fun hok => hrely.key (h.2 hok)⟩
  have hpolicy : Returns (Prog.perform Op.deleteUserInlinePolicy) (fun _ w _ => w.inlinePolicy = false)
      w s := by
    refine returns_remote rfl (fun fault w s a hok => ?_) w s
    obtain ⟨rfl, -⟩ := faulty_ok hok
    rfl
  refine (returns_cleanupStep h (keeps_remote rfl hkeyStable) hpolicy).bind fun policyFailed w s h => ?_
  have hpolicyStable : Stable rules fun w s => (Revoking row w s ∧ (keyFailed = false → w.key = none)) ∧
      (policyFailed = false → w.inlinePolicy = false) :=
    fun w w' s h hrely hinv =>
      ⟨hkeyStable w w' s h.1 hrely hinv, fun hok => hrely.inlinePolicy (h.2 hok)⟩
  have huser : Returns (Prog.perform Op.deleteUser) (fun _ w _ => w.iamUser = false) w s := by
    refine returns_remote rfl (fun fault w s a hok => ?_) w s
    simp only [exec] at hok ⊢
    split at hok
    · cases hok
    · rename_i hgone
      rw [if_neg hgone]
      obtain ⟨rfl, -⟩ := faulty_ok hok
      rfl
  refine (returns_cleanupStep h (keeps_remote rfl hpolicyStable) huser).bind fun userFailed w s h => ?_
  refine ⟨h.1.1.1, fun hok => ?_⟩
  rw [Bool.or_eq_false_iff, Bool.or_eq_false_iff] at hok
  exact ⟨h.1.1.2 hok.1.1, h.1.2 hok.1.2, h.2 hok.2⟩

theorem returns_completeRevocation {row : Credential} {w : World} {s : Session} (h : Revoking row w s) :
    Returns completeRevocation (fun _ _ _ => True) w s := by
  refine (returns_cleanupExternalCredentialRemote h).bind fun failed w s h => ?_
  cases failed with
  | true => trivial
  | false =>
    have hstable : Stable rules fun w s => Revoking row w s ∧ Deleted w :=
      fun w w' s h hrely hinv => ⟨Revoking.stable w w' s h.1 hrely hinv, h.2.rely hrely⟩
    have hassign : Returns (Prog.perform (Op.assign fun _ => ⟨.inactive, true⟩))
        (fun _ w s => s.object = some ⟨row, ⟨.inactive, true⟩⟩ ∧ Deleted w) w s := by
      refine returns_perform ⟨h.1, h.2 rfl⟩ hstable (fun _ _ _ _ => trivial) ?_
      intro fault w s _ h _ _ hok
      obtain ⟨rfl, -⟩ := faulty_ok hok
      exact ⟨by simp [exec, faulty, h.1.held], h.2⟩
    refine hassign.bind fun _ w s hassigned => ?_
    have hcommit : Returns (Prog.perform Op.commit) (fun _ _ _ => True) w s := by
      have hstable : Stable rules fun w s => s.object = some ⟨row, ⟨.inactive, true⟩⟩ ∧ Deleted w :=
        fun w w' s h hrely _ => ⟨h.1, h.2.rely hrely⟩
      refine returns_perform hassigned hstable ?_ fun _ _ _ _ _ _ _ _ => trivial
      intro w s hassigned _ object hobject
      obtain rfl := Option.some.inj (hassigned.1.symm.trans hobject)
      rcases h.1.revoking with hrow | hrow
      · exact .finish hrow rfl hassigned.2
      · exact .again hrow rfl
    refine wp_tryCatch (wp_mono hcommit (fun _ _ _ h => h) fun e w s _ => ?_)
    exact (returns_rollback w s).bind fun _ _ _ _ => trivial

theorem returns_findExternalCredential (w : World) :
    Returns (Prog.perform Op.findExternalCredential)
      (fun (external : Option Credential) w s =>
        ∀ row, external = some row → Fresh row w s ∧ row.revokedAt = false) w {} := by
  refine returns_perform (A := fun _ s => s = {}) rfl (fun _ _ _ h _ _ => h) (fun _ _ _ _ => trivial) ?_
  rintro fault w s external rfl _ _ hok row rfl
  simp only [exec] at hok ⊢
  split at hok
  · obtain ⟨-, hnone⟩ := faulty_ok hok
    cases hnone
  · rename_i hrevoked
    obtain ⟨rfl, hrow⟩ := faulty_ok hok
    cases hrow
    rw [if_neg hrevoked]
    exact ⟨⟨rfl, rfl, rfl⟩, by simpa using hrevoked⟩

/-- The row behind a refresh after the commit of a revocation. -/
theorem returns_refresh {w : World} {s : Session} (h : w.revocationCommitted = true) :
    Returns (Prog.perform Op.refresh) (fun _ w s => ∃ row, Revoking row w s) w s := by
  refine returns_perform (A := fun w _ => w.revocationCommitted = true) h
    (fun _ _ _ h hrely _ => hrely.revocationCommitted h) (fun _ _ _ _ => trivial) ?_
  intro fault w s _ h hinv _ hok
  obtain ⟨rfl, -⟩ := faulty_ok hok
  refine ⟨w.row, rfl, ?_⟩
  rcases hinv.pending h with hpending | hrevoked
  · refine .inl ?_
    cases hrevoked : w.row.revokedAt with
    | false => exact Credential.ext hpending hrevoked
    | true =>
      have hinactive := (hinv.revoked hrevoked).1
      rw [hpending] at hinactive
      cases hinactive
  · exact .inr (Credential.ext (hinv.revoked hrevoked).1 hrevoked)

theorem open_of_keyStatus {row : Credential} {status : KeyStatus} (h : row.keyStatus = some status)
    (hrevoked : row.revokedAt = false) : row.Open := by
  refine ⟨fun hpending => ?_, hrevoked⟩
  rw [Credential.keyStatus, hpending] at h
  cases h

theorem returns_service (job : Job) (w : World) : Returns job.service (fun _ _ _ => True) w {} := by
  cases job with
  | updateAccessKeyStatus active =>
    refine (returns_findExternalCredential w).bind fun external w s h => ?_
    cases external with
    | none => trivial
    | some row =>
      obtain ⟨hfresh, hrevoked⟩ := h row rfl
      cases hstatus : row.keyStatus with
      | none =>
        simp only [hstatus]
        trivial
      | some previous =>
        simp only [hstatus]
        have hopen := open_of_keyStatus hstatus hrevoked
        refine (returns_persistExternalAccessKeyStatus hopen previous _ _ _ hfresh).bind fun _ w s _ => ?_
        exact returns_perform (A := fun _ _ => True) trivial (fun _ _ _ _ _ _ => trivial)
          (fun _ _ _ _ => trivial) fun _ _ _ _ _ _ _ _ => trivial
  | deleteAccessKey =>
    refine (returns_findExternalCredential w).bind fun external w s h => ?_
    cases external with
    | none => trivial
    | some row =>
      obtain ⟨hfresh, hrevoked⟩ := h row rfl
      cases hstatus : row.keyStatus with
      | none =>
        simp only [hstatus]
        refine returns_completeRevocation ⟨hfresh.held, .inl (Credential.ext ?_ hrevoked)⟩
        cases hrow : row.status with
        | revocationPending => rfl
        | active | inactive => simp [Credential.keyStatus, hrow] at hstatus
      | some previous =>
        simp only [hstatus]
        have hopen := open_of_keyStatus hstatus hrevoked
        refine (returns_persistExternalAccessKeyStatus hopen previous _ _ _ hfresh).bind fun _ w s h => ?_
        refine (returns_refresh (h rfl)).bind fun _ w s h => ?_
        obtain ⟨row, hrevoking⟩ := h
        exact returns_completeRevocation hrevoking

/-! ## Every run -/

/-- The operation a step executes writes back nothing older than what is there. -/
def UpToDate (st : SystemState) : SystemLabel → Bool
  | .advance i _ =>
    st.threads[i]?.all fun t => t.pending.all fun op => op.current st.world t.session
  | _ => true

theorem sound : Sound system rules fun st label => UpToDate st label = true where
  event := fun {_ e} => e.elim
  start hinv _ hstart := by
    simp only [system, Option.some.injEq, Prod.mk.injEq] at hstart
    obtain ⟨rfl, rfl, rfl⟩ := hstart
    exact ⟨Relies.refl _, hinv, returns_service _ _⟩
  advance hok hthread hprog := by
    show Op.current _ _ _ = true
    simpa [UpToDate, hthread, Thread.pending, hprog] using hok
  shared _ _ hnext := by
    simp only [System.next] at hnext
    split at hnext
    · rename_i session op next hthread
      cases hnext
      exact .inr (relies_exec op _ _ session)
    · cases hnext

/-- Nothing was revoked yet, or everything that belongs to the credential is gone. -/
structure Initial (w : World) : Prop where
  revocationCommitted : w.revocationCommitted = false
  revoked : w.row.revokedAt = true → w.row.status = .inactive ∧ Deleted w

theorem Initial.oneWay {w : World} (h : Initial w) : OneWay w := by
  refine ⟨fun hcommitted => ?_, fun hcommitted => ?_, h.revoked⟩ <;>
  · rw [h.revocationCommitted] at hcommitted
    cases hcommitted

/-- A committed revocation is never undone when no session writes back what is older than the row, and
`revoked_at` is only set when the remote side is gone. -/
theorem revocation_one_way {w : World} (hinitial : Initial w) {st : SystemState}
    (h : Reachable system (fun st label => UpToDate st label = true) w st) :
    (st.world.revocationCommitted = true → st.world.row.status ≠ .active ∧ st.world.exempted = false) ∧
      (st.world.row.revokedAt = true →
        st.world.key = none ∧ st.world.inlinePolicy = false ∧ st.world.iamUser = false) := by
  have hinv := (SafeState.of_reachable sound hinitial.oneWay h).inv
  refine ⟨fun hcommitted => ⟨fun hactive => ?_, hinv.denied hcommitted⟩, fun hrevoked => ?_⟩
  · rcases hinv.pending hcommitted with hpending | hrevoked
    · rw [hactive] at hpending
      cases hpending
    · have hinactive := (hinv.revoked hrevoked).1
      rw [hactive] at hinactive
      cases hinactive
  · obtain ⟨-, hdeleted⟩ := hinv.revoked hrevoked
    exact ⟨hdeleted.key, hdeleted.inlinePolicy, hdeleted.iamUser⟩

/-- One deletion without failures. -/
def deletion : List SystemLabel := .start .deleteAccessKey :: List.replicate 14 (.advance 0 .none)

theorem initial_enabled : Initial {} := by
  refine ⟨rfl, fun hrevoked => ?_⟩
  cases hrevoked

theorem revocation_one_way_deletion : ∃ st, Reachable system
    (fun st label => UpToDate st label = true) {} st ∧ st.world.revocationCommitted = true ∧
      st.world.row.revokedAt = true ∧ st.world.row.status ≠ .active ∧ st.world.exempted = false ∧
        st.world.key = none ∧ st.world.inlinePolicy = false ∧ st.world.iamUser = false := by
  have hrun : (system.run UpToDate ⟨{}, []⟩ deletion).any (fun st =>
      st.world.revocationCommitted && st.world.row.revokedAt) = true := by
    decide +kernel
  obtain ⟨st, hst, hend⟩ := (Option.any_eq_true _ _).mp hrun
  rw [Bool.and_eq_true] at hend
  have hreachable := Reachable.init.run hst
  obtain ⟨hcommitted, hrevoked⟩ := revocation_one_way initial_enabled hreachable
  obtain ⟨hstatus, hexempted⟩ := hcommitted hend.1
  exact ⟨st, hreachable, hend.1, hend.2, hstatus, hexempted, hrevoked hend.2⟩

/-- A disabled credential. -/
def disabled : World := { row := { status := .inactive }, key := some .inactive, exempted := false }

/-- A deletion commits its first phase between the read and the write of a call that enables the key. -/
def lateEnable : List SystemLabel :=
  List.flatten [[.start (.updateAccessKeyStatus true), .advance 0 .none, .start .deleteAccessKey],
    List.replicate 7 (.advance 1 .none), List.replicate 7 (.advance 0 .none)]

/-- The committed revocation is undone, and the principal is exempted again. -/
theorem revocation_undone : ∃ st, Reachable system (fun _ _ => true = true) disabled st ∧
    st.world.revocationCommitted = true ∧ st.world.row.status = .active ∧ st.world.exempted = true := by
  have hrun : (system.run (fun _ _ => true) ⟨disabled, []⟩ lateEnable).any (fun st =>
      st.world.revocationCommitted && st.world.row.status = .active && st.world.exempted) = true := by
    decide +kernel
  obtain ⟨st, hst, hend⟩ := (Option.any_eq_true _ _).mp hrun
  simp only [Bool.and_eq_true, decide_eq_true_eq] at hend
  exact ⟨st, Reachable.init.run hst, hend.1.1, hend.1.2, hend.2⟩

end ExternalCredentials
end BucketReef

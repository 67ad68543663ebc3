import BucketReef.Effects.Transitions
import BucketReef.Scheduling.Claim
import Mathlib

/-!
# Deleting a user

`delete_user` on one `S3User`, one call of RGW or commit at a time, in the two modes that delete the
access key of the interface and the RGW user. What RGW answers is arbitrary.
-/

namespace BucketReef
namespace UserDeletion

open Transitions
open Scheduling (strip)

inductive Mode
  | accessKey | remoteUser
  deriving DecidableEq, Repr

/-- What names the user at RGW. -/
structure Target where
  rgwUserUid : ℕ
  rgwTenant : ℕ
  rgwAccessKey : Option String
  deriving DecidableEq, Repr

/-- `S3UserDeletion` -/
structure Deletion where
  mode : Mode
  rgwUserUid : ℕ
  rgwTenant : ℕ
  accessKeyId : Option String
  remoteCompleted : Bool := false
  deriving DecidableEq, Repr

inductive Phase
  | idle | context
  /-- `_load_remote_user`, before the claim or after it. -/
  | getUser (claimed : Bool) | confirmNoUser (claimed : Bool)
  | requireNoBuckets (claimed : Bool)
  | claim | deleteUser | deleteKey | checkpoint | deleteLocal
  deriving DecidableEq, Repr

/-- A call of `delete_user`, and what its inventory found. -/
structure Attempt where
  mode : Mode := .accessKey
  noBuckets : Bool := false
  deriving DecidableEq, Repr

inductive Event
  /-- With whether the checkpoint was committed before. -/
  | userDeleted (attempt : Attempt) (checkpointed : Bool)
  | keyDeleted (checkpointed : Bool)
  | localDeleted (attempt : Attempt) (confirmed : Bool)
  deriving DecidableEq, Repr

structure State where
  user : Option Target
  deletion : Option Deletion := none
  phase : Phase := .idle
  attempt : Attempt := {}
  /-- The users RGW confirmed as deleted or absent, with their tenant. -/
  confirmed : List (ℕ × ℕ) := []
  checkpointed : Bool := false
  events : List Event := []

inductive Found
  | error
  /-- A payload of somebody else. -/
  | other
  | found (keys : List (Option String))
  | missing
  deriving DecidableEq, Repr

structure Answer where
  failed : Bool := false
  /-- A failed commit took effect. -/
  effect : Bool := false
  found : Found := .found []
  /-- The strict answer `NoSuchUser`. -/
  noSuchUser : Bool := true
  bucketCount : Option ℕ := some 0
  deriving DecidableEq, Repr

def Target.accessKeyId (user : Target) : Mode → Option String
  | .accessKey => some (strip (user.rgwAccessKey.getD ""))
  | .remoteUser => none

/-- `_claim_deletion` -/
def Target.deletion (user : Target) (mode : Mode) : Deletion :=
  { mode := mode, rgwUserUid := user.rgwUserUid, rgwTenant := user.rgwTenant
    accessKeyId := user.accessKeyId mode }

/-- `_validate_pending_deletion` -/
def Deletion.valid (deletion : Deletion) (user : Target) (mode : Mode) : Bool :=
  { deletion with remoteCompleted := false } = user.deletion mode

-- Membership below is decided with these proofs.
local instance lawfulBEq_user : LawfulBEq (ℕ × ℕ) := inferInstance
local instance lawfulBEq_accessKey : LawfulBEq (Option String) := inferInstance

namespace State

def goto (s : State) (phase : Phase) : State := { s with phase := phase }

def log (s : State) (event : Event) : State := { s with events := s.events ++ [event] }

/-- An exception of a commit ends the attempt. -/
def commit (s : State) (answer : Answer) (after : State) (next : Phase) : State :=
  settle answer.failed answer.effect s after (·.goto .idle) (·.goto next)

/-- RGW confirmed that the user is gone. -/
def confirm (s : State) : State :=
  { s with confirmed := s.confirmed ++
    (s.user.map fun user => (user.rgwUserUid, user.rgwTenant)).toList }

def isConfirmed (s : State) : Bool :=
  s.user.any fun user => (user.rgwUserUid, user.rgwTenant) ∈ s.confirmed

end State

def Deletion.resume (deletion : Deletion) : Phase :=
  if deletion.remoteCompleted then .deleteLocal else .getUser true

/-- The next call of `delete_user`. -/
def advance (s : State) (answer : Answer) : Phase → Option State
  | .idle => none
  | .context =>
    s.user.map fun user =>
      if answer.failed then s.goto .idle
      else match s.deletion with
        | none => s.goto (.getUser false)
        | some deletion =>
          s.goto (if deletion.valid user s.attempt.mode then deletion.resume else .idle)
  | .getUser claimed =>
    s.user.map fun user =>
      match answer.found with
      | .error | .other => s.goto .idle
      | .missing => s.goto (.confirmNoUser claimed)
      | .found keys =>
        if claimed = false then
          s.goto (if user.rgwAccessKey ∉ keys then .idle
            else if s.attempt.mode = .remoteUser then .requireNoBuckets false else .claim)
        else match s.deletion with
          | none => s.goto .idle
          | some deletion =>
            s.goto (if deletion.mode = .remoteUser then .requireNoBuckets true
              else if some (deletion.accessKeyId.getD "") ∈ keys then .deleteKey else .checkpoint)
  | .confirmNoUser claimed =>
    some (if answer.noSuchUser then s.confirm.goto (if claimed then .checkpoint else .deleteLocal)
      else s.goto .idle)
  | .requireNoBuckets claimed =>
    some (if answer.bucketCount = some 0 then
        { s with attempt := { s.attempt with noBuckets := true } }.goto (
          if claimed then .deleteUser else .claim)
      else s.goto .idle)
  | .claim =>
    s.user.map fun user =>
      s.commit answer { s with deletion := some (user.deletion s.attempt.mode) }
        (user.deletion s.attempt.mode).resume
  | .deleteUser =>
    let called := s.log (.userDeleted s.attempt s.checkpointed)
    some (if answer.failed then called.goto .idle else called.confirm.goto .checkpoint)
  | .deleteKey =>
    some ((s.log (.keyDeleted s.checkpointed)).goto (if answer.failed then .idle else .checkpoint))
  | .checkpoint =>
    s.deletion.map fun deletion =>
      s.commit answer { s with
        checkpointed := true, deletion := some { deletion with remoteCompleted := true } } .deleteLocal
  | .deleteLocal =>
    some (s.commit answer ({ s with user := none, deletion := none }.log
      (.localDeleted s.attempt s.isConfirmed)) .idle)

inductive Label
  | delete (mode : Mode)
  /-- The next call of the attempt. -/
  | advance (answer : Answer)
  /-- The process dies. -/
  | crash
  /-- The row of the user changes between two attempts. -/
  | edit (target : Target)
  deriving DecidableEq, Repr

def step (s : State) : Label → Option State
  | .delete mode =>
    if s.phase = .idle ∧ s.user.isSome then
      some { s with phase := .context, attempt := { mode := mode } }
    else none
  | .advance answer => advance s answer s.phase
  | .crash => some (s.goto .idle)
  | .edit target =>
    if s.phase = .idle then some { s with user := s.user.map fun _ => target } else none

def State.init (user : Target) : State := { user := some user }

/-! ## What a deletion relies on -/

def Event.Proper : Event → Prop
  | .userDeleted attempt checkpointed => attempt.noBuckets = true ∧ checkpointed = false
  | .keyDeleted checkpointed => checkpointed = false
  | .localDeleted attempt confirmed => attempt.mode = .accessKey ∨ confirmed = true

/-- The deletion in progress is the one the attempt asks for, and is not checkpointed. -/
def Pending (s : State) : Prop :=
  ∃ user, s.user = some user ∧ s.deletion = some (user.deletion s.attempt.mode)

structure Rows (s : State) : Prop where
  confirmed : ∀ deletion, s.deletion = some deletion → deletion.mode = .remoteUser →
    deletion.remoteCompleted = true → (deletion.rgwUserUid, deletion.rgwTenant) ∈ s.confirmed
  checkpointed : s.checkpointed = true → s.user = none ∨
    ∃ deletion, s.deletion = some deletion ∧ deletion.remoteCompleted = true
  events : ∀ event ∈ s.events, event.Proper

def PhaseOk (s : State) : Phase → Prop
  | .idle => True
  | .context => s.user.isSome = true
  | .getUser false | .confirmNoUser false | .requireNoBuckets false | .claim =>
    s.user.isSome = true ∧ s.deletion = none
  | .getUser true | .confirmNoUser true | .requireNoBuckets true => Pending s
  | .deleteKey => Pending s ∧ s.attempt.mode = .accessKey
  | .deleteUser => Pending s ∧ s.attempt.noBuckets = true
  | .checkpoint => Pending s ∧ (s.attempt.mode = .accessKey ∨ s.isConfirmed = true)
  | .deleteLocal => s.attempt.mode = .accessKey ∨ s.isConfirmed = true

structure Inv (s : State) : Prop where
  rows : Rows s
  phase : PhaseOk s s.phase

variable {s s' after : State} {answer : Answer} {next : Phase}

theorem goto_inv (h : Rows s) (hnext : PhaseOk s next) : Inv (s.goto next) := by
  refine ⟨⟨h.confirmed, h.checkpointed, h.events⟩, ?_⟩
  show PhaseOk (s.goto next) next
  cases next with
  | getUser claimed | confirmNoUser claimed | requireNoBuckets claimed => cases claimed <;> exact hnext
  | _ => exact hnext

theorem commit_inv (h : Rows s) (hafter : Rows after) (hnext : PhaseOk after next) :
    Inv (s.commit answer after next) :=
  settle_inv (goto_inv h trivial) (goto_inv hafter trivial) (goto_inv hafter hnext)

theorem Rows.log {event : Event} (h : Rows s) (hevent : event.Proper) : Rows (s.log event) := by
  refine ⟨h.confirmed, h.checkpointed, ?_⟩
  intro e he
  rcases List.mem_append.mp he with he | he
  · exact h.events e he
  · rw [List.mem_singleton.mp he]
    exact hevent

theorem Rows.confirm (h : Rows s) : Rows s.confirm := by
  refine ⟨?_, h.checkpointed, h.events⟩
  intro deletion hdeletion hmode hdone
  exact List.mem_append_left _ (h.confirmed deletion hdeletion hmode hdone)

theorem isConfirmed_confirm (h : s.user.isSome = true) : s.confirm.isConfirmed = true := by
  obtain ⟨user, huser⟩ := Option.isSome_iff_exists.mp h
  simp [State.isConfirmed, State.confirm, huser]

theorem Pending.isSome (h : Pending s) : s.user.isSome = true := by
  obtain ⟨user, huser, -⟩ := h
  rw [huser]
  rfl

theorem checkpointed_false (h : Rows s) (hpending : Pending s) : s.checkpointed = false := by
  obtain ⟨user, huser, hdeletion⟩ := hpending
  by_contra hne
  rcases h.checkpointed (by simpa using hne) with hnone | ⟨deletion, hdeletion', hdone⟩
  · rw [huser] at hnone
    cases hnone
  · rw [hdeletion] at hdeletion'
    cases hdeletion'
    cases hdone

/-- Where a deletion that the attempt may continue resumes. -/
theorem resume_ok {user : Target} {deletion : Deletion} (h : Rows s) (huser : s.user = some user)
    (hdeletion : s.deletion = some deletion) (hvalid : deletion.valid user s.attempt.mode = true) :
    PhaseOk s deletion.resume := by
  have hsame : { deletion with remoteCompleted := false } = user.deletion s.attempt.mode :=
    of_decide_eq_true hvalid
  unfold Deletion.resume
  split
  · rename_i hdone
    show s.attempt.mode = .accessKey ∨ s.isConfirmed = true
    cases hmode : s.attempt.mode with
    | accessKey => exact .inl rfl
    | remoteUser =>
      right
      have hmem := h.confirmed deletion hdeletion
        ((congrArg Deletion.mode hsame).trans hmode) hdone
      rw [show deletion.rgwUserUid = user.rgwUserUid from congrArg Deletion.rgwUserUid hsame,
        show deletion.rgwTenant = user.rgwTenant from congrArg Deletion.rgwTenant hsame] at hmem
      simpa [State.isConfirmed, huser] using hmem
  · rename_i hopen
    refine ⟨user, huser, ?_⟩
    rw [hdeletion, ← hsame]
    cases deletion
    simp_all

theorem accessKey_of_ne {mode : Mode} (h : mode ≠ .remoteUser) : mode = .accessKey := by
  cases mode with
  | accessKey => rfl
  | remoteUser => exact absurd rfl h

/-! ## One step -/

theorem claim_inv {user : Target} (h : Rows s) (huser : s.user = some user) (hnone : s.deletion = none) :
    Inv (s.commit answer { s with deletion := some (user.deletion s.attempt.mode) }
      (user.deletion s.attempt.mode).resume) := by
  have hrows : Rows { s with deletion := some (user.deletion s.attempt.mode) } := by
    refine ⟨?_, ?_, h.events⟩
    · intro deletion hdeletion _ hdone
      cases hdeletion
      cases hdone
    · intro hcheckpointed
      refine (h.checkpointed hcheckpointed).imp_right ?_
      rintro ⟨deletion, hdeletion, -⟩
      rw [hnone] at hdeletion
      cases hdeletion
  exact commit_inv h hrows ⟨user, huser, rfl⟩

theorem checkpoint_inv {deletion : Deletion} (h : Rows s) (hdeletion : s.deletion = some deletion)
    (hok : PhaseOk s .checkpoint) :
    Inv (s.commit answer { s with
      checkpointed := true, deletion := some { deletion with remoteCompleted := true } }
      .deleteLocal) := by
  obtain ⟨⟨user, huser, hpending⟩, hconfirmed⟩ := hok
  cases hdeletion.symm.trans hpending
  refine commit_inv h ⟨?_, fun _ => .inr ⟨_, rfl, rfl⟩, h.events⟩ hconfirmed
  intro deletion hdeletion hmode _
  cases hdeletion
  rcases hconfirmed with haccessKey | hconfirmed
  · rw [show s.attempt.mode = .remoteUser from hmode] at haccessKey
    cases haccessKey
  · show (user.rgwUserUid, user.rgwTenant) ∈ s.confirmed
    simpa [State.isConfirmed, huser] using hconfirmed

theorem getUser_inv {user : Target} {claimed : Bool} (h : Rows s) (huser : s.user = some user)
    (hok : PhaseOk s (.getUser claimed)) (hs : advance s answer (.getUser claimed) = some s') :
    Inv s' := by
  obtain ⟨user', huser', rfl⟩ := Option.map_eq_some_iff.mp hs
  cases huser'.symm.trans huser
  cases answer.found with
  | error | other => exact goto_inv h trivial
  | missing =>
    refine goto_inv h ?_
    cases claimed <;> exact hok
  | found keys =>
    cases claimed with
    | false =>
      refine goto_inv h ?_
      split_ifs
      · exact hok
      · exact hok
      · trivial
    | true =>
      obtain ⟨user', huser', hdeletion⟩ := hok
      simp only [Bool.true_eq_false, if_false, hdeletion]
      have hpending : Pending s := ⟨user', huser', hdeletion⟩
      refine goto_inv h ?_
      split_ifs with hmode
      · exact hpending
      · exact ⟨hpending, accessKey_of_ne hmode⟩
      · exact ⟨hpending, .inl (accessKey_of_ne hmode)⟩

theorem advance_inv {phase : Phase} (h : Rows s) (hok : PhaseOk s phase)
    (hs : advance s answer phase = some s') : Inv s' := by
  cases phase with
  | idle => cases hs
  | context =>
    obtain ⟨user, huser, rfl⟩ := Option.map_eq_some_iff.mp hs
    split
    · exact goto_inv h trivial
    · split
      · rename_i hnone
        exact goto_inv h ⟨hok, hnone⟩
      · rename_i deletion hdeletion
        refine goto_inv h ?_
        split
        · rename_i hvalid
          exact resume_ok h huser hdeletion hvalid
        · trivial
  | getUser claimed =>
    have hsome : s.user.isSome = true := by
      cases claimed with
      | false => exact hok.1
      | true => exact Pending.isSome hok
    obtain ⟨user, huser⟩ := Option.isSome_iff_exists.mp hsome
    exact getUser_inv h huser hok hs
  | confirmNoUser claimed =>
    cases hs
    split
    · refine goto_inv h.confirm ?_
      cases claimed with
      | false => exact .inr (isConfirmed_confirm hok.1)
      | true => exact ⟨hok, .inr (isConfirmed_confirm (Pending.isSome hok))⟩
    · exact goto_inv h trivial
  | requireNoBuckets claimed =>
    cases hs
    split
    · have hrows : Rows { s with attempt := { s.attempt with noBuckets := true } } :=
        ⟨h.confirmed, h.checkpointed, h.events⟩
      refine goto_inv hrows ?_
      cases claimed with
      | false => exact hok
      | true => exact ⟨hok, rfl⟩
    · exact goto_inv h trivial
  | claim =>
    obtain ⟨user, huser, rfl⟩ := Option.map_eq_some_iff.mp hs
    exact claim_inv h huser hok.2
  | deleteUser =>
    have hproper : (Event.userDeleted s.attempt s.checkpointed).Proper :=
      ⟨hok.2, checkpointed_false h hok.1⟩
    have hrows := h.log hproper
    cases hs
    split
    · exact goto_inv hrows trivial
    · exact goto_inv hrows.confirm ⟨hok.1, .inr (isConfirmed_confirm hok.1.isSome)⟩
  | deleteKey =>
    have hproper : (Event.keyDeleted s.checkpointed).Proper := checkpointed_false h hok.1
    have hrows := h.log hproper
    cases hs
    refine goto_inv hrows ?_
    split
    · trivial
    · exact ⟨hok.1, .inl hok.2⟩
  | checkpoint =>
    obtain ⟨deletion, hdeletion, rfl⟩ := Option.map_eq_some_iff.mp hs
    exact checkpoint_inv h hdeletion hok
  | deleteLocal =>
    cases hs
    refine commit_inv h (Rows.log ⟨nofun, fun _ => .inl rfl, h.events⟩ ?_) trivial
    exact hok

theorem step_inv {label : Label} (h : Inv s) (hs : step s label = some s') : Inv s' := by
  cases label with
  | delete mode =>
    simp only [step] at hs
    split at hs
    · rename_i hfree
      cases hs
      exact ⟨⟨h.rows.confirmed, h.rows.checkpointed, h.rows.events⟩, hfree.2⟩
    · cases hs
  | advance answer => exact advance_inv h.rows h.phase hs
  | crash =>
    cases hs
    exact goto_inv h.rows trivial
  | edit target =>
    simp only [step] at hs
    split at hs
    · rename_i hidle
      cases hs
      refine ⟨⟨h.rows.confirmed, ?_, h.rows.events⟩, ?_⟩
      · intro hcheckpointed
        exact (h.rows.checkpointed hcheckpointed).imp_left fun hnone => by simp [hnone]
      · show PhaseOk _ s.phase
        rw [hidle]
        trivial
    · cases hs

theorem init_inv (user : Target) : Inv (State.init user) :=
  ⟨⟨nofun, nofun, fun _ he => absurd he List.not_mem_nil⟩, trivial⟩

end UserDeletion
end BucketReef

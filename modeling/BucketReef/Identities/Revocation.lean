import BucketReef.Identities.ServiceIdentity

/-!
# Revocation is one-way

What a call does to RGW is justified by its last `get_user`: it creates a user that was absent, and
touches one whose payload shows the key of the identity. The status of a revoked identity stays
`revocation_pending` until it is `disabled`, as long as no rotation writes over it.
-/

namespace BucketReef
namespace ServiceIdentities

open Transitions

/-- The last `get_user` found the key of the identity, and the identity is of this installation. -/
def Owned (installation : Installation) (identity : Identity) (seen : Seen) (uid : ℕ) : Prop :=
  ∃ payload, seen = some (uid, some payload) ∧ identity.owns payload = true ∧
    identity.provenance = some installation.provenance

/-- The managed user, if there is one, is absent. -/
def Absent (identity : Identity) (seen : Seen) : Prop :=
  ∀ uid, identity.rgwUid = some uid → seen = some (uid, none)

def Event.Proper (installation : Installation) : Event → Prop
  | .created uid seen => seen = some (uid, none)
  | .capped uid identity seen => Owned installation identity seen uid
  | .deleted uid identity seen => Owned installation identity seen uid
  | .disabled identity seen => identity.status ≠ .disabled → Absent identity seen

section Events

variable (installation : Installation)

def PhaseOk (s : State) : Phase → Prop
  | .revokeDelete uid => s.identity.rgwUid = some uid ∧ Owned installation s.identity s.seen uid
  | .revokeConfirm uid => s.identity.rgwUid = some uid
  | .revokeCommit => Absent s.identity s.seen
  | .recreateCommit uid key | .createRemote uid key =>
    s.seen = some (uid, none) ∧ s.identity.accessKey = some key ∧
      s.identity.provenance = some installation.provenance
  | .setCaps uid => Owned installation s.identity s.seen uid
  | _ => True

def EventsOk (s : State) : Prop := ∀ event ∈ s.events, event.Proper installation

structure Inv (s : State) : Prop where
  events : EventsOk installation s
  phase : PhaseOk installation s s.phase

variable {installation} {s after : State} {answer : Answer} {next failed : Phase}

theorem EventsOk.log {event : Event} (h : EventsOk installation s)
    (hevent : event.Proper installation) : EventsOk installation (s.log event) := by
  intro e he
  rcases List.mem_append.mp he with he | he
  · exact h e he
  · rw [List.mem_singleton.mp he]
    exact hevent

theorem goto_inv (h : EventsOk installation s) (hnext : PhaseOk installation s next) :
    Inv installation (s.goto next) := by
  refine ⟨h, ?_⟩
  show PhaseOk installation (s.goto next) next
  cases next <;> exact hnext

theorem commit_inv (h : EventsOk installation s) (hafter : EventsOk installation after)
    (hnext : PhaseOk installation after next) : Inv installation (s.commit answer after next) := by
  unfold State.commit
  split
  · split
    · exact goto_inv hafter trivial
    · exact goto_inv h trivial
  · exact goto_inv hafter hnext

theorem write_inv (h : EventsOk installation s) (hafter : EventsOk installation after)
    (hnext : PhaseOk installation after next) (hfailed : ∀ s, PhaseOk installation s failed) :
    Inv installation (s.write answer after next failed) := by
  unfold State.write
  split
  · split
    · exact goto_inv hafter (hfailed _)
    · exact goto_inv h (hfailed _)
  · exact goto_inv hafter hnext

theorem owns_created {identity : Identity} {key : ℕ} (h : identity.accessKey = some key) :
    identity.owns { keys := [key] } = true := by
  simp [Identity.owns, h]

theorem errorStatus_events (h : EventsOk installation s) : EventsOk installation s.errorStatus := by
  unfold State.errorStatus
  split <;> exact h

theorem owned_look {uid : ℕ} {payload : Payload} (hremote : s.remote uid = some payload)
    (howns : s.identity.owns payload = true)
    (hprovenance : s.identity.provenance = some installation.provenance) :
    Owned installation (s.look uid).identity (s.look uid).seen uid :=
  ⟨payload, congrArg (fun answer => some (uid, answer)) hremote, howns, hprovenance⟩

theorem look_seen_none {uid : ℕ} (hremote : s.remote uid = none) :
    (s.look uid).seen = some (uid, none) :=
  congrArg (fun answer => some (uid, answer)) hremote

theorem absent_look {uid : ℕ} (hremote : s.remote uid = none) (huid : s.identity.rgwUid = some uid) :
    Absent (s.look uid).identity (s.look uid).seen := by
  intro uid' huid'
  rw [show s.identity.rgwUid = some uid' from huid'] at huid
  cases huid
  exact look_seen_none hremote

theorem advanceRevoke_inv (h : Inv installation s) :
    Inv installation (advanceRevoke installation s answer s.phase) := by
  obtain ⟨hevents, hphase⟩ := h
  cases hp : s.phase with
  | revokeStart =>
    simp only [advanceRevoke]
    split
    · rename_i hdone
      refine commit_inv hevents (EventsOk.log hevents ?_) trivial
      intro hstatus uid huid
      simp [hstatus, Identity.unprovisioned, huid] at hdone
    · exact commit_inv hevents hevents trivial
  | revokeAdmin =>
    refine goto_inv hevents ?_
    split <;> trivial
  | revokeRead usersWrite =>
    simp only [advanceRevoke]
    split
    · exact goto_inv hevents trivial
    · rename_i uid huid
      split
      · exact goto_inv hevents trivial
      · split
        · rename_i hremote
          exact goto_inv hevents (absent_look hremote huid)
        · rename_i payload hremote
          refine goto_inv hevents ?_
          split
          · trivial
          split
          · trivial
          split
          · trivial
          · rename_i howned _ _
            push Not at howned
            exact ⟨huid, owned_look hremote (by simpa using howned.2) howned.1⟩
  | revokeDelete uid =>
    rw [hp] at hphase
    exact write_inv hevents (EventsOk.log hevents hphase.2) hphase.1 fun _ => trivial
  | revokeConfirm uid =>
    rw [hp] at hphase
    simp only [advanceRevoke]
    split
    · exact goto_inv hevents trivial
    · refine goto_inv hevents ?_
      split
      · rename_i hremote
        exact absent_look hremote hphase
      · trivial
  | revokeCommit =>
    rw [hp] at hphase
    refine commit_inv hevents ?_ trivial
    exact EventsOk.log hevents fun _ => hphase
  | revokeFailed => exact commit_inv hevents hevents trivial
  | _ =>
    refine goto_inv hevents ?_
    rw [← hp]
    exact hphase

theorem advanceReconcile_inv (h : Inv installation s) :
    Inv installation (advanceReconcile installation s answer s.phase) := by
  obtain ⟨hevents, hphase⟩ := h
  cases hp : s.phase with
  | reconcileAdmin provisionUnprovisioned =>
    refine goto_inv hevents ?_
    split <;> trivial
  | reconcileAdminFailed provisionUnprovisioned =>
    simp only [advanceReconcile]
    split
    · exact goto_inv hevents trivial
    · exact commit_inv hevents hevents trivial
  | reconcileStart usersWrite provisionUnprovisioned newKey =>
    refine goto_inv hevents ?_
    split_ifs <;> trivial
  | provisionCommit usersWrite newKey => exact commit_inv hevents hevents trivial
  | readRemote usersWrite =>
    simp only [advanceReconcile]
    split
    · exact goto_inv hevents trivial
    · rename_i hprovenance
      have hprovenance : s.identity.provenance = some installation.provenance := by
        simpa using hprovenance
      split
      · rename_i uid key huid hkey
        split
        · exact goto_inv hevents trivial
        · refine goto_inv hevents ?_
          split
          · rename_i payload hremote
            split_ifs with howns
            · trivial
            · trivial
            · exact owned_look hremote (by simpa using howns) hprovenance
            · trivial
          · rename_i hremote
            split_ifs
            · trivial
            · exact ⟨look_seen_none hremote, hkey, hprovenance⟩
      · exact goto_inv hevents trivial
  | recreateCommit uid key =>
    rw [hp] at hphase
    exact commit_inv hevents hevents hphase
  | createRemote uid key =>
    rw [hp] at hphase
    obtain ⟨hseen, hkey, hprovenance⟩ := hphase
    simp only [advanceReconcile]
    split
    · exact goto_inv hevents trivial
    · refine write_inv hevents ?_ ?_ fun _ => trivial
      · exact EventsOk.log (s := s.setRemote uid _) hevents hseen
      · split
        · trivial
        · exact ⟨_, rfl, owns_created hkey, hprovenance⟩
  | setCaps uid =>
    rw [hp] at hphase
    exact write_inv hevents (EventsOk.log hevents hphase) trivial fun _ => trivial
  | validate =>
    simp only [advanceReconcile]
    split
    · exact goto_inv hevents trivial
    · refine goto_inv hevents ?_
      split
      · trivial
      · split_ifs <;> trivial
  | readyCommit uid => exact commit_inv hevents hevents trivial
  | reconcileFailed unavailable =>
    simp only [advanceReconcile]
    split
    · exact goto_inv hevents trivial
    · refine commit_inv hevents ?_ trivial
      unfold State.errorStatus
      split <;> exact hevents
  | _ =>
    refine goto_inv hevents ?_
    rw [← hp]
    exact hphase

theorem checked_ok {intent : Intent} {payload : Option Payload} {next : Payload → Phase}
    (hnext : ∀ payload, PhaseOk installation after (next payload)) :
    PhaseOk installation after (checked s intent answer payload next) := by
  unfold checked
  split
  · trivial
  · split_ifs
    · trivial
    · exact hnext _
    · trivial

theorem advanceRotate_inv (h : Inv installation s) :
    Inv installation (advanceRotate installation s answer s.phase) := by
  obtain ⟨hevents, hphase⟩ := h
  cases hp : s.phase with
  | rotateStart | rotateAdmin =>
    refine goto_inv hevents ?_
    split_ifs <;> trivial
  | rotatePrepare =>
    simp only [advanceRotate]
    split
    · split
      · exact goto_inv hevents trivial
      · refine goto_inv hevents ?_
        split
        · trivial
        · split_ifs <;> trivial
    · exact goto_inv hevents trivial
  | prepareCommit intent => exact commit_inv hevents hevents trivial
  | rotateResume =>
    simp only [advanceRotate]
    split
    · exact goto_inv hevents trivial
    · rename_i intent _
      generalize (if intent.activated then intent.newAccessKey else intent.oldAccessKey) = expected
      split
      · exact goto_inv hevents trivial
      split
      · exact goto_inv hevents trivial
      split
      · exact goto_inv hevents trivial
      refine goto_inv hevents ?_
      split
      · trivial
      · split_ifs <;> trivial
  | createKey | deleteKey =>
    simp only [advanceRotate]
    split
    · exact goto_inv hevents trivial
    · exact write_inv hevents hevents trivial fun _ => trivial
  | checkReplacement =>
    simp only [advanceRotate]
    split
    · exact goto_inv hevents trivial
    split
    · exact goto_inv hevents trivial
    exact goto_inv hevents (checked_ok fun _ => trivial)
  | activateCommit =>
    simp only [advanceRotate]
    split
    · exact goto_inv hevents trivial
    · exact commit_inv hevents hevents trivial
  | retireRead | retireCheck =>
    simp only [advanceRotate]
    split
    · exact goto_inv hevents trivial
    split
    · exact goto_inv hevents trivial
    refine goto_inv hevents (checked_ok fun _ => ?_)
    split <;> trivial
  | completeCommit => exact commit_inv hevents hevents trivial
  | rotateFailed replacement =>
    simp only [advanceRotate]
    split
    · exact commit_inv hevents hevents trivial
    · exact goto_inv hevents trivial
  | _ =>
    refine goto_inv hevents ?_
    rw [← hp]
    exact hphase

theorem advance_inv {s' : State} (h : Inv installation s)
    (hs : advance installation s answer = some s') : Inv installation s' := by
  unfold advance at hs
  split at hs
  · cases hs
  all_goals
    cases hs
    first
    | exact advanceRevoke_inv h
    | exact advanceRotate_inv h
    | exact advanceReconcile_inv h
    | exact commit_inv h.events (errorStatus_events h.events) trivial

theorem start_inv {s' : State} {phase : Phase} (h : Inv installation s)
    (hs : start s phase = some s')
    (hphase : PhaseOk installation { s with phase := phase, seen := none } phase) : Inv installation s' := by
  unfold start at hs
  split at hs
  · cases hs
    exact ⟨h.events, hphase⟩
  · cases hs

theorem step_inv {s' : State} {label : Label} (h : Inv installation s)
    (hs : step installation s label = some s') : Inv installation s' := by
  cases label with
  | revoke | reconcile _ | rotate => exact start_inv h hs trivial
  | advance answer => exact advance_inv h hs
  | crash =>
    cases hs
    exact goto_inv h.events trivial
  | setRemote uid payload =>
    cases hs
    refine ⟨h.events, ?_⟩
    have hphase := h.phase
    show PhaseOk installation (s.setRemote uid payload) s.phase
    cases hp : s.phase <;> rw [hp] at hphase <;> exact hphase

end Events

section Statuses

/-- The phases that lead from `reconcileStart` to `ready`. -/
def Phase.ensuring : Phase → Bool
  | provisionCommit _ _ | readRemote _ | recreateCommit _ _ | createRemote _ _ | setCaps _ | validate
  | readyCommit _ => true
  | _ => false

/-- The status of a revoked identity. -/
def StatusOk (s : State) : Prop := s.revoking = true → s.identity.status = .revocationPending

structure Kept (s : State) : Prop where
  status : StatusOk s
  ensuring : s.phase.ensuring = true → s.identity.status ≠ .revocationPending

variable {installation : Installation} {s s' after : State} {answer : Answer} {next failed : Phase}

theorem statusOk_of_ne (h : StatusOk s) (hne : s.identity.status ≠ .revocationPending)
    (hafter : after.revoking = s.revoking) : StatusOk after := by
  intro hrevoking
  rw [hafter] at hrevoking
  exact absurd (h hrevoking) hne

theorem errorStatus_ok (h : StatusOk s) : StatusOk s.errorStatus := by
  unfold State.errorStatus
  split
  · exact h
  · rename_i hne
    exact statusOk_of_ne h hne rfl

theorem goto_kept (h : StatusOk s)
    (hnext : next.ensuring = true → s.identity.status ≠ .revocationPending) :
    Kept (s.goto next) :=
  ⟨h, hnext⟩

theorem goto_idle_kept (h : StatusOk s) : Kept (s.goto .idle) := goto_kept h nofun

theorem commit_kept (h : StatusOk s) (hafter : StatusOk after)
    (hnext : next.ensuring = true → after.identity.status ≠ .revocationPending) :
    Kept (s.commit answer after next) := by
  unfold State.commit
  split
  · split
    · exact goto_idle_kept hafter
    · exact goto_idle_kept h
  · exact goto_kept hafter hnext

theorem write_kept (h : StatusOk s) (hafter : StatusOk after)
    (hnext : next.ensuring = true → after.identity.status ≠ .revocationPending)
    (hfailed : failed.ensuring = false) : Kept (s.write answer after next failed) := by
  have hfailed' {p : Prop} : failed.ensuring = true → p := by simp [hfailed]
  unfold State.write
  split
  · split
    · exact goto_kept hafter hfailed'
    · exact goto_kept h hfailed'
  · exact goto_kept hafter hnext

theorem advanceRevoke_kept (h : Kept s) (hensuring : s.phase.ensuring = false) :
    Kept (advanceRevoke installation s answer s.phase) := by
  obtain ⟨hstatus, -⟩ := h
  cases hp : s.phase with
  | revokeStart =>
    simp only [advanceRevoke]
    split
    · exact commit_kept hstatus nofun nofun
    · exact commit_kept hstatus (fun _ => rfl) nofun
  | revokeAdmin =>
    refine goto_kept hstatus ?_
    split <;> nofun
  | revokeRead usersWrite =>
    simp only [advanceRevoke]
    split
    · exact goto_kept hstatus nofun
    · split
      · exact goto_kept hstatus nofun
      · split
        · exact goto_kept (s := s.look _) hstatus nofun
        · refine goto_kept (s := s.look _) hstatus ?_
          split_ifs <;> nofun
  | revokeDelete uid => exact write_kept hstatus hstatus nofun rfl
  | revokeConfirm uid =>
    simp only [advanceRevoke]
    split
    · exact goto_kept hstatus nofun
    · refine goto_kept (s := s.look _) hstatus ?_
      split <;> nofun
  | revokeCommit => exact commit_kept hstatus nofun nofun
  | revokeFailed => exact commit_kept hstatus (fun _ => rfl) nofun
  | _ =>
    refine goto_kept hstatus ?_
    rw [← hp, hensuring]
    nofun

theorem advanceReconcile_kept (h : Kept s) :
    Kept (advanceReconcile installation s answer s.phase) := by
  obtain ⟨hstatus, hensuring⟩ := h
  cases hp : s.phase with
  | reconcileAdmin provisionUnprovisioned =>
    refine goto_kept hstatus ?_
    split <;> nofun
  | reconcileAdminFailed provisionUnprovisioned =>
    simp only [advanceReconcile]
    split
    · exact goto_kept hstatus nofun
    · rename_i hskip
      have hne : s.identity.status ≠ .revocationPending := by
        intro hpending
        simp [hpending] at hskip
      exact commit_kept hstatus (statusOk_of_ne hstatus hne rfl) nofun
  | reconcileStart usersWrite provisionUnprovisioned newKey =>
    refine goto_kept hstatus ?_
    split_ifs with _ hpending
    · nofun
    · nofun
    · exact fun _ => hpending
    · nofun
    · exact fun _ => hpending
  | provisionCommit usersWrite newKey =>
    have hne := hensuring (by rw [hp]; rfl)
    exact commit_kept hstatus (statusOk_of_ne hstatus hne rfl) nofun
  | readRemote usersWrite =>
    have hne := hensuring (by rw [hp]; rfl)
    simp only [advanceReconcile]
    split
    · exact goto_kept hstatus nofun
    · split
      · split
        · exact goto_kept hstatus nofun
        · exact goto_kept (s := s.look _) hstatus fun _ => hne
      · exact goto_kept hstatus nofun
  | recreateCommit uid key =>
    have hne := hensuring (by rw [hp]; rfl)
    exact commit_kept hstatus (statusOk_of_ne hstatus hne rfl) nofun
  | createRemote uid key =>
    have hne := hensuring (by rw [hp]; rfl)
    simp only [advanceReconcile]
    split
    · exact goto_kept hstatus nofun
    · exact write_kept hstatus hstatus (fun _ => hne) rfl
  | setCaps uid =>
    have hne := hensuring (by rw [hp]; rfl)
    exact write_kept hstatus hstatus (fun _ => hne) rfl
  | validate =>
    have hne := hensuring (by rw [hp]; rfl)
    simp only [advanceReconcile]
    split
    · exact goto_kept hstatus nofun
    · exact goto_kept hstatus fun _ => hne
  | readyCommit uid =>
    have hne := hensuring (by rw [hp]; rfl)
    exact commit_kept hstatus (statusOk_of_ne hstatus hne rfl) nofun
  | reconcileFailed unavailable =>
    simp only [advanceReconcile]
    split
    · exact goto_kept hstatus nofun
    · exact commit_kept hstatus (errorStatus_ok hstatus) nofun
  | _ =>
    refine goto_kept hstatus fun hnext => hensuring ?_
    rw [hp]
    exact hnext

theorem checked_not_ensuring {intent : Intent} {payload : Option Payload} {next : Payload → Phase}
    (hnext : ∀ payload, (next payload).ensuring = false) :
    (checked s intent answer payload next).ensuring = false := by
  unfold checked
  split
  · rfl
  · split_ifs
    · rfl
    · exact hnext _
    · rfl

theorem advanceRotate_kept (h : Kept s) (hensuring : s.phase.ensuring = false)
    (hkeeps : keepsRevocation s (.advance answer) = true) :
    Kept (advanceRotate installation s answer s.phase) := by
  obtain ⟨hstatus, -⟩ := h
  unfold keepsRevocation at hkeeps
  cases hp : s.phase with
  | rotateStart | rotateAdmin =>
    refine goto_kept hstatus ?_
    split_ifs <;> nofun
  | rotatePrepare =>
    simp only [advanceRotate]
    split
    · split
      · exact goto_kept hstatus nofun
      · refine goto_kept (s := s.look _) hstatus ?_
        split
        · nofun
        · split_ifs <;> nofun
    · exact goto_kept hstatus nofun
  | prepareCommit intent => exact commit_kept hstatus hstatus nofun
  | rotateResume =>
    simp only [advanceRotate]
    split
    · exact goto_kept hstatus nofun
    · rename_i intent _
      generalize (if intent.activated then intent.newAccessKey else intent.oldAccessKey) = expected
      split
      · exact goto_kept hstatus nofun
      split
      · exact goto_kept hstatus nofun
      split
      · exact goto_kept hstatus nofun
      refine goto_kept (s := s.look _) hstatus ?_
      split
      · nofun
      · split_ifs <;> nofun
  | createKey | deleteKey =>
    simp only [advanceRotate]
    split
    · exact goto_kept hstatus nofun
    · exact write_kept hstatus hstatus nofun rfl
  | checkReplacement =>
    simp only [advanceRotate]
    split
    · exact goto_kept hstatus nofun
    split
    · exact goto_kept hstatus nofun
    refine goto_kept (s := s.look _) hstatus ?_
    rw [checked_not_ensuring fun _ => rfl]
    nofun
  | activateCommit =>
    simp only [advanceRotate]
    split
    · exact goto_kept hstatus nofun
    · exact commit_kept hstatus hstatus nofun
  | retireRead | retireCheck =>
    simp only [advanceRotate]
    split
    · exact goto_kept hstatus nofun
    split
    · exact goto_kept hstatus nofun
    refine goto_kept (s := s.look _) hstatus ?_
    rw [checked_not_ensuring]
    · nofun
    · intro payload
      split <;> rfl
  | completeCommit =>
    rw [hp] at hkeeps
    exact commit_kept hstatus (statusOk_of_ne hstatus (of_decide_eq_true hkeeps) rfl) nofun
  | rotateFailed replacement =>
    rw [hp] at hkeeps
    simp only [advanceRotate]
    split
    · rename_i hreplacement
      rw [hreplacement] at hkeeps
      exact commit_kept hstatus (statusOk_of_ne hstatus (of_decide_eq_true hkeeps) rfl) nofun
    · exact goto_kept hstatus nofun
  | _ =>
    refine goto_kept hstatus ?_
    rw [← hp, hensuring]
    nofun

theorem advance_kept (h : Kept s) (hkeeps : keepsRevocation s (.advance answer) = true)
    (hs : advance installation s answer = some s') : Kept s' := by
  unfold advance at hs
  split at hs
  · cases hs
  all_goals
    rename_i hp
    cases hs
    first
    | exact advanceRevoke_kept h (by rw [hp]; rfl)
    | exact advanceRotate_kept h (by rw [hp]; rfl) hkeeps
    | exact advanceReconcile_kept h
    | exact commit_kept h.status (errorStatus_ok h.status) nofun

theorem start_kept {phase : Phase} (h : Kept s) (hs : start s phase = some s')
    (hphase : phase.ensuring = false) : Kept s' := by
  unfold start at hs
  split at hs
  · cases hs
    refine ⟨h.status, ?_⟩
    show phase.ensuring = true → _
    rw [hphase]
    nofun
  · cases hs

theorem step_kept {label : Label} (h : Kept s) (hkeeps : keepsRevocation s label = true)
    (hs : step installation s label = some s') : Kept s' := by
  cases label with
  | revoke | reconcile _ | rotate => exact start_kept h hs rfl
  | advance answer => exact advance_kept h hkeeps hs
  | crash =>
    cases hs
    exact goto_idle_kept h.status
  | setRemote uid payload =>
    cases hs
    exact ⟨h.status, h.ensuring⟩

end Statuses

/-- Between two calls. -/
def State.init (identity : Identity) (intent : Option Intent) (remote : ℕ → Option Payload) : State :=
  { identity := identity, intent := intent, remote := remote
    revoking := identity.status = .revocationPending }

/-- In every run, a call creates only a user it found absent, gives caps to and deletes only a user
whose payload it found to be of this installation, and disables an identity only with its user found
absent. In the runs where no rotation writes over `revocation_pending`, a revoked identity is not
`ready` before it was `disabled`. -/
theorem service_identity_revocation_one_way (installation : Installation) (identity : Identity)
    (intent : Option Intent) (remote : ℕ → Option Payload) :
    (∀ s, Reached (step installation) anyStep (State.init identity intent remote) s →
      ∀ event ∈ s.events, event.Proper installation) ∧
    ∀ s, Reached (step installation) (fun s label => keepsRevocation s label = true)
        (State.init identity intent remote) s →
      s.revoking = true → s.identity.status ≠ .ready := by
  constructor
  · intro s hs
    have hinit : Inv installation (State.init identity intent remote) :=
      ⟨fun _ he => absurd he List.not_mem_nil, trivial⟩
    have hinv : Inv installation s :=
      hs.invariant hinit fun _ _ _ hinv _ hstep => step_inv hinv hstep
    exact hinv.events
  · intro s hs hrevoking
    have hinit : Kept (State.init identity intent remote) := ⟨of_decide_eq_true, nofun⟩
    have hkept : Kept s := hs.invariant hinit fun _ _ _ hkept hok hstep => step_kept hkept hok hstep
    rw [hkept.status hrevoking]
    nofun

/-! ### One identity -/

def oneInstallation : Installation := ⟨7, 5⟩

def advances (n : ℕ) : List Label := List.replicate n (.advance {})

/-- The identity is provisioned, and then a revocation does not reach RGW. -/
def provisionAndRevoke : List Label :=
  List.flatten [[.reconcile true, .advance { newKey := 1 }], advances 6, [.advance { uid := 5 }],
    advances 1, [.revoke], advances 1, [.advance { failed := true }], advances 1]

theorem service_identity_revocation_one_way_provisionAndRevoke :
    ∃ s, Reached (step oneInstallation) (fun s label => keepsRevocation s label = true)
        (State.init ⟨.notProvisioned, none, none, none, false⟩ none fun _ => none) s ∧
      s.revoking = true ∧ s.events.length = 2 ∧
      (∀ event ∈ s.events, event.Proper oneInstallation) ∧ s.identity.status ≠ .ready := by
  have hrun : (afterOk (step oneInstallation) keepsRevocation
      (State.init ⟨.notProvisioned, none, none, none, false⟩ none fun _ => none)
      provisionAndRevoke).any (fun s => s.revoking && s.events.length = 2) = true := by
    decide +kernel
  obtain ⟨s, hs, hend⟩ := (Option.any_eq_true _ _).mp hrun
  simp only [Bool.and_eq_true, decide_eq_true_eq] at hend
  have hreached := Reached.init.afterOk hs
  have hone := service_identity_revocation_one_way oneInstallation
    ⟨.notProvisioned, none, none, none, false⟩ none fun _ => none
  exact ⟨s, hreached, hend.1, hend.2, hone.1 s (hreached.mono fun _ _ _ => trivial),
    hone.2 s hreached hend.1⟩

/-- A rotation stops before it has made the replacement, a revocation does not reach RGW, and the
rotation is resumed. -/
def rotateOverRevoke : List Label :=
  List.flatten [[.rotate], advances 2, [.advance { newKey := 2 }], advances 2,
    [.advance { failed := true }], advances 1,
    [.revoke], advances 1, [.advance { failed := true }], advances 1,
    [.rotate], advances 10]

theorem resumed_rotation_reverts_revocation :
    ¬ ∀ (installation : Installation) (identity : Identity) (intent : Option Intent)
      (remote : ℕ → Option Payload) (s : State),
      Reached (step installation) anyStep (State.init identity intent remote) s →
      s.revoking = true → s.identity.status ≠ .ready := by
  intro h
  have hrun : (after (step oneInstallation)
      (State.init ⟨.ready, some 7, some 5, some 1, true⟩ none
        fun uid => if uid = 5 then some { keys := [1] } else none)
      rotateOverRevoke).any (fun s => s.revoking && s.identity.status = .ready) = true := by
    decide +kernel
  obtain ⟨s, hs, hend⟩ := (Option.any_eq_true _ _).mp hrun
  simp only [Bool.and_eq_true, decide_eq_true_eq] at hend
  exact h oneInstallation _ _ _ s (Reached.init.after hs) hend.1 hend.2

end ServiceIdentities
end BucketReef

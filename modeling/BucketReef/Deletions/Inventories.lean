import BucketReef.Deletions.Accounts

/-!
# What a deletion of an account relies on

An attempt that starts before the checkpoint of the IAM cleanup takes its own inventory of buckets and
users before it deletes anything. One that resumes after it relies on the inventory of the attempt that
committed this checkpoint, and takes another only before it deletes a root user that still exists.
-/

namespace BucketReef
namespace AccountDeletion

open Transitions

def Attempt.foundEmpty (attempt : Attempt) : Bool := attempt.noBuckets && attempt.noUsers

def Event.Proper : Event → Prop
  | .rootDeleted attempt checkpointed => attempt.noBuckets = true ∧ checkpointed = false
  | .accountDeleted attempt inventoried checkpointed =>
    (attempt.resumed = false → attempt.foundEmpty = true) ∧ inventoried = true ∧ checkpointed = false
  | .localDeleted attempt confirmed => attempt.deleteRgw = false ∨ confirmed = true

/-- The account has a deletion in progress, which says `P`. -/
def Pending (s : State) (P : Deletion → Prop) : Prop :=
  ∃ account deletion, s.account = some account ∧ s.deletion = some deletion ∧
    deletion.target.rgwAccountId = account.rgwAccountId ∧ P deletion

structure Rows (s : State) : Prop where
  inventoried : ∀ deletion, s.deletion = some deletion →
    deletion.iamCleanupCompleted = true → s.inventoried = true
  confirmed : ∀ deletion, s.deletion = some deletion →
    deletion.remoteAccountDeleted = true → deletion.target.rgwAccountId ∈ s.confirmed
  rootCheckpointed : s.rootCheckpointed = true → s.account = none ∨
    ∃ deletion, s.deletion = some deletion ∧ deletion.rootUserDeleted = true
  accountCheckpointed : s.accountCheckpointed = true → s.account = none ∨
    ∃ deletion, s.deletion = some deletion ∧ deletion.remoteAccountDeleted = true
  events : ∀ event ∈ s.events, event.Proper

def Emptied (s : State) : Prop := s.attempt.resumed = false → s.attempt.foundEmpty = true

def PhaseOk (s : State) : Phase → Prop
  | .idle => True
  | .context => s.account.isSome = true ∧ s.attempt.resumed = false
  | .getAccount .first | .listAccounts .first | .requireEmpty .claim | .claim =>
    s.account.isSome = true ∧ s.deletion = none ∧ s.attempt.resumed = false
  | .requireEmpty .iamCleanup =>
    Pending s (fun deletion => deletion.iamCleanupCompleted = false) ∧ s.attempt.resumed = false
  | .iamInventory =>
    Pending s (fun deletion => deletion.iamCleanupCompleted = false) ∧ s.attempt.resumed = false ∧
      s.attempt.noBuckets = true ∧ (s.attempt.iamEnabled = false → s.attempt.noUsers = true)
  | .removeGroups | .iamCheckpoint =>
    Pending s (fun deletion => deletion.iamCleanupCompleted = false) ∧ s.attempt.resumed = false ∧
      s.attempt.foundEmpty = true
  | .getRoot | .confirmNoRoot | .requireEmpty .rootUser | .rootCheckpoint =>
    Pending s (fun deletion => deletion.iamCleanupCompleted = true ∧
      deletion.rootUserDeleted = false) ∧ Emptied s
  | .deleteRoot =>
    Pending s (fun deletion => deletion.iamCleanupCompleted = true ∧
      deletion.rootUserDeleted = false) ∧ Emptied s ∧ s.attempt.noBuckets = true
  | .getAccount _ | .listAccounts _ | .deleteAccount =>
    Pending s (fun deletion => deletion.iamCleanupCompleted = true ∧
      deletion.remoteAccountDeleted = false) ∧ Emptied s
  | .accountCheckpoint =>
    Pending s (fun deletion => deletion.iamCleanupCompleted = true ∧
      deletion.remoteAccountDeleted = false) ∧ Emptied s ∧ s.isConfirmed = true
  | .deleteLocal => s.attempt.deleteRgw = false ∨ s.isConfirmed = true

structure Inv (s : State) : Prop where
  rows : Rows s
  phase : PhaseOk s s.phase

variable {s s' after : State} {answer : Answer} {next : Phase}

theorem goto_inv (h : Rows s) (hnext : PhaseOk s next) : Inv (s.goto next) := by
  refine ⟨⟨h.inventoried, h.confirmed, h.rootCheckpointed, h.accountCheckpointed, h.events⟩, ?_⟩
  show PhaseOk (s.goto next) next
  cases next with
  | getAccount lookup | listAccounts lookup => cases lookup <;> exact hnext
  | requireEmpty check => cases check <;> exact hnext
  | _ => exact hnext

theorem commit_inv (h : Rows s) (hafter : Rows after) (hnext : PhaseOk after next) :
    Inv (s.commit answer after next) :=
  settle_inv (goto_inv h trivial) (goto_inv hafter trivial) (goto_inv hafter hnext)

theorem Rows.withAttempt (h : Rows s) (attempt : Attempt) : Rows { s with attempt := attempt } :=
  ⟨h.inventoried, h.confirmed, h.rootCheckpointed, h.accountCheckpointed, h.events⟩

theorem Rows.log {event : Event} (h : Rows s) (hevent : event.Proper) : Rows (s.log event) := by
  refine ⟨h.inventoried, h.confirmed, h.rootCheckpointed, h.accountCheckpointed, ?_⟩
  intro e he
  rcases List.mem_append.mp he with he | he
  · exact h.events e he
  · rw [List.mem_singleton.mp he]
    exact hevent

theorem Rows.confirm (h : Rows s) : Rows s.confirm := by
  refine ⟨h.inventoried, ?_, h.rootCheckpointed, h.accountCheckpointed, h.events⟩
  intro deletion hdeletion hdone
  exact List.mem_append_left _ (h.confirmed deletion hdeletion hdone)

theorem isConfirmed_confirm (h : s.account.isSome = true) : s.confirm.isConfirmed = true := by
  obtain ⟨account, haccount⟩ := Option.isSome_iff_exists.mp h
  simp [State.isConfirmed, State.confirm, haccount]

theorem Pending.isSome {P : Deletion → Prop} (h : Pending s P) : s.account.isSome = true := by
  obtain ⟨account, -, haccount, -⟩ := h
  rw [haccount]
  rfl

/-- Where a deletion resumes. -/
theorem resume_ok {account : Target} {deletion : Deletion} (h : Rows s)
    (haccount : s.account = some account) (hdeletion : s.deletion = some deletion)
    (hid : deletion.target.rgwAccountId = account.rgwAccountId)
    (hfresh : deletion.iamCleanupCompleted = false → s.attempt.resumed = false)
    (hempty : deletion.iamCleanupCompleted = true → Emptied s) : PhaseOk s deletion.resume := by
  unfold Deletion.resume
  split
  · rename_i hiam
    exact ⟨⟨account, deletion, haccount, hdeletion, hid, hiam⟩, hfresh hiam⟩
  · rename_i hiam
    have hiam : deletion.iamCleanupCompleted = true := by simpa using hiam
    split
    · rename_i hroot
      exact ⟨⟨account, deletion, haccount, hdeletion, hid, hiam, hroot⟩, hempty hiam⟩
    split
    · rename_i hremote
      exact ⟨⟨account, deletion, haccount, hdeletion, hid, hiam, hremote⟩, hempty hiam⟩
    · rename_i hremote
      right
      have hmem := h.confirmed deletion hdeletion (by simpa using hremote)
      rw [hid] at hmem
      simpa [State.isConfirmed, haccount] using hmem

theorem rootCheckpointed_false {P : Deletion → Prop} (h : Rows s) (hpending : Pending s P)
    (hP : ∀ deletion, P deletion → deletion.rootUserDeleted = false) : s.rootCheckpointed = false := by
  obtain ⟨account, deletion, haccount, hdeletion, -, hdel⟩ := hpending
  by_contra hne
  rcases h.rootCheckpointed (by simpa using hne) with hnone | ⟨deletion', hdeletion', hdone⟩
  · rw [haccount] at hnone
    cases hnone
  · rw [hdeletion] at hdeletion'
    cases hdeletion'
    rw [hP deletion hdel] at hdone
    cases hdone

theorem accountCheckpointed_false {P : Deletion → Prop} (h : Rows s) (hpending : Pending s P)
    (hP : ∀ deletion, P deletion → deletion.remoteAccountDeleted = false) :
    s.accountCheckpointed = false := by
  obtain ⟨account, deletion, haccount, hdeletion, -, hdel⟩ := hpending
  by_contra hne
  rcases h.accountCheckpointed (by simpa using hne) with hnone | ⟨deletion', hdeletion', hdone⟩
  · rw [haccount] at hnone
    cases hnone
  · rw [hdeletion] at hdeletion'
    cases hdeletion'
    rw [hP deletion hdel] at hdone
    cases hdone

/-! ## The checkpoints -/

theorem iamCheckpoint_inv (h : Rows s)
    (hpending : Pending s fun deletion => deletion.iamCleanupCompleted = false)
    (hempty : s.attempt.foundEmpty = true) :
    Inv (s.checkpoint answer (fun s => { s with
      inventoried := s.inventoried || (s.attempt.noBuckets && s.attempt.noUsers) })
      fun deletion => { deletion with iamCleanupCompleted := true }) := by
  obtain ⟨account, deletion, haccount, hdeletion, hid, -⟩ := hpending
  have hinventoried : (s.inventoried || (s.attempt.noBuckets && s.attempt.noUsers)) = true := by
    rw [show (s.attempt.noBuckets && s.attempt.noUsers) = true from hempty, Bool.or_true]
  unfold State.checkpoint
  rw [hdeletion]
  have hrows : Rows { s with
      inventoried := s.inventoried || (s.attempt.noBuckets && s.attempt.noUsers)
      deletion := some { deletion with iamCleanupCompleted := true } } := by
    refine ⟨fun _ _ _ => hinventoried, ?_, ?_, ?_, h.events⟩
    · intro deletion' hdeletion' hdone
      cases hdeletion'
      exact h.confirmed deletion hdeletion hdone
    · intro hroot
      refine (h.rootCheckpointed hroot).imp_right ?_
      rintro ⟨deletion', hdeletion', hdone⟩
      rw [hdeletion] at hdeletion'
      cases hdeletion'
      exact ⟨_, rfl, hdone⟩
    · intro hremote
      refine (h.accountCheckpointed hremote).imp_right ?_
      rintro ⟨deletion', hdeletion', hdone⟩
      rw [hdeletion] at hdeletion'
      cases hdeletion'
      exact ⟨_, rfl, hdone⟩
  exact commit_inv h hrows (resume_ok hrows haccount rfl hid nofun fun _ _ => hempty)

theorem rootCheckpoint_inv (h : Rows s)
    (hpending : Pending s fun deletion => deletion.iamCleanupCompleted = true ∧
      deletion.rootUserDeleted = false) (hempty : Emptied s) :
    Inv (s.checkpoint answer (fun s => { s with rootCheckpointed := true }) fun deletion =>
      { deletion with rootUserDeleted := true }) := by
  obtain ⟨account, deletion, haccount, hdeletion, hid, hiam, -⟩ := hpending
  unfold State.checkpoint
  rw [hdeletion]
  have hrows : Rows { s with
      rootCheckpointed := true, deletion := some { deletion with rootUserDeleted := true } } := by
    refine ⟨fun _ _ _ => h.inventoried deletion hdeletion hiam, ?_, fun _ => .inr ⟨_, rfl, rfl⟩, ?_,
      h.events⟩
    · intro deletion' hdeletion' hdone
      cases hdeletion'
      exact h.confirmed deletion hdeletion hdone
    · intro hremote
      refine (h.accountCheckpointed hremote).imp_right ?_
      rintro ⟨deletion', hdeletion', hdone⟩
      rw [hdeletion] at hdeletion'
      cases hdeletion'
      exact ⟨_, rfl, hdone⟩
  refine commit_inv h hrows (resume_ok hrows haccount rfl hid ?_ fun _ => hempty)
  intro hfresh
  rw [show deletion.iamCleanupCompleted = false from hfresh] at hiam
  cases hiam

theorem accountCheckpoint_inv (h : Rows s)
    (hpending : Pending s fun deletion => deletion.iamCleanupCompleted = true ∧
      deletion.remoteAccountDeleted = false) (hempty : Emptied s) (hconfirmed : s.isConfirmed = true) :
    Inv (s.checkpoint answer (fun s => { s with accountCheckpointed := true }) fun deletion =>
      { deletion with remoteAccountDeleted := true }) := by
  obtain ⟨account, deletion, haccount, hdeletion, hid, hiam, -⟩ := hpending
  unfold State.checkpoint
  rw [hdeletion]
  have hmem : account.rgwAccountId ∈ s.confirmed := by
    simpa [State.isConfirmed, haccount] using hconfirmed
  have hrows : Rows { s with
      accountCheckpointed := true
      deletion := some { deletion with remoteAccountDeleted := true } } := by
    refine ⟨fun _ _ _ => h.inventoried deletion hdeletion hiam, ?_, ?_, fun _ => .inr ⟨_, rfl, rfl⟩,
      h.events⟩
    · intro deletion' hdeletion' _
      cases hdeletion'
      show deletion.target.rgwAccountId ∈ s.confirmed
      rw [hid]
      exact hmem
    · intro hroot
      refine (h.rootCheckpointed hroot).imp_right ?_
      rintro ⟨deletion', hdeletion', hdone⟩
      rw [hdeletion] at hdeletion'
      cases hdeletion'
      exact ⟨_, rfl, hdone⟩
  refine commit_inv h hrows (resume_ok hrows haccount rfl hid ?_ fun _ => hempty)
  intro hfresh
  rw [show deletion.iamCleanupCompleted = false from hfresh] at hiam
  cases hiam

/-! ## One step -/

theorem deleteLocal_inv (h : Rows s) (hconfirmed : s.attempt.deleteRgw = false ∨ s.isConfirmed = true) :
    Inv (s.commit answer ({ s with account := none, deletion := none }.log
      (.localDeleted s.attempt s.isConfirmed)) .idle) := by
  refine commit_inv h (Rows.log ?_ hconfirmed) trivial
  exact ⟨nofun, nofun, fun _ => .inl rfl, fun _ => .inl rfl, h.events⟩

theorem blocked_false (h : blocked s.attempt answer = false) :
    s.attempt.iamEnabled = false → answer.userCount.isSome = true := by
  intro hiam
  cases huser : answer.userCount with
  | none => simp [blocked, hiam, huser] at h
  | some _ => rfl

theorem foundEmpty_mono {attempt : Attempt} {users : Bool} (h : attempt.foundEmpty = true) :
    ({ attempt with noBuckets := true, noUsers := attempt.noUsers || users } : Attempt).foundEmpty =
      true := by
  simp only [Attempt.foundEmpty, Bool.and_eq_true] at h
  show (true && (attempt.noUsers || users)) = true
  rw [h.2, Bool.true_or, Bool.and_true]

theorem claim_inv {account : Target} {deletion : Deletion} (h : Rows s) (hnone : s.deletion = none)
    (haccount : s.account = some account) (hfresh : s.attempt.resumed = false)
    (hid : deletion.target.rgwAccountId = account.rgwAccountId)
    (hiam : deletion.iamCleanupCompleted = false) (hremote : deletion.remoteAccountDeleted = false) :
    Inv (s.commit answer { s with deletion := some deletion } deletion.resume) := by
  have hrows : Rows { s with deletion := some deletion } := by
    refine ⟨?_, ?_, ?_, ?_, h.events⟩
    · intro deletion' hdeletion' hdone
      cases hdeletion'
      rw [hiam] at hdone
      cases hdone
    · intro deletion' hdeletion' hdone
      cases hdeletion'
      rw [hremote] at hdone
      cases hdone
    · intro hroot
      refine (h.rootCheckpointed hroot).imp_right ?_
      rintro ⟨deletion, hdeletion, -⟩
      rw [hnone] at hdeletion
      cases hdeletion
    · intro hremote
      refine (h.accountCheckpointed hremote).imp_right ?_
      rintro ⟨deletion, hdeletion, -⟩
      rw [hnone] at hdeletion
      cases hdeletion
  refine commit_inv h hrows (resume_ok hrows haccount rfl hid (fun _ => hfresh) ?_)
  intro hdone
  rw [hiam] at hdone
  cases hdone

theorem context_inv {account : Target} (h : Rows s) (haccount : s.account = some account)
    (hfresh : s.attempt.resumed = false) (hs : advance s answer .context = some s') : Inv s' := by
  simp only [advance] at hs
  split at hs
  · cases hs
  rename_i account' haccount'
  cases haccount'.symm.trans haccount
  split at hs
  · cases hs
    exact goto_inv h trivial
  · split at hs
    · rename_i hnone
      cases hs
      refine goto_inv h ?_
      split
      · exact ⟨by rw [haccount]; rfl, hnone, hfresh⟩
      · rename_i hlocal
        exact .inl (by simpa using hlocal)
    · rename_i deletion hdeletion
      split at hs
      · cases hs
        exact goto_inv h trivial
      · rename_i hvalid
        cases hs
        push Not at hvalid
        have htarget : deletion.target = account := by
          have hmatches : deletion.matchesTarget account s.attempt.endpointId = true := by
            simpa using hvalid.2
          simp only [Deletion.matchesTarget, Bool.and_eq_true, decide_eq_true_eq] at hmatches
          exact hmatches.1
        have hrows := h.withAttempt { s.attempt with resumed := deletion.iamCleanupCompleted }
        refine goto_inv hrows (resume_ok hrows haccount hdeletion (by rw [htarget]) id ?_)
        intro hiam hresumed
        rw [show deletion.iamCleanupCompleted = false from hresumed] at hiam
        cases hiam

theorem requireEmpty_inv {check : Check} (h : Rows s) (hok : PhaseOk s (.requireEmpty check))
    (hs : advance s answer (.requireEmpty check) = some s') : Inv s' := by
  simp only [advance] at hs
  split at hs
  · cases hs
    exact goto_inv h trivial
  · rename_i hblocked
    have hblocked := blocked_false (by simpa using hblocked)
    cases hs
    refine goto_inv (h.withAttempt _) ?_
    cases check with
    | claim => exact hok
    | iamCleanup =>
      obtain ⟨hpending, hfresh⟩ := hok
      refine ⟨hpending, hfresh, rfl, ?_⟩
      intro hiam
      show (s.attempt.noUsers || answer.userCount.isSome) = true
      rw [hblocked hiam, Bool.or_true]
    | rootUser =>
      obtain ⟨hpending, hempty⟩ := hok
      exact ⟨hpending, fun hresumed => foundEmpty_mono (hempty hresumed), rfl⟩

theorem getAccount_inv {lookup : Lookup} (h : Rows s) (hok : PhaseOk s (.getAccount lookup))
    (hs : advance s answer (.getAccount lookup) = some s') : Inv s' := by
  cases hs
  refine goto_inv h ?_
  cases answer.found with
  | error | other => trivial
  | missing => cases lookup <;> exact hok
  | found =>
    cases lookup with
    | first | remote => exact hok
    | again => trivial

theorem listAccounts_inv {lookup : Lookup} (h : Rows s) (hok : PhaseOk s (.listAccounts lookup))
    (hs : advance s answer (.listAccounts lookup) = some s') : Inv s' := by
  simp only [advance] at hs
  split at hs
  · cases hs
    exact goto_inv h trivial
  · cases hs
    refine goto_inv h.confirm ?_
    cases lookup with
    | first => exact .inr (isConfirmed_confirm hok.1)
    | remote | again => exact ⟨hok.1, hok.2, isConfirmed_confirm hok.1.isSome⟩

theorem advance_inv {phase : Phase} (h : Rows s) (hok : PhaseOk s phase)
    (hs : advance s answer phase = some s') : Inv s' := by
  cases phase with
  | idle => cases hs
  | context =>
    obtain ⟨account, haccount⟩ := Option.isSome_iff_exists.mp hok.1
    exact context_inv h haccount hok.2 hs
  | getAccount lookup => exact getAccount_inv h hok hs
  | listAccounts lookup => exact listAccounts_inv h hok hs
  | requireEmpty check => exact requireEmpty_inv h hok hs
  | claim =>
    obtain ⟨hsome, hnone, hfresh⟩ := hok
    obtain ⟨account, haccount⟩ := Option.isSome_iff_exists.mp hsome
    obtain ⟨account', haccount', rfl⟩ := Option.map_eq_some_iff.mp hs
    cases haccount'.symm.trans haccount
    refine claim_inv h hnone haccount hfresh ?_ ?_ ?_ <;> rfl
  | iamInventory =>
    obtain ⟨hpending, hfresh, hbuckets, husers⟩ := hok
    simp only [advance] at hs
    split at hs
    · rename_i hiam
      cases hs
      refine goto_inv h ⟨hpending, hfresh, ?_⟩
      show (s.attempt.noBuckets && s.attempt.noUsers) = true
      rw [hbuckets, husers hiam]
      rfl
    · split at hs
      · cases hs
        exact goto_inv h trivial
      · cases hs
        refine goto_inv (h.withAttempt _) ⟨hpending, hfresh, ?_⟩
        show (s.attempt.noBuckets && true) = true
        rw [hbuckets]
        rfl
  | removeGroups =>
    cases hs
    refine goto_inv h ?_
    split
    · trivial
    · exact hok
  | iamCheckpoint =>
    cases hs
    exact iamCheckpoint_inv h hok.1 hok.2.2
  | getRoot =>
    cases hs
    refine goto_inv h ?_
    cases answer.found with
    | error | other => trivial
    | missing | found => exact hok
  | confirmNoRoot =>
    cases hs
    refine goto_inv h ?_
    split
    · exact hok
    · trivial
  | deleteRoot =>
    obtain ⟨hpending, hempty, hbuckets⟩ := hok
    cases hs
    have hcheckpointed := rootCheckpointed_false h hpending fun _ hd => hd.2
    refine goto_inv (h.log ⟨hbuckets, hcheckpointed⟩) ?_
    split
    · trivial
    · exact ⟨hpending, hempty⟩
  | rootCheckpoint =>
    cases hs
    exact rootCheckpoint_inv h hok.1 hok.2
  | deleteAccount =>
    obtain ⟨hpending, hempty⟩ := hok
    have hcheckpointed := accountCheckpointed_false h hpending fun _ hd => hd.2
    have hinventoried : s.inventoried = true := by
      obtain ⟨-, deletion, -, hdeletion, -, hiam, -⟩ := hpending
      exact h.inventoried deletion hdeletion hiam
    have hproper : (Event.accountDeleted s.attempt s.inventoried s.accountCheckpointed).Proper :=
      ⟨hempty, hinventoried, hcheckpointed⟩
    have hrows := h.log hproper
    cases hs
    cases answer.deleted with
    | error | notImplemented => exact goto_inv hrows trivial
    | notFound => exact goto_inv hrows ⟨hpending, hempty⟩
    | done => exact goto_inv hrows.confirm ⟨hpending, hempty, isConfirmed_confirm hpending.isSome⟩
  | accountCheckpoint =>
    cases hs
    exact accountCheckpoint_inv h hok.1 hok.2.1 hok.2.2
  | deleteLocal =>
    cases hs
    exact deleteLocal_inv h hok

theorem step_inv {label : Label} (h : Inv s) (hs : step s label = some s') : Inv s' := by
  cases label with
  | delete deleteRgw endpointId iamEnabled =>
    simp only [step] at hs
    split at hs
    · rename_i hfree
      cases hs
      have hrows := h.rows
      exact ⟨⟨hrows.inventoried, hrows.confirmed, hrows.rootCheckpointed, hrows.accountCheckpointed,
        hrows.events⟩, hfree.2, rfl⟩
    · cases hs
  | advance answer => exact advance_inv h.rows h.phase hs
  | crash =>
    cases hs
    exact goto_inv h.rows trivial
  | edit target =>
    simp only [step] at hs
    split at hs
    · rename_i hidle
      cases hs
      have hrows := h.rows
      refine ⟨⟨hrows.inventoried, hrows.confirmed, ?_, ?_, hrows.events⟩, ?_⟩
      · intro hroot
        exact (hrows.rootCheckpointed hroot).imp_left fun hnone => by simp [hnone]
      · intro hremote
        exact (hrows.accountCheckpointed hremote).imp_left fun hnone => by simp [hnone]
      · show PhaseOk _ s.phase
        rw [hidle]
        trivial
    · cases hs

theorem init_inv (account : Target) : Inv (State.init account) :=
  ⟨⟨nofun, nofun, nofun, nofun, fun _ he => absurd he List.not_mem_nil⟩, trivial⟩

end AccountDeletion
end BucketReef

import BucketReef.Effects.System
import BucketReef.Migration.Records

/-!
# Drafts

Before its start a migration is a draft: it is edited, its checks are requested and run by a
preparation worker under a lease, and once active checks passed it can be started. The commands are
fenced by a guarded update; a worker compares the row at its checkpoints, and then commits the
columns of its ORM object.
-/

namespace BucketReef
namespace Drafts

open Effects Migration

/-- The columns of `bucket_migrations` a draft uses. -/
structure Draft where
  status : MigrationStatus := .draft
  configurationRevision : ℕ := 1
  preparationStatus : PreparationStatus := .unverified
  preparationActiveChecks : Bool := false
  precheckCheckedAt : Option ℕ := none
  maintenanceStatus : MaintenanceStatus := .idle
  workerLeaseOwner : Option String := none
  workerLeaseUntil : Option ℕ := none
  deriving DecidableEq, Repr

structure World where
  clock : ℕ := 0
  row : Draft := {}
  /-- Revision and time of the active checks that finished without errors; not stored anywhere. -/
  passed : List (ℕ × ℕ) := []
  /-- Revision and time of the moves from `draft` to `queued`; not stored anywhere. -/
  started : List (ℕ × ℕ) := []
  deriving DecidableEq, Repr

/-- The ORM object of the row: what was loaded and what it is now. -/
structure Loaded where
  base : Draft
  current : Draft
  deriving DecidableEq, Repr

structure Session where
  me : String := ""
  object : Option Loaded := none
  /-- The revision whose finished checks the object holds. -/
  checked : Option ℕ := none
  deriving DecidableEq, Repr

/-- The row after the update of a flush: only changed columns are written. -/
def Loaded.written (object : Loaded) (row : Draft) : Draft where
  status := pick object.base.status object.current.status row.status
  configurationRevision :=
    pick object.base.configurationRevision object.current.configurationRevision row.configurationRevision
  preparationStatus :=
    pick object.base.preparationStatus object.current.preparationStatus row.preparationStatus
  preparationActiveChecks := pick object.base.preparationActiveChecks
    object.current.preparationActiveChecks row.preparationActiveChecks
  precheckCheckedAt :=
    pick object.base.precheckCheckedAt object.current.precheckCheckedAt row.precheckCheckedAt
  maintenanceStatus :=
    pick object.base.maintenanceStatus object.current.maintenanceStatus row.maintenanceStatus
  workerLeaseOwner :=
    pick object.base.workerLeaseOwner object.current.workerLeaseOwner row.workerLeaseOwner
  workerLeaseUntil :=
    pick object.base.workerLeaseUntil object.current.workerLeaseUntil row.workerLeaseUntil

/-- `PRECHECK_MAX_AGE`, in seconds. -/
def precheckMaxAge : ℕ := 15 * 60

/-- `preparation_is_current`. -/
def preparationIsCurrent (now : ℕ) (migration : Draft) : Bool :=
  migration.preparationStatus = .ready &&
    migration.precheckCheckedAt.any fun checkedAt => now ≤ checkedAt + precheckMaxAge

/-- The `busy` of `_WorkflowFacts`. -/
def Draft.busy (migration : Draft) : Bool :=
  migration.status.active || migration.preparationStatus = .checking || migration.maintenanceStatus.busy

/-- The rule of `edit` and `precheck`. -/
def editableDraft (migration : Draft) (recovery : Bool) : Bool :=
  migration.status = .draft && !migration.busy && !recovery

/-- The commands that `_transition_command` fences. -/
inductive Command
  | precheck (activeChecks : Bool) | edit | start
  deriving DecidableEq, Repr

/-- The values of the guarded update. -/
def Command.values (command : Command) (migration row : Draft) : Draft :=
  match command with
  | .precheck _ => { row with preparationStatus := .checking }
  | .edit => { row with
      configurationRevision := migration.configurationRevision + 1, preparationStatus := .stale }
  | .start => { row with status := .queued }

/-- The assignments that follow it. -/
def Command.assigned (command : Command) (migration : Draft) : Draft :=
  match command with
  | .precheck activeChecks => { migration with
      preparationStatus := .checking, preparationActiveChecks := activeChecks, precheckCheckedAt := none
      workerLeaseOwner := none, workerLeaseUntil := none }
  | .edit => { migration with
      configurationRevision := migration.configurationRevision + 1, preparationStatus := .stale
      status := .draft, precheckCheckedAt := none, workerLeaseOwner := none, workerLeaseUntil := none }
  | .start => { migration with
      status := .queued, workerLeaseOwner := none, workerLeaseUntil := none }

namespace World

/-- The row is still what the command was decided on. -/
def fenced (w : World) (migration : Draft) : Bool :=
  w.row.status = migration.status && w.row.configurationRevision = migration.configurationRevision &&
    w.row.preparationStatus = migration.preparationStatus &&
    w.row.maintenanceStatus = migration.maintenanceStatus

def transitioned (w : World) (command : Command) (object : Loaded) : World :=
  let row := (Loaded.mk object.base (command.assigned object.current)).written
    (command.values object.current w.row)
  { w with
    row := row
    started := if command = .start then (w.row.configurationRevision, w.clock) :: w.started
      else w.started }

/-- The owner's lease has not expired. -/
def leaseValid (w : World) (me : String) : Bool :=
  w.row.workerLeaseOwner = some me && w.row.workerLeaseUntil.any fun until_ => w.clock ≤ until_

/-- `claim_next_preparation_id` may take the draft at the time it looked. -/
def eligible (w : World) (now : ℕ) : Bool :=
  w.row.status = .draft && w.row.preparationStatus = .checking &&
    w.row.workerLeaseUntil.all fun until_ => until_ < now

def committed (w : World) (s : Session) : World :=
  match s.object with
  | none => w
  | some object => { w with row := object.written w.row }

end World

inductive Error
  | leaseLost | failure (message : String)
  deriving DecidableEq, Repr

inductive Fault
  | none | before | after
  deriving DecidableEq, Repr

structure Choice where
  fault : Fault := .none
  answer : Bool := true
  deriving DecidableEq, Repr

/-- The columns a checkpoint reads past the ORM. -/
structure CheckpointRow where
  configurationRevision : ℕ
  workerLeaseOwner : Option String
  deriving DecidableEq, Repr

inductive Op
  | getMigration
  | now
  | ask (question : String)
  | remote (call : String)
  | assign (f : Draft → Draft)
  /-- The assignments of `_complete_precheck_report`. -/
  | completePrecheckReport (revision : ℕ) (activeChecks errors : Bool)
  | commit
  | rollback
  | assertWorkflowLease
  | checkpointRow
  /-- The guarded update of a claim and its commit. -/
  | claim (now leaseSeconds : ℕ)
  /-- The guarded update of a command, which locks the row until the commit that follows. -/
  | transition (command : Command)

def Reply : Op → Type
  | .getMigration => Draft
  | .now => ℕ
  | .ask _ | .claim _ _ => Bool
  | .checkpointRow => CheckpointRow
  | _ => Unit

abbrev Service (α : Type) : Type := Prog Op Reply Error α

def faulty {α : Type} (choice : Choice) (before after : World × Session) (a : α) :
    World × Session × Except Error α :=
  match choice.fault with
  | .none => (after.1, after.2, .ok a)
  | .before => (before.1, before.2, .error (.failure "call failed"))
  | .after => (after.1, after.2, .error (.failure "call failed"))

def Session.expired (s : Session) : Session := { s with object := none, checked := none }

def Session.loaded (s : Session) (w : World) : Loaded := s.object.getD ⟨w.row, w.row⟩

def exec : (op : Op) → Choice → World → Session → World × Session × Except Error (Reply op)
  | .getMigration, choice, w, s =>
    faulty choice (w, s) (w, { s with object := some (s.loaded w) }) (s.loaded w).current
  | .now, _, w, s => (w, s, .ok w.clock)
  | .ask _, choice, w, s => faulty choice (w, s) (w, s) choice.answer
  | .remote _, choice, w, s => faulty choice (w, s) (w, s) ()
  | .assign f, _, w, s =>
    (w, { s with object := some { s.loaded w with current := f (s.loaded w).current } }, .ok ())
  | .completePrecheckReport revision activeChecks errors, _, w, s =>
    let current := { (s.loaded w).current with
      preparationStatus := if errors then .blocked else if activeChecks then .ready else .unverified
      precheckCheckedAt := some w.clock }
    ({ w with passed := if !errors && activeChecks then (revision, w.clock) :: w.passed else w.passed },
      { s with object := some { s.loaded w with current := current }, checked := some revision }, .ok ())
  | .commit, choice, w, s => faulty choice (w, s.expired) (w.committed s, s.expired) ()
  | .rollback, _, w, s => (w, s.expired, .ok ())
  | .assertWorkflowLease, _, w, s =>
    if w.leaseValid s.me then (w, s, .ok ()) else (w, s, .error .leaseLost)
  | .checkpointRow, choice, w, s =>
    faulty choice (w, s) (w, s) ⟨w.row.configurationRevision, w.row.workerLeaseOwner⟩
  | .claim now leaseSeconds, choice, w, s =>
    if w.eligible now then
      faulty choice (w, s) ({ w with row := { w.row with
        workerLeaseOwner := some s.me, workerLeaseUntil := some (now + max 15 leaseSeconds) } }, s) true
    else faulty choice (w, s) (w, s) false
  | .transition command, choice, w, s =>
    if w.fenced (s.loaded w).current then
      faulty choice (w, s.expired) (w.transitioned command (s.loaded w), s.expired) ()
    else (w, s.expired, .error (.failure "This migration changed. Reload it before trying again."))

/-! ## The commands -/

def fail {α : Type} (message : String) : Service α := Prog.raise (.failure message)

/-- `require_action` for `edit`, `precheck` and, with `current`, for `start`. -/
def requireAction (migration : Draft) (current : Bool) : Service Unit := do
  let recovery : Bool ← Prog.perform (Op.ask "a temporary change is not restored")
  let now : ℕ ← Prog.perform Op.now
  Prog.when (!(editableDraft migration recovery && (!current || preparationIsCurrent now migration)))
    (fail "The action is not available.")

def requestPrecheck (activeChecks : Bool) : Service Unit := do
  let migration ← Prog.perform Op.getMigration
  Prog.perform (Op.remote "_assert_migration_creator_access")
  requireAction migration false
  Prog.perform (Op.transition (.precheck activeChecks))

def updateDraftMigration (configurationRevision : ℕ) : Service Unit := do
  let migration ← Prog.perform Op.getMigration
  Prog.when (migration.status ≠ .draft) (fail "Only draft migrations can be updated")
  requireAction migration false
  Prog.when (configurationRevision ≠ migration.configurationRevision)
    (fail "This draft changed. Reload it before saving your changes.")
  Prog.perform (Op.remote "_resolve_draft_configuration")
  Prog.perform (Op.transition .edit)

/-- `_revalidate_start_preconditions`. -/
def revalidateStartPreconditions : Service Unit :=
  (Prog.perform (Op.remote "_revalidate_transfer_preconditions") : Service Unit).tryCatch fun e => do
    let valueError : Bool ← Prog.perform (Op.ask "the failure is a ValueError")
    Prog.when valueError do
      Prog.perform (Op.assign fun migration => { migration with preparationStatus := .stale })
      Prog.perform Op.commit
    Prog.raise e

/-- `_validate_start_execution_plan`. -/
def validateStartExecutionPlan (migration : Draft) : Service Unit := do
  Prog.when (migration.status ≠ .draft) (fail "Migration cannot be started from current status")
  let now : ℕ ← Prog.perform Op.now
  Prog.when (!preparationIsCurrent now migration)
    (fail "Precheck must pass before start. Run /precheck first.")
  let supported : Bool ← Prog.perform (Op.ask "the strategy of every item is supported")
  Prog.when (!supported) (fail "Precheck must be re-run before start.")

def startMigration (configurationRevision : ℕ) : Service Unit := do
  let migration ← Prog.perform Op.getMigration
  Prog.perform (Op.remote "_assert_migration_creator_access")
  requireAction migration true
  Prog.when (configurationRevision ≠ migration.configurationRevision)
    (fail "The checked configuration revision must match the current draft")
  let confirmed : Bool ← Prog.perform (Op.ask "a one-shot start is confirmed")
  Prog.when (!confirmed) (fail "Confirm the source write interruption")
  revalidateStartPreconditions
  validateStartExecutionPlan migration
  Prog.perform (Op.transition .start)

/-! ## The preparation worker -/

/-- `_build_preparation_checkpoint`. -/
def checkpoint (workerId : String) (revision : ℕ) : Service Unit := do
  Prog.perform Op.assertWorkflowLease
  let row ← Prog.perform Op.checkpointRow
  Prog.when (row.configurationRevision ≠ revision || row.workerLeaseOwner ≠ some workerId)
    (Prog.raise .leaseLost)
  Prog.perform (Op.remote "_assert_migration_creator_access")
  Prog.perform Op.commit

/-- `_recover_preparation_effects`: what an earlier run left behind is restored. -/
def recoverPreparationEffects (items : ℕ) : Service Unit :=
  Prog.forEach (List.range items) fun _ => do
    let recorded : Bool ← Prog.perform (Op.ask "the item has preparation effects")
    Prog.when recorded do
      Prog.perform Op.assertWorkflowLease
      Prog.perform (Op.remote "restore the policy or remove the probe bucket")
      Prog.perform Op.assertWorkflowLease
      Prog.perform Op.commit

/-- The checks of an item that change something, between the journal and its removal. -/
def probeItem (workerId : String) (revision : ℕ) : Service Unit := do
  Prog.perform Op.assertWorkflowLease
  checkpoint workerId revision
  Prog.perform Op.commit
  Prog.perform (Op.remote "probe the item and restore it")
  Prog.perform Op.assertWorkflowLease
  Prog.perform Op.commit

/-- `_plan_item`: whether the item has errors. A failed probe is one of them. -/
def planItem (workerId : String) (revision : ℕ) : Service Bool := do
  let inspected : Bool ← Prog.perform (Op.ask "the item is inspected without errors")
  let probes : Bool ← Prog.perform (Op.ask "the checks change something")
  let probed ← (Prog.when probes (probeItem workerId revision)).attempt
  return !inspected || match probed with
    | .ok _ => false
    | .error _ => true

/-- The planner's `run`: whether an entry of the report is an error. -/
def planItems (workerId : String) (revision items : ℕ) : Service Bool := do
  let resolved : Bool ← Prog.perform (Op.ask "both contexts are resolved")
  if resolved then
    Prog.foldM (List.range items) (fun errors _ => do
      checkpoint workerId revision
      let itemErrors ← planItem workerId revision
      checkpoint workerId revision
      return errors || itemErrors) false
  else return true

/-- The block of `run_precheck` whose failure is recorded. -/
def prepare (workerId : String) (revision items : ℕ) (activeChecks : Bool) : Service Unit := do
  checkpoint workerId revision
  recoverPreparationEffects items
  let errors ← planItems workerId revision items
  checkpoint workerId revision
  let _ ← Prog.perform Op.getMigration
  let unrestored : Bool ← Prog.perform (Op.ask "an item has preparation effects")
  Prog.when unrestored (fail "Temporary changes could not be restored.")
  Prog.perform (Op.completePrecheckReport revision activeChecks errors)

/-- `_record_precheck_failure`. -/
def recordPrecheckFailure (workerId : String) : Service Unit := do
  let migration ← Prog.perform Op.getMigration
  Prog.when (migration.workerLeaseOwner ≠ some workerId) (Prog.raise .leaseLost)
  Prog.perform (Op.assign fun migration => { migration with preparationStatus := .blocked })

/-- The handlers of `run_precheck`. -/
def recordOutcome (workerId : String) (e : Error) : Service Unit := do
  Prog.perform Op.rollback
  match e with
  | .leaseLost => Prog.raise .leaseLost
  | .failure _ => recordPrecheckFailure workerId

def runPrecheck (workerId : String) (items : ℕ) : Service Unit := do
  let migration ← Prog.perform Op.getMigration
  Prog.when (migration.status ≠ .draft) (fail "Only a current draft can be checked")
  Prog.perform Op.assertWorkflowLease
  Prog.perform (Op.assign fun migration => { migration with preparationStatus := .checking })
  (prepare workerId migration.configurationRevision items migration.preparationActiveChecks).tryCatch
    (recordOutcome workerId)
  Prog.perform (Op.assign fun migration => { migration with
    workerLeaseOwner := none, workerLeaseUntil := none })
  Prog.perform Op.commit

/-- An iteration of `_run_preparation_loop`. -/
def preparation (workerId : String) (leaseSeconds items : ℕ) : Service Unit := do
  let now : ℕ ← Prog.perform Op.now
  let claimed : Bool ← Prog.perform (Op.claim now leaseSeconds)
  Prog.when claimed (runPrecheck workerId items)

inductive Job
  | requestPrecheck (activeChecks : Bool)
  | updateDraftMigration (configurationRevision : ℕ)
  | startMigration (configurationRevision : ℕ)
  | preparation (workerId : String) (leaseSeconds items : ℕ)
  deriving DecidableEq, Repr

def Job.service : Job → Service Unit
  | .requestPrecheck activeChecks => Drafts.requestPrecheck activeChecks
  | .updateDraftMigration configurationRevision => Drafts.updateDraftMigration configurationRevision
  | .startMigration configurationRevision => Drafts.startMigration configurationRevision
  | .preparation workerId leaseSeconds items => Drafts.preparation workerId leaseSeconds items

def Job.session : Job → Session
  | .preparation workerId _ _ => { me := workerId }
  | _ => {}

inductive Event
  | wait (seconds : ℕ)
  /-- The heartbeat of a worker renews its lease. -/
  | renewLease (workerId : String) (leaseSeconds : ℕ)
  deriving DecidableEq, Repr

def applyEvent : Event → World → Option World
  | .wait seconds, w => some { w with clock := w.clock + seconds }
  | .renewLease workerId leaseSeconds, w =>
    if w.row.workerLeaseOwner = some workerId ∧ w.row.busy = true then
      some { w with row := { w.row with
        workerLeaseUntil := some (w.clock + max 15 leaseSeconds) } }
    else none

def system : System Op Reply Error World Session Choice Event Job where
  exec := exec
  apply := applyEvent
  start job w := some (w, job.session, job.service)

abbrev SystemState : Type := State Op Reply Error World Session
abbrev SystemLabel : Type := Label Choice Event Job

end Drafts
end BucketReef

import BucketReef.Lists.Sorted
import BucketReef.Migration.Workflow
import Mathlib.Data.List.DropRight
import Mathlib.Data.List.Dedup

/-!
# Claiming a runnable migration

`claim_next_runnable_migration_id` one database statement at a time, as any number of workers run it
against one table of migrations. A worker reads the usage of every endpoint, reads the candidates,
takes a lease with a guarded update and checks the limit again, by the rank of its migration among
the leased ones. An update and the commit after it are one step: the row is locked in between.
-/

namespace BucketReef
namespace Scheduling

open Lists Migration

/-! ## Endpoint capacity keys -/

/-- `str.isspace` on one character. -/
def isSpace (c : Char) : Bool :=
  let n := c.toNat
  (9 ≤ n ∧ n ≤ 13) ∨ (28 ≤ n ∧ n ≤ 32) ∨ n = 133 ∨ n = 160 ∨ n = 5760 ∨ (8192 ≤ n ∧ n ≤ 8202) ∨
    n = 8232 ∨ n = 8233 ∨ n = 8239 ∨ n = 8287 ∨ n = 12288

def strip (s : String) : String :=
  String.ofList ((s.toList.dropWhile isSpace).rdropWhile isSpace)

def normalizeS3Endpoint (value : Option String) : Option String :=
  value.bind fun value =>
    let normalized := String.ofList ((strip value).toList.rdropWhile fun c => c = '/')
    if normalized = "" then none else some normalized

/-- The limit, and the endpoint each context resolves to; a context may fail to resolve. -/
structure Settings where
  maxActivePerEndpoint : ℕ
  resolveEndpoint : String → Option (Option String)

def contextEndpointCapacityKey (settings : Settings) (contextId : String) : String :=
  let normalizedContextId := strip contextId
  if normalizedContextId = "" then "context:unknown"
  else match (settings.resolveEndpoint normalizedContextId).bind normalizeS3Endpoint with
    | some endpoint => "endpoint:" ++ endpoint
    | none => "context:" ++ normalizedContextId

def endpointKeysForContexts (settings : Settings) (sourceContextId targetContextId : String) :
    List String :=
  ([contextEndpointCapacityKey settings sourceContextId,
    contextEndpointCapacityKey settings targetContextId].filter fun key => key ≠ "").dedup

/-! ## The table of migrations -/

/-- How far the claim behind a row's lease has come; not a column. -/
inductive ClaimProgress
  | unclaimed | claimed | returned
  deriving DecidableEq, Repr

structure MigrationRow where
  id : ℕ
  createdAt : ℕ
  sourceContextId : String
  targetContextId : String
  status : MigrationStatus := .draft
  preparationStatus : PreparationStatus := .unverified
  maintenanceStatus : MaintenanceStatus := .idle
  workerLeaseOwner : Option String := none
  workerLeaseUntil : Option ℕ := none
  progress : ClaimProgress := .unclaimed
  deriving DecidableEq, Repr

namespace MigrationRow

def runnableWork (row : MigrationRow) : Bool :=
  row.status.active || row.maintenanceStatus.busy

/-- The lease has not expired at `now`. -/
def leaseHeld (now : ℕ) (row : MigrationRow) : Bool :=
  row.workerLeaseUntil.any fun until_ => now ≤ until_

def availableLease (now : ℕ) (row : MigrationRow) : Bool :=
  row.workerLeaseUntil.all fun until_ => until_ < now

def endpointKeys (settings : Settings) (row : MigrationRow) : List String :=
  endpointKeysForContexts settings row.sourceContextId row.targetContextId

/-- The order of the rank: creation time, then id. -/
def age (row : MigrationRow) : ℕ ×ₗ ℕ := toLex (row.createdAt, row.id)

end MigrationRow

/-- A row of the candidate query. -/
structure Candidate where
  id : ℕ
  sourceContextId : String
  targetContextId : String
  deriving DecidableEq, Repr

def Candidate.endpointKeys (settings : Settings) (row : Candidate) : List String :=
  endpointKeysForContexts settings row.sourceContextId row.targetContextId

def runnableCandidateRows (now : ℕ) (rows : List MigrationRow) : List Candidate :=
  let runnable := rows.filter fun row => row.runnableWork && row.availableLease now
  ((sortedBy MigrationRow.createdAt runnable).take 50).map fun row =>
    ⟨row.id, row.sourceContextId, row.targetContextId⟩

def activeEndpointUsage (settings : Settings) (now : ℕ) (rows : List MigrationRow) (key : String) :
    ℕ :=
  (rows.filter fun row => row.runnableWork && row.leaseHeld now).countP fun row =>
    key ∈ row.endpointKeys settings

/-- The rows the guarded update of a claim matches. -/
def claimable (migrationId now : ℕ) (row : MigrationRow) : Bool :=
  row.id = migrationId && row.runnableWork && row.availableLease now

/-- The update of a claim; `none` when it does not match exactly one row. -/
def claimMigrationLease (migrationId : ℕ) (workerId : String) (now leaseUntil : ℕ)
    (rows : List MigrationRow) : Option (List MigrationRow) :=
  if rows.countP (claimable migrationId now) = 1 then
    some (rows.map fun row =>
      if claimable migrationId now row then
        { row with
          workerLeaseOwner := some workerId
          workerLeaseUntil := some leaseUntil
          progress := .claimed }
      else row)
  else none

/-- The ids the recheck ranks for one endpoint, oldest migration first. -/
def rankedIds (settings : Settings) (now : ℕ) (rows : List MigrationRow) (key : String) : List ℕ :=
  let leased := rows.filter fun row => row.runnableWork && row.leaseHeld now
  ((sortedBy MigrationRow.age leased).filter fun row => key ∈ row.endpointKeys settings).map
    MigrationRow.id

def claimedMigrationWithinEndpointLimit (settings : Settings) (now : ℕ) (rows : List MigrationRow)
    (migration : Candidate) : Bool :=
  (migration.endpointKeys settings).all fun key =>
    migration.id ∈ rankedIds settings now rows key &&
      (rankedIds settings now rows key).idxOf migration.id < settings.maxActivePerEndpoint

def releaseMigrationLease (migrationId : ℕ) (workerId : String) (row : MigrationRow) :
    MigrationRow :=
  if row.id = migrationId ∧ row.workerLeaseOwner = some workerId then
    { row with workerLeaseOwner := none, workerLeaseUntil := none, progress := .unclaimed }
  else row

/-- The rows a lease renewal matches. It does not ask whether the lease has expired. -/
def renewable (migrationId : ℕ) (workerId : String) (row : MigrationRow) : Bool :=
  row.id = migrationId && row.workerLeaseOwner = some workerId &&
    (row.status.active || row.preparationStatus = .checking || row.maintenanceStatus.busy)

def renewMigrationLease (migrationId : ℕ) (workerId : String) (now leaseSeconds : ℕ)
    (row : MigrationRow) : MigrationRow :=
  if renewable migrationId workerId row then
    { row with workerLeaseUntil := some (now + max 15 leaseSeconds) }
  else row

/-! ## The claim of one worker -/

structure ClaimLocals where
  now : ℕ
  leaseUntil : ℕ
  endpointUsage : String → ℕ := fun _ => 0
  candidates : List Candidate := []

/-- Where a worker stands in `claim_next_runnable_migration_id`. -/
inductive ClaimPhase
  | idle
  | readUsage (locals : ClaimLocals)
  | readCandidates (locals : ClaimLocals)
  | nextCandidate (locals : ClaimLocals)
  | readRecheckClock (locals : ClaimLocals) (migration : Candidate)
  | recheck (locals : ClaimLocals) (migration : Candidate) (now : ℕ)
  | release (locals : ClaimLocals) (migration : Candidate)
  | readUsageClock (locals : ClaimLocals)
  | rereadUsage (locals : ClaimLocals) (now : ℕ)

/-- The claim of `migration` by `workerId` returned. -/
def markReturned (migrationId : ℕ) (workerId : String) (row : MigrationRow) : MigrationRow :=
  if row.id = migrationId ∧ row.workerLeaseOwner = some workerId ∧ row.progress = .claimed then
    { row with progress := .returned }
  else row

def endpointSaturated (settings : Settings) (usage : String → ℕ) (row : Candidate) : Bool :=
  (row.endpointKeys settings).any fun key => settings.maxActivePerEndpoint ≤ usage key

/-- The next statement of a claim: the phase after it and the table it leaves. -/
def advanceClaim (settings : Settings) (clock : ℕ) (workerId : String) (rows : List MigrationRow) :
    ClaimPhase → ClaimPhase × List MigrationRow
  | .idle => (.idle, rows)
  | .readUsage locals =>
    (.readCandidates { locals with
      endpointUsage := activeEndpointUsage settings locals.now rows }, rows)
  | .readCandidates locals =>
    (.nextCandidate { locals with candidates := runnableCandidateRows locals.now rows }, rows)
  | .nextCandidate locals =>
    match locals.candidates with
    | [] => (.idle, rows)
    | row :: candidates =>
      let locals := { locals with candidates := candidates }
      if endpointSaturated settings locals.endpointUsage row then (.nextCandidate locals, rows)
      else match claimMigrationLease row.id workerId locals.now locals.leaseUntil rows with
        | some claimed => (.readRecheckClock locals row, claimed)
        | none => (.nextCandidate locals, rows)
  | .readRecheckClock locals migration => (.recheck locals migration clock, rows)
  | .recheck locals migration now =>
    if claimedMigrationWithinEndpointLimit settings now rows migration then
      (.idle, rows.map (markReturned migration.id workerId))
    else (.release locals migration, rows)
  | .release locals migration =>
    (.readUsageClock locals, rows.map (releaseMigrationLease migration.id workerId))
  | .readUsageClock locals => (.rereadUsage locals clock, rows)
  | .rereadUsage locals now =>
    (.nextCandidate { locals with endpointUsage := activeEndpointUsage settings now rows }, rows)

/-! ## Workers and the table -/

structure State where
  clock : ℕ
  nextId : ℕ
  rows : List MigrationRow
  claims : String → ClaimPhase

def State.init (clock : ℕ) : State := ⟨clock, 0, [], fun _ => .idle⟩

inductive Event
  | tick
  /-- A new draft; its creation time is the clock of the process that stores it. -/
  | create (createdAt : ℕ) (sourceContextId targetContextId : String)
  | delete (migrationId : ℕ)
  /-- A command or a worker moves the statuses, in any way. -/
  | setStatus (migrationId : ℕ) (status : MigrationStatus) (preparationStatus : PreparationStatus)
      (maintenanceStatus : MaintenanceStatus)
  /-- A command or the end of a run gives the lease back. -/
  | clearLease (migrationId : ℕ)
  /-- `claim_next_preparation_id` takes an available lease. -/
  | claimPreparation (migrationId : ℕ) (workerId : String) (now leaseSeconds : ℕ)
  | renew (migrationId : ℕ) (workerId : String) (now leaseSeconds : ℕ)
  | startClaim (workerId : String) (leaseSeconds : ℕ)
  | advance (workerId : String)
  | crash (workerId : String)
  deriving DecidableEq, Repr

def setPhase (workerId : String) (phase : ClaimPhase) (claims : String → ClaimPhase) :
    String → ClaimPhase :=
  fun worker => if worker = workerId then phase else claims worker

def setStatuses (migrationId : ℕ) (status : MigrationStatus) (preparation : PreparationStatus)
    (maintenance : MaintenanceStatus) (row : MigrationRow) : MigrationRow :=
  if row.id = migrationId then
    { row with
      status := status, preparationStatus := preparation, maintenanceStatus := maintenance }
  else row

def clearLease (migrationId : ℕ) (row : MigrationRow) : MigrationRow :=
  if row.id = migrationId then
    { row with workerLeaseOwner := none, workerLeaseUntil := none, progress := .unclaimed }
  else row

def claimPreparation (migrationId : ℕ) (workerId : String) (now leaseSeconds : ℕ)
    (row : MigrationRow) : MigrationRow :=
  if row.id = migrationId ∧ row.status = .draft ∧ row.preparationStatus = .checking ∧
      row.availableLease now = true then
    { row with
      workerLeaseOwner := some workerId
      workerLeaseUntil := some (now + max 15 leaseSeconds)
      progress := .unclaimed }
  else row

/-- One step of the system; `none` when the event cannot happen. Every reading of the clock that a
statement uses was taken before it. -/
def step (settings : Settings) (s : State) : Event → Option State
  | .tick => some { s with clock := s.clock + 1 }
  | .create createdAt sourceContextId targetContextId =>
    some { s with
      nextId := s.nextId + 1
      rows := s.rows ++ [{
        id := s.nextId
        createdAt := createdAt
        sourceContextId := sourceContextId
        targetContextId := targetContextId }] }
  | .delete migrationId => some { s with rows := s.rows.filter fun row => row.id ≠ migrationId }
  | .setStatus migrationId status preparation maintenance =>
    some { s with rows := s.rows.map (setStatuses migrationId status preparation maintenance) }
  | .clearLease migrationId => some { s with rows := s.rows.map (clearLease migrationId) }
  | .claimPreparation migrationId workerId now leaseSeconds =>
    if now ≤ s.clock then
      some { s with rows := s.rows.map (claimPreparation migrationId workerId now leaseSeconds) }
    else none
  | .renew migrationId workerId now leaseSeconds =>
    if now ≤ s.clock then
      some { s with rows := s.rows.map (renewMigrationLease migrationId workerId now leaseSeconds) }
    else none
  | .startClaim workerId leaseSeconds =>
    if workerId = "" then none
    else match s.claims workerId with
      | .idle =>
        let locals := { now := s.clock, leaseUntil := s.clock + max 15 leaseSeconds }
        some { s with claims := setPhase workerId (.readUsage locals) s.claims }
      | _ => none
  | .advance workerId =>
    let (phase, rows) := advanceClaim settings s.clock workerId s.rows (s.claims workerId)
    some { s with rows := rows, claims := setPhase workerId phase s.claims }
  | .crash workerId => some { s with claims := setPhase workerId .idle s.claims }

end Scheduling
end BucketReef

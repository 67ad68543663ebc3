import BucketReef.Migration.Commands
import BucketReef.Migration.RunMigration

/-!
# The system

One migration: the commands of its operator, the clock, the heartbeats of the workers, and the
workers that claim it and run as threads over the shared rows and buckets. A worker can crash before
any of its operations.
-/

namespace BucketReef
namespace Migration

open Effects

inductive Event
  | tick
  | command (command : Command)
  /-- `_renew_migration_lease` by the heartbeat of a worker. -/
  | heartbeat (workerId : String) (leaseSeconds : ℕ)
  deriving DecidableEq, Repr

inductive Job
  | transfer (workerId : String) (leaseSeconds : ℕ)
  | preparation (workerId : String) (leaseSeconds : ℕ)
  deriving DecidableEq, Repr

namespace World

def leaseAvailable (w : World) : Bool :=
  w.migration.workerLeaseUntil.all fun until_ => until_ < w.clock

/-- The rows after a claim. -/
def claimed (w : World) (workerId : String) (leaseSeconds : ℕ) : World :=
  { w with migration := { w.migration with
      workerLeaseOwner := some workerId
      workerLeaseUntil := some (w.clock + max 15 leaseSeconds)
      updatedAt := w.clock } }

def applyEvent (w : World) : Event → Option World
  | .tick => some { w with clock := w.clock + 1 }
  | .command command => w.command command
  | .heartbeat workerId leaseSeconds =>
    if w.migration.workerLeaseOwner = some workerId ∧ w.migration.renewable = true then
      some (w.renewed (max 15 leaseSeconds))
    else none

def startJob (hashing : Hashing) (w : World) : Job → Option (World × Session × Service Unit)
  | .transfer workerId leaseSeconds =>
    if (w.migration.status.active || w.migration.maintenanceStatus.busy) && w.leaseAvailable then
      some (w.claimed workerId leaseSeconds, { me := workerId },
        processMigration w.config workerId (max 15 leaseSeconds) hashing)
    else none
  | .preparation workerId leaseSeconds =>
    if w.migration.status = .draft && w.migration.preparationStatus = .checking &&
        w.leaseAvailable then
      some (w.claimed workerId leaseSeconds, { me := workerId },
        processPreparation w.config workerId)
    else none

end World

def system (hashing : Hashing) : System Op Reply Error World Session Choice Event Job where
  toMachine := machine
  apply event w := w.applyEvent event
  start job w := w.startJob hashing job

abbrev SystemState : Type := State Op Reply Error World Session
abbrev SystemLabel : Type := Label Choice Event Job

/-- A worker only starts when no other one is running. -/
def Alone (st : SystemState) : SystemLabel → Bool
  | .start _ => st.threads.isEmpty
  | _ => st.threads.length ≤ 1

/-- The operation a label executes, and the session it is executed in. -/
def acting (st : SystemState) : SystemLabel → Option (Op × Session)
  | .advance i _ => st.threads[i]?.bind fun t => t.pending.map fun op => (op, t.session)
  | _ => none

/-- One worker at a time, with conditions on the events and on the operations. -/
def Fenced (event : World → Event → Bool) (allowed : Op → World → Session → Bool)
    (st : SystemState) (label : SystemLabel) : Bool :=
  Alone st label &&
    (match label with
      | .event e => event st.world e
      | _ => true) &&
    (acting st label).all fun acted => allowed acted.1 st.world acted.2

/-- A migration as `create_migration` leaves it: nothing has been touched yet. -/
structure Initial (w : World) : Prop where
  migration : w.migration = { totalItems := w.config.itemIds.length }
  items : w.items = fun _ => {}
  original : ∀ i, (w.buckets (.source i)).policy = w.originalPolicy i
  installed : ∀ i, w.installedPolicy i = none

/-- The world in which a migration is created, when no destination exists yet. -/
def World.created (config : Configuration) (original : ℕ → Option Policy) : World where
  config := config
  migration := { totalItems := config.itemIds.length }
  buckets := fun
    | .source i => { policy := original i }
    | _ => { present := false }
  originalPolicy := original

theorem initial_created (config : Configuration) (original : ℕ → Option Policy) :
    Initial (.created config original) := ⟨rfl, rfl, fun _ => rfl, fun _ => rfl⟩

/-- The only worker executes its next `n` operations, without faults. -/
def advances (n : ℕ) : List SystemLabel := List.replicate n (.advance 0 {})

theorem Fenced.alone {event : World → Event → Bool} {allowed : Op → World → Session → Bool}
    {st : SystemState} {label : SystemLabel} (h : Fenced event allowed st label = true) :
    Alone st label = true := by
  simp only [Fenced, Bool.and_eq_true] at h
  exact h.1.1

theorem Fenced.event {event : World → Event → Bool} {allowed : Op → World → Session → Bool}
    {st : SystemState} {e : Event} (h : Fenced event allowed st (.event e) = true) :
    event st.world e = true := by
  simp only [Fenced, Bool.and_eq_true] at h
  exact h.1.2

theorem Fenced.acting {event : World → Event → Bool} {allowed : Op → World → Session → Bool}
    {st : SystemState} {i : ℕ} {choice : Choice} {t : Thread Op Reply Error Session} {op : Op}
    (h : Fenced event allowed st (.advance i choice) = true) (hthread : st.threads[i]? = some t)
    (hop : t.pending = some op) : allowed op st.world t.session = true := by
  simp only [Fenced, Bool.and_eq_true, Migration.acting, hthread, hop, Option.bind_some,
    Option.map_some, Option.all_some] at h
  exact h.2

/-- What one worker at a time has to show for its rules to hold in every run. -/
theorem sound_of_fenced {hashing : Hashing} {R : Rules Op World Session}
    {event : World → Event → Bool} {allowed : Op → World → Session → Bool}
    (hallowed : ∀ op w s, allowed op w s = true → R.allowed op w s)
    (hevent : ∀ {w e w'}, R.inv w → event w e = true → w.applyEvent e = some w' →
      R.rely w w' ∧ R.inv w')
    (hstart : ∀ {w job w' session prog}, R.inv w →
      w.startJob hashing job = some (w', session, prog) →
        R.rely w w' ∧ R.inv w' ∧ Safe (system hashing) R ⟨session, prog⟩ w') :
    Sound (system hashing) R fun st label => Fenced event allowed st label = true where
  event hinv hok h := hevent hinv (Fenced.event hok) h
  start hinv _ h := hstart hinv h
  advance hok hthread hprog := hallowed _ _ _ (Fenced.acting hok hthread (by simp [Thread.pending, hprog]))
  shared _ hok _ := .inl (by simpa [Alone] using Fenced.alone hok)

end Migration
end BucketReef

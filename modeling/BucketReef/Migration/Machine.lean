import BucketReef.Effects.System
import BucketReef.Migration.Records
import Mathlib.Logic.Function.Basic

/-!
# The database and the object store as a machine

The operations a worker performs: SQL statements on the rows of one migration, through the ORM
objects of its session, and calls to the object store. A call may fail before or after it took
effect. What the model leaves open (listings, probes of a bucket, whether the creator still has
access) is answered by the environment's choice.
-/

namespace BucketReef
namespace Migration

open Effects

inductive Error
  | leaseLost | permission | failure (message : String)
  deriving DecidableEq, Repr

structure World where
  clock : ℕ := 0
  config : Configuration
  migration : BucketMigration := {}
  items : ℕ → BucketMigrationItem := fun _ => {}
  buckets : BucketRef → Bucket
  /-- The source policies before the migration touched them; not stored anywhere. -/
  originalPolicy : ℕ → Option Policy
  /-- The policies `copy_bucket_settings` installed; not stored anywhere. -/
  installedPolicy : ℕ → Option Policy := fun _ => none

structure Session where
  me : String
  migration : Option (Loaded BucketMigration) := none
  items : ℕ → Option (Loaded BucketMigrationItem) := fun _ => none
  /-- The worker has been told that its lease is lost. -/
  lostLease : Bool := false

def fresh {α : Type} (row : α) : Loaded α := ⟨row, row⟩

namespace World

def setBucket (w : World) (b : BucketRef) (bucket : Bucket) : World :=
  { w with buckets := Function.update w.buckets b bucket }

def setPolicy (w : World) (b : BucketRef) (policy : Option Policy) : World :=
  w.setBucket b { w.buckets b with policy := policy }

def policy (w : World) (b : BucketRef) : Option Policy := (w.buckets b).policy

/-- The rows after a commit of the session. -/
def committed (w : World) (s : Session) : World :=
  { w with
    migration := match s.migration with
      | none => w.migration
      | some object => object.base.merge object.current w.migration
    items := fun i => match s.items i with
      | none => w.items i
      | some object => object.base.merge object.current (w.items i) }

/-- The worker holds a lease that has not expired. -/
def leaseValid (w : World) (me : String) : Bool :=
  w.migration.workerLeaseOwner = some me &&
    w.migration.workerLeaseUntil.any fun until_ => w.clock ≤ until_

end World

namespace Session

/-- Every object is expired: the next access loads it again. -/
def expired (s : Session) : Session := { s with migration := none, items := fun _ => none }

def loadedMigration (s : Session) (w : World) : Loaded BucketMigration :=
  s.migration.getD (fresh w.migration)

def loadedItem (s : Session) (w : World) (i : ℕ) : Loaded BucketMigrationItem :=
  (s.items i).getD (fresh (w.items i))

def withItem (s : Session) (i : ℕ) (object : Loaded BucketMigrationItem) : Session :=
  { s with items := Function.update s.items i (some object) }

end Session

/-- An entry of the merged listing of both buckets. -/
inductive DiffEntry
  | onlySource (key : String) | onlyTarget (key : String) | matched | different (key : String)
  deriving DecidableEq, Repr

inductive Fault
  | none | before | after
  deriving DecidableEq, Repr

structure Choice where
  fault : Fault := .none
  answer : Bool := true
  number : ℕ := 0
  entries : List DiffEntry := []
  watermark : Option Versions.Watermark := none
  deriving DecidableEq, Repr

/-- The columns `_control_state` reads, past the ORM, and the clock. -/
structure ControlRow where
  workerLeaseOwner : Option String
  workerLeaseUntil : Option ℕ
  status : MigrationStatus
  now : ℕ
  deriving DecidableEq, Repr

inductive Op
  | getMigration
  | refreshMigration
  /-- An assignment, at the given time. -/
  | setMigration (f : ℕ → BucketMigration → BucketMigration)
  | getItem (i : ℕ)
  | setItem (i : ℕ) (f : ℕ → BucketMigrationItem → BucketMigrationItem)
  | commit
  | rollback
  | newSession
  | assertLease
  | controlRow
  /-- The guarded update of `_renew_migration_lease` and its commit or rollback. -/
  | renewLease (leaseSeconds : ℕ)
  /-- The guarded update to `running` and its commit. -/
  | markRunning
  | ask (question : String)
  | choose (what : String)
  | diffEntries
  | replayedWatermark
  /-- A call that touches neither policies nor the existence of a bucket. -/
  | remote (call : String)
  | headBucket (b : BucketRef)
  | createBucket (b : BucketRef)
  | deleteBucket (b : BucketRef)
  | getPolicy (b : BucketRef)
  | putPolicy (b : BucketRef) (policy : Policy)
  | deletePolicy (b : BucketRef)
  /-- The put or delete of `_copy_policy` on the destination. -/
  | installPolicy (i : ℕ) (policy : Option Policy)
  | listHistory (b : BucketRef)
  | objectTags (b : BucketRef) (key versionId : String)
  | objectContent (b : BucketRef) (key versionId : String)
  | deleteObject (b : BucketRef) (key : String) (versionId : Option String)
  /-- The item loop starts on an item. -/
  | enterItem (i : ℕ)
  /-- The item loop runs the handler of a step. -/
  | enterHandler (i : ℕ) (step : ItemStep)

def Reply : Op → Type
  | .getMigration => BucketMigration
  | .getItem _ => BucketMigrationItem
  | .controlRow => ControlRow
  | .renewLease _ | .ask _ => Bool
  | .choose _ => ℕ
  | .diffEntries => List DiffEntry
  | .replayedWatermark => Option Versions.Watermark
  | .headBucket _ => Option Bool
  | .getPolicy _ => Option Policy
  | .listHistory _ => List StoredVersion
  | .objectTags _ _ _ => List (String × String)
  | .objectContent _ _ _ => String
  | _ => Unit

/-- A program of the service. -/
abbrev Service (α : Type) : Type := Prog Op Reply Error α

/-- The statuses in which `_renew_migration_lease` extends a lease. -/
def BucketMigration.renewable (row : BucketMigration) : Bool :=
  row.status.active || row.preparationStatus = .checking || row.maintenanceStatus.busy

/-- A write that fails before or after it took effect, or succeeds. -/
def faulty {α : Type} (choice : Choice) (before after : World × Session) (a : α) :
    World × Session × Except Error α :=
  match choice.fault with
  | .none => (after.1, after.2, .ok a)
  | .before => (before.1, before.2, .error (.failure "call failed"))
  | .after => (after.1, after.2, .error (.failure "call failed"))

/-- A read: it may fail. -/
def reading {α : Type} (choice : Choice) (w : World) (s : Session) (a : α) :
    World × Session × Except Error α :=
  match choice.fault with
  | .none => (w, s, .ok a)
  | _ => (w, s, .error (.failure "call failed"))

/-- A call on a bucket; it fails without effect when the bucket is missing. -/
def onBucket {α : Type} (choice : Choice) (w : World) (s : Session) (b : BucketRef) (after : World)
    (a : α) : World × Session × Except Error α :=
  if (w.buckets b).present then faulty choice (w, s) (after, s) a
  else (w, s, .error (.failure "no such bucket"))

def World.renewed (w : World) (leaseSeconds : ℕ) : World :=
  { w with migration := { w.migration with
      workerLeaseUntil := some (w.clock + leaseSeconds), updatedAt := w.clock } }

/-- The update of `_prepare_migration_run`, where it matches. -/
def World.markedRunning (w : World) : World :=
  if w.migration.status = .queued ∨ w.migration.status = .running then
    { w with migration := { w.migration with status := .running } }
  else w

/-- A new bucket has no policy. -/
def World.bucketCreated (w : World) : BucketRef → World
  | .target i =>
    { w.setBucket (.target i) {} with installedPolicy := Function.update w.installedPolicy i none }
  | b => w.setBucket b {}

/-- Remove an object version; without a version id, the newest content gets a delete marker. -/
def deleteVersion (key : String) (versionId : Option String) (versioned : Bool)
    (history : List StoredVersion) : List StoredVersion :=
  match versionId with
  | some versionId => history.filter fun v => ¬ (v.key = key ∧ v.versionId = versionId)
  | none =>
    if versioned then
      history ++ [{ key := key, versionId := "", isDeleteMarker := true, byPurge := true }]
    else history.filter fun v => ¬ v.key = key

def exec : (op : Op) → Choice → World → Session → World × Session × Except Error (Reply op)
  | .getMigration, _, w, s =>
    (w, { s with migration := some (s.loadedMigration w) }, .ok (s.loadedMigration w).current)
  | .refreshMigration, _, w, s => (w, { s with migration := some (fresh w.migration) }, .ok ())
  | .setMigration f, _, w, s =>
    let object := s.loadedMigration w
    (w, { s with migration := some { object with current := f w.clock object.current } }, .ok ())
  | .getItem i, _, w, s => (w, s.withItem i (s.loadedItem w i), .ok (s.loadedItem w i).current)
  | .setItem i f, _, w, s =>
    let object := s.loadedItem w i
    (w, s.withItem i { object with current := f w.clock object.current }, .ok ())
  | .commit, choice, w, s => faulty choice (w, s.expired) (w.committed s, s.expired) ()
  | .rollback, _, w, s => (w, s.expired, .ok ())
  | .newSession, _, w, s => (w, s.expired, .ok ())
  | .assertLease, _, w, s =>
    if w.leaseValid s.me then (w, s, .ok ()) else (w, { s with lostLease := true }, .error .leaseLost)
  | .controlRow, _, w, s =>
    (w, { s with lostLease := s.lostLease || w.migration.workerLeaseOwner ≠ some s.me },
      .ok ⟨w.migration.workerLeaseOwner, w.migration.workerLeaseUntil, w.migration.status, w.clock⟩)
  | .renewLease leaseSeconds, choice, w, s =>
    if w.migration.workerLeaseOwner = some s.me ∧ w.migration.renewable = true then
      faulty choice (w, s.expired) ((w.renewed leaseSeconds).committed s, s.expired) true
    else (w, { s.expired with lostLease := true }, .ok false)
  | .markRunning, choice, w, s =>
    faulty choice (w, s.expired) (w.markedRunning.committed s, s.expired) ()
  | .ask _, choice, w, s => reading choice w s choice.answer
  | .choose _, choice, w, s => reading choice w s choice.number
  | .diffEntries, choice, w, s => reading choice w s choice.entries
  | .replayedWatermark, choice, w, s => reading choice w s choice.watermark
  | .remote _, choice, w, s => reading choice w s ()
  | .headBucket b, choice, w, s =>
    reading choice w s (if choice.answer then some (w.buckets b).present else none)
  | .createBucket b, choice, w, s =>
    if (w.buckets b).present then (w, s, .error (.failure "bucket already exists"))
    else faulty choice (w, s) (w.bucketCreated b, s) ()
  | .deleteBucket b, choice, w, s =>
    onBucket choice w s b (w.setBucket b { present := false }) ()
  | .getPolicy b, choice, w, s =>
    if (w.buckets b).present then reading choice w s (w.policy b)
    else (w, s, .error (.failure "no such bucket"))
  | .putPolicy b policy, choice, w, s => onBucket choice w s b (w.setPolicy b (some policy)) ()
  | .deletePolicy b, choice, w, s => onBucket choice w s b (w.setPolicy b none) ()
  | .installPolicy i policy, choice, w, s =>
    onBucket choice w s (.target i)
      { w.setPolicy (.target i) policy with
        installedPolicy := Function.update w.installedPolicy i policy } ()
  | .listHistory b, choice, w, s => reading choice w s (w.buckets b).history
  | .objectTags b key versionId, choice, w, s =>
    reading choice w s (((w.buckets b).history.find? fun v =>
      v.key = key ∧ v.versionId = versionId).elim [] StoredVersion.tags)
  | .objectContent b key versionId, choice, w, s =>
    reading choice w s (((w.buckets b).history.find? fun v =>
      v.key = key ∧ v.versionId = versionId).elim "" StoredVersion.content)
  | .deleteObject b key versionId, choice, w, s =>
    onBucket choice w s b (w.setBucket b { w.buckets b with
      history := deleteVersion key versionId choice.answer (w.buckets b).history }) ()
  | .enterItem _, _, w, s => (w, s, .ok ())
  | .enterHandler _ _, _, w, s => (w, s, .ok ())

/-- The machine of one migration. -/
def machine : Machine Op Reply Error World Session Choice where
  exec := exec

end Migration
end BucketReef

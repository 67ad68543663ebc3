import BucketReef.Migration.WorkerParts

/-!
# What an operation leaves alone

Only commits change the rows, and only some operations touch the ORM object of the migration. A
commit either has no effect or merges the objects of the session into the rows.
-/

namespace BucketReef
namespace Migration

open Effects

/-- Operations that end with a commit of the session. -/
def Op.commits : Op → Bool
  | .commit | .renewLease _ | .markRunning => true
  | _ => false

/-- Operations that load, change or expire the object of the migration. -/
def Op.touchesMigration : Op → Bool
  | .getMigration | .refreshMigration | .setMigration _ | .commit | .rollback | .newSession
  | .renewLease _ | .markRunning => true
  | _ => false

section Faults

variable {α : Type} {choice : Choice} {w : World} {s : Session}

@[simp] theorem reading_world (a : α) : (reading choice w s a).1 = w := by
  unfold reading
  split <;> rfl

@[simp] theorem reading_session (a : α) : (reading choice w s a).2.1 = s := by
  unfold reading
  split <;> rfl

/-- A write that may fail leaves one of the two worlds. -/
theorem faulty_cases (choice : Choice) (before after : World × Session) (a : α) :
    ((faulty choice before after a).1 = before.1 ∧ (faulty choice before after a).2.1 = before.2) ∨
      ((faulty choice before after a).1 = after.1 ∧ (faulty choice before after a).2.1 = after.2) := by
  unfold faulty
  split
  · exact .inr ⟨rfl, rfl⟩
  · exact .inl ⟨rfl, rfl⟩
  · exact .inr ⟨rfl, rfl⟩

theorem onBucket_cases (choice : Choice) (w : World) (s : Session) (b : BucketRef) (after : World) (a : α) :
    (onBucket choice w s b after a).2.1 = s ∧
      ((onBucket choice w s b after a).1 = w ∨ (onBucket choice w s b after a).1 = after) := by
  unfold onBucket
  split
  · rcases faulty_cases choice (w, s) (after, s) a with h | h
    · exact ⟨h.2, .inl h.1⟩
    · exact ⟨h.2, .inr h.1⟩
  · exact ⟨rfl, .inl rfl⟩

end Faults

variable {choice : Choice} {w : World} {s : Session}

/-- Operations that do not touch it leave the session its object of the migration. -/
theorem exec_session_migration {op : Op} (hop : op.touchesMigration = false) :
    (exec op choice w s).2.1.migration = s.migration := by
  have hbucket {α : Type} {b : BucketRef} {after : World} (a : α) :
      (onBucket choice w s b after a).2.1.migration = s.migration :=
    congrArg Session.migration (onBucket_cases choice w s b after a).1
  cases op with
  | getMigration => cases hop
  | refreshMigration => cases hop
  | setMigration f => cases hop
  | commit => cases hop
  | rollback => cases hop
  | newSession => cases hop
  | renewLease leaseSeconds => cases hop
  | markRunning => cases hop
  | assertLease =>
    simp only [exec]
    split <;> rfl
  | createBucket b =>
    simp only [exec]
    split
    · rfl
    · rcases faulty_cases choice (w, s) (w.bucketCreated b, s) () with h | h
      · exact congrArg Session.migration h.2
      · exact congrArg Session.migration h.2
  | getPolicy b =>
    simp only [exec]
    split
    · exact congrArg Session.migration (reading_session _)
    · rfl
  | deleteBucket b => exact hbucket ()
  | putPolicy b policy => exact hbucket ()
  | deletePolicy b => exact hbucket ()
  | installPolicy i policy => exact hbucket ()
  | deleteObject b key versionId => exact hbucket ()
  | _ => first
    | rfl
    | exact congrArg Session.migration (reading_session _)

/-- Every operation leaves the world or one other world. -/
theorem exec_world (choice : Choice) (w : World) (s : Session) (op : Op) : (exec op choice w s).1 = w ∨ (exec op choice w s).1 =
    match op with
    | .commit => w.committed s
    | .renewLease leaseSeconds => (w.renewed leaseSeconds).committed s
    | .markRunning => w.markedRunning.committed s
    | .createBucket b => w.bucketCreated b
    | .deleteBucket b => w.setBucket b { present := false }
    | .putPolicy b policy => w.setPolicy b (some policy)
    | .deletePolicy b => w.setPolicy b none
    | .installPolicy i policy =>
      { w.setPolicy (.target i) policy with
        installedPolicy := Function.update w.installedPolicy i policy }
    | .deleteObject b key versionId => w.setBucket b { w.buckets b with
        history := deleteVersion key versionId choice.answer (w.buckets b).history }
    | _ => w := by
  have hbucket {α : Type} {b : BucketRef} {after : World} (a : α) :
      (onBucket choice w s b after a).1 = w ∨ (onBucket choice w s b after a).1 = after :=
    (onBucket_cases choice w s b after a).2
  cases op with
  | commit =>
    exact (faulty_cases choice (w, s.expired) (w.committed s, s.expired) ()).imp And.left And.left
  | renewLease leaseSeconds =>
    simp only [exec]
    split
    · exact (faulty_cases choice (w, s.expired) ((w.renewed leaseSeconds).committed s, s.expired)
        true).imp And.left And.left
    · exact .inl rfl
  | markRunning =>
    exact (faulty_cases choice (w, s.expired) (w.markedRunning.committed s, s.expired) ()).imp
      And.left And.left
  | assertLease =>
    simp only [exec]
    split <;> exact .inl rfl
  | createBucket b =>
    simp only [exec]
    split
    · exact .inl rfl
    · exact (faulty_cases choice (w, s) (w.bucketCreated b, s) ()).imp And.left And.left
  | getPolicy b =>
    simp only [exec]
    split
    · exact .inl (reading_world _)
    · exact .inl rfl
  | deleteBucket b => exact hbucket ()
  | putPolicy b policy => exact hbucket ()
  | deletePolicy b => exact hbucket ()
  | installPolicy i policy => exact hbucket ()
  | deleteObject b key versionId => exact hbucket ()
  | _ => first
    | exact .inl rfl
    | exact .inl (reading_world _)

/-- Without a commit the row of the migration stays as it is. -/
theorem exec_migration {op : Op} (hop : op.commits = false) :
    (exec op choice w s).1.migration = w.migration := by
  rcases exec_world choice w s op with h | h
  · rw [h]
  · rw [h]
    cases op with
    | commit => cases hop
    | renewLease leaseSeconds => cases hop
    | markRunning => cases hop
    | createBucket b => cases b <;> rfl
    | _ => rfl

/-- Commits and rollbacks expire every object of the session. -/
theorem exec_expires (op : Op) (h : op.commits = true ∨ op = .rollback ∨ op = .newSession) :
    (exec op choice w s).2.1.migration = none ∧ (exec op choice w s).2.1.items = fun _ => none := by
  have hfaulty {α : Type} {before after : World} (a : α) :
      (faulty choice (before, s.expired) (after, s.expired) a).2.1 = s.expired := by
    rcases faulty_cases choice (before, s.expired) (after, s.expired) a with h | h <;> rw [h.2]
  have hexpired {s' : Session} (h : s' = s.expired) :
      s'.migration = none ∧ s'.items = fun _ => none := by
    rw [h]
    exact ⟨rfl, rfl⟩
  cases op with
  | commit => exact hexpired (hfaulty ())
  | renewLease leaseSeconds =>
    simp only [exec]
    split
    · exact hexpired (hfaulty true)
    · exact ⟨rfl, rfl⟩
  | markRunning => exact hexpired (hfaulty ())
  | rollback => exact ⟨rfl, rfl⟩
  | newSession => exact ⟨rfl, rfl⟩
  | _ => rcases h with h | h | h <;> cases h

/-- A read answers with its value or fails; it changes nothing. -/
theorem wp_reading {R : Rules Op World Session} {op : Op} {value : Choice → World → Reply op}
    (hexec : ∀ choice w s, exec op choice w s = reading choice w s (value choice w))
    {A : World → Session → Prop} {onRet : Reply op → World → Session → Prop}
    {onFail : Error → World → Session → Prop} {w : World} {s : Session} (hA : A w s)
    (hstable : Stable R A) (hrequire : ∀ w s, A w s → R.require op w s)
    (hret : ∀ choice w s, A w s → R.inv w → onRet (value choice w) w s)
    (hfail : ∀ e w s, A w s → onFail e w s) :
    wp machine R (Prog.perform op) onRet onFail w s := by
  refine wp_perform hA hstable fun w s hA hinv => ⟨hrequire w s hA, fun _ choice => ?_⟩
  simp only [machine, hexec, reading_world]
  refine ⟨hinv, ?_⟩
  unfold reading
  cases choice.fault with
  | none => exact hret choice w s hA hinv
  | before => exact hfail _ w s hA
  | after => exact hfail _ w s hA

end Migration
end BucketReef

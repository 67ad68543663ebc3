import BucketReef.Effects.Faults
import Mathlib.Data.Int.Notation

/-!
# Bucket configurations behind remote calls

The versioning, lifecycle, access logging and policy of the buckets of an account, and the helpers that
read and write them. A helper raises when its call fails; the text it raises comes with the failure. A
lifecycle configuration without rules does not exist.
-/

namespace BucketReef
namespace BucketConfigs

open Effects

structure LifecycleRule where
  id : Option String := none
  status : Option String := none
  keyPrefix : Option String := none
  expirationDays : Option ℤ := none
  expiredObjectDeleteMarker : Option Bool := none
  noncurrentDays : Option ℤ := none
  /-- The fields that no code here looks at. -/
  rest : List (String × String) := []
  deriving DecidableEq, Repr

structure LoggingConfig where
  targetBucket : String
  targetPrefix : String
  rest : List (String × String) := []
  deriving DecidableEq, Repr

structure Statement where
  sid : Option String
  effect : String
  principal : List (String × List String)
  action : List String
  resource : List String
  condition : List (String × String × String) := []
  /-- Every other member, and a statement that is not an object. -/
  rest : List (String × String) := []
  deriving DecidableEq, Repr

/-- The shapes of the `Statement` member. -/
inductive StatementMember
  | absent
  | single (statement : Statement)
  | many (statements : List Statement)
  deriving DecidableEq, Repr

structure PolicyDocument where
  version : Option String := none
  statement : StatementMember := .absent
  /-- Every other member. -/
  rest : List (String × String) := []
  deriving DecidableEq, Repr

/-- The stored policy: a document, or a text that is not JSON. -/
inductive BucketPolicy
  | document (document : PolicyDocument)
  | raw (text : String)
  deriving DecidableEq, Repr

structure BucketConfig where
  versioning : Option String := none
  lifecycle : List LifecycleRule := []
  logging : Option LoggingConfig := none
  policy : Option BucketPolicy := none
  hasObjects : Bool := false
  deriving DecidableEq, Repr

inductive Error
  | runtime (message : String)
  | bucketNotEmpty (message : String)
  | forbidden (message : String)
  | notFound (message : String)
  deriving DecidableEq, Repr

/-- The text of an exception. -/
def Error.text : Error → String
  | .runtime message => message
  | .bucketNotEmpty message => message
  | .forbidden message => message
  | .notFound message => message

inductive StoreOp
  | headBucket (bucket : String)
  | createBucket (bucket : String)
  | deleteEmptyBucket (bucket : String)
  /-- `delete_bucket` with `force`. -/
  | purgeAndDelete (bucket : String)
  | getVersioning (bucket : String)
  | setVersioning (bucket : String) (enabled : Bool)
  | getLifecycle (bucket : String)
  | putLifecycle (bucket : String) (rules : List LifecycleRule)
  | deleteLifecycle (bucket : String)
  | getLogging (bucket : String)
  | putLogging (bucket : String) (config : Option LoggingConfig)
  | getPolicy (bucket : String)
  | putPolicy (bucket : String) (policy : BucketPolicy)
  | deletePolicy (bucket : String)
  deriving DecidableEq, Repr

@[reducible] def StoreReply : StoreOp → Type
  | .headBucket _ => Bool
  | .getVersioning _ => Option String
  | .getLifecycle _ => List LifecycleRule
  | .getLogging _ => Option LoggingConfig
  | .getPolicy _ => Option BucketPolicy
  | _ => Unit

abbrev Store := String → Option BucketConfig

def Store.set (store : Store) (bucket : String) (config : Option BucketConfig) : Store :=
  fun other => if other = bucket then config else store other

def missingBucket : Error := .runtime "NoSuchBucket"

/-- Change the configuration of a bucket that exists. -/
def Store.modify (store : Store) (bucket : String) (change : BucketConfig → BucketConfig) :
    Store × Except Error Unit :=
  match store bucket with
  | none => (store, .error missingBucket)
  | some config => (store.set bucket (some (change config)), .ok ())

/-- Remove a part of a configuration; it is no error that the bucket is missing. -/
def Store.remove (store : Store) (bucket : String) (change : BucketConfig → BucketConfig) :
    Store × Except Error Unit :=
  match store bucket with
  | none => (store, .ok ())
  | some config => (store.set bucket (some (change config)), .ok ())

/-- What a call does when it does not fail. -/
def apply : (op : StoreOp) → Store → Store × Except Error (StoreReply op)
  | .headBucket bucket, store => (store, .ok (store bucket).isSome)
  | .createBucket bucket, store =>
    match store bucket with
    | some _ => (store, .error (.runtime "BucketAlreadyExists"))
    | none => (store.set bucket (some {}), .ok ())
  | .deleteEmptyBucket bucket, store =>
    match store bucket with
    | none => (store, .ok ())
    | some config =>
      if config.hasObjects then (store, .error (.bucketNotEmpty s!"Bucket '{bucket}' is not empty."))
      else (store.set bucket none, .ok ())
  | .purgeAndDelete bucket, store =>
    match store bucket with
    | none => (store, .error missingBucket)
    | some _ => (store.set bucket none, .ok ())
  | .getVersioning bucket, store =>
    match store bucket with
    | none => (store, .error missingBucket)
    | some config => (store, .ok config.versioning)
  | .setVersioning bucket enabled, store =>
    store.modify bucket fun config =>
      { config with versioning := some (if enabled then "Enabled" else "Suspended") }
  | .getLifecycle bucket, store =>
    (store, .ok ((store bucket).elim [] BucketConfig.lifecycle))
  | .putLifecycle bucket rules, store =>
    if rules.isEmpty then (store, .error (.runtime "MalformedXML"))
    else store.modify bucket fun config => { config with lifecycle := rules }
  | .deleteLifecycle bucket, store =>
    store.remove bucket fun config => { config with lifecycle := [] }
  | .getLogging bucket, store =>
    match store bucket with
    | none => (store, .error missingBucket)
    | some config => (store, .ok config.logging)
  | .putLogging bucket logging, store =>
    store.modify bucket fun config => { config with logging }
  | .getPolicy bucket, store =>
    (store, .ok ((store bucket).bind BucketConfig.policy))
  | .putPolicy bucket policy, store =>
    store.modify bucket fun config => { config with policy := some policy }
  | .deletePolicy bucket, store =>
    store.remove bucket fun config => { config with policy := none }

@[simp] theorem apply_getVersioning_store (bucket : String) (store : Store) :
    (apply (.getVersioning bucket) store).1 = store := by
  unfold apply
  dsimp only
  split <;> rfl

@[simp] theorem apply_getLogging_store (bucket : String) (store : Store) :
    (apply (.getLogging bucket) store).1 = store := by
  unfold apply
  dsimp only
  split <;> rfl

abbrev StoreProg := Prog StoreOp StoreReply Error

/-! ## Stores -/

@[simp] theorem Store.set_same (store : Store) (bucket : String) (config : Option BucketConfig) :
    store.set bucket config bucket = config := by
  simp [Store.set]

theorem Store.set_other {store : Store} {bucket other : String} {config : Option BucketConfig}
    (h : other ≠ bucket) : store.set bucket config other = store other := by
  simp [Store.set, h]

@[simp] theorem Store.set_set (store : Store) (bucket : String) (config config' : Option BucketConfig) :
    (store.set bucket config).set bucket config' = store.set bucket config' := by
  funext other
  unfold Store.set
  split <;> rfl

/-- Writing back what is there changes nothing. -/
theorem Store.set_self {store : Store} {bucket : String} {config : Option BucketConfig}
    (h : store bucket = config) : store.set bucket config = store := by
  funext other
  unfold Store.set
  split
  · next heq => rw [heq, h]
  · rfl

end BucketConfigs
end BucketReef

import BucketReef.BulkRestore.Listed

/-!
# When a bulk restore is exact

The plan differs from the history of a key in two places: a delete marker that ties with an older object
version, and a state that cannot be determined, which counts as absent.
-/

namespace BucketReef.BulkRestore

variable {bucket : VersionedBucket} {options : Options} {plan : Plan}

/-! ## Executing the plan -/

section Exact

variable {items : List BrowserItem} {key id : String} {version : BrowserObjectVersion}

end Exact

/-! ## The state at the target time -/

section History

variable {targetTime date : ℤ} {history older : List BrowserObjectVersion}
  {entry version : BrowserObjectVersion}

end History

/-! ## Exactness -/

/-- Where the state cannot be determined, the key is not up for deletion, or some older dated version is
there to be restored. -/
def Kept (bucket : VersionedBucket) (options : Options) (items : List BrowserItem) (key : String) :
    Prop :=
  stateAt options.targetTime (bucket.history key) = .undetermined →
    options.deleteMissing = false ∨ ¬Deletable bucket items key ∨
      ∃ version, IsNewest options.targetTime (bucket.history key) version ∧
        filled version.versionId ≠ none

end BucketReef.BulkRestore

import BucketReef.Versions.Comparison
import Mathlib.Data.List.Basic
import Mathlib.Order.Basic

/-!
# The diff of the current objects of two buckets

Both listings are merged by key into the entries of the diff. A listing is a list of objects in
increasing order of their keys; an object is its content and the entity tag S3 reports for it. The
content, its size and its MD5 digest are left open.
-/

namespace BucketReef
namespace CurrentObjects

open Versions

/-- What the diff needs to know of the content of an object. -/
structure ContentKind where
  Content : Type
  size : Content → ℕ
  md5 : Content → String

variable {kind : ContentKind}

/-- A current object. The digest its entity tag spells, if any, is that of its content. -/
structure StoredObject (kind : ContentKind) where
  key : String
  content : kind.Content
  etag : Option String
  tagged : ∀ digest, etagMd5 (normalizeEtag etag) = some digest → digest = kind.md5 content

structure BucketObjectEntry where
  key : String
  size : ℕ
  etag : Option String
  deriving DecidableEq, Repr

/-- What `_iter_bucket_objects` yields for an object. -/
def StoredObject.entry (object : StoredObject kind) : BucketObjectEntry :=
  ⟨object.key, kind.size object.content, normalizeEtag object.etag⟩

inductive DiffKind
  | onlySource | onlyTarget | matched | different
  deriving DecidableEq, Repr

inductive DiffCompareBy
  | presence | md5 | size
  deriving DecidableEq, Repr

structure BucketDiffEntry where
  kind : DiffKind
  key : String
  sourceSize : ℕ
  targetSize : ℕ
  sourceEtag : Option String
  targetEtag : Option String
  compareBy : DiffCompareBy
  deriving DecidableEq, Repr

/-- How two entries are compared, and whether they are equal. -/
def compareContents (source target : BucketObjectEntry) : DiffCompareBy × Bool :=
  match etagMd5 source.etag, etagMd5 target.etag with
  | some sourceMd5, some targetMd5 => (.md5, sourceMd5 = targetMd5)
  | _, _ => (.size, source.size = target.size)

def compareCurrentObjectEntries (source target : BucketObjectEntry) : BucketDiffEntry where
  kind := if (compareContents source target).2 then .matched else .different
  key := source.key
  sourceSize := source.size
  targetSize := target.size
  sourceEtag := source.etag
  targetEtag := target.etag
  compareBy := (compareContents source target).1

def onlySourceEntry (source : BucketObjectEntry) : BucketDiffEntry :=
  ⟨.onlySource, source.key, source.size, 0, source.etag, none, .presence⟩

def onlyTargetEntry (target : BucketObjectEntry) : BucketDiffEntry :=
  ⟨.onlyTarget, target.key, 0, target.size, none, target.etag, .presence⟩

/-- One round of `_iter_bucket_diff_entries`: the entry it yields, and what is left of both listings. -/
def nextDiffEntry : List (StoredObject kind) → List (StoredObject kind) →
    Option (BucketDiffEntry × List (StoredObject kind) × List (StoredObject kind))
  | [], [] => none
  | source :: sources, [] => some (onlySourceEntry source.entry, sources, [])
  | [], target :: targets => some (onlyTargetEntry target.entry, [], targets)
  | source :: sources, target :: targets =>
    if source.key < target.key then
      some (onlySourceEntry source.entry, sources, target :: targets)
    else if target.key < source.key then
      some (onlyTargetEntry target.entry, source :: sources, targets)
    else some (compareCurrentObjectEntries source.entry target.entry, sources, targets)

/-- All the entries, of two listings that do not change. -/
def bucketDiff : List (StoredObject kind) → List (StoredObject kind) → List BucketDiffEntry
  | [], targets => targets.map fun target => onlyTargetEntry target.entry
  | sources, [] => sources.map fun source => onlySourceEntry source.entry
  | source :: sources, target :: targets =>
    if source.key < target.key then
      onlySourceEntry source.entry :: bucketDiff sources (target :: targets)
    else if target.key < source.key then
      onlyTargetEntry target.entry :: bucketDiff (source :: sources) targets
    else compareCurrentObjectEntries source.entry target.entry :: bucketDiff sources targets
  termination_by sources targets => sources.length + targets.length

/-! ## What a listing says of an object -/

/-- The listing is in increasing order of the keys. -/
def Increasing (listing : List (StoredObject kind)) : Prop :=
  listing.Pairwise fun object later => object.key < later.key

/-- The two objects are equal for the diff. -/
def matching (source target : StoredObject kind) : Bool :=
  (compareContents source.entry target.entry).2

def hasKey (listing : List (StoredObject kind)) (key : String) : Bool :=
  listing.any fun object => object.key = key

/-- The target has an object under the key, and it does not match. -/
def differsIn (target : List (StoredObject kind)) (object : StoredObject kind) : Bool :=
  target.any fun other => other.key = object.key && !matching object other

/-- The first result of `_record_diff_entry`. -/
def copyRequired (entry : BucketDiffEntry) : Bool :=
  entry.kind = .onlySource || entry.kind = .different

/-- The second result of `_record_diff_entry`. -/
def deleteRequired (allowDelete : Bool) (entry : BucketDiffEntry) : Bool :=
  entry.kind = .onlyTarget && allowDelete

/-- The source object has no match in the target. -/
def needsCopy (target : List (StoredObject kind)) (object : StoredObject kind) : Bool :=
  !hasKey target object.key || differsIn target object

/-! ## The rounds of the merge -/

variable {sources targets sources' targets' : List (StoredObject kind)} {entry : BucketDiffEntry}

@[simp] theorem key_onlySourceEntry (source : BucketObjectEntry) :
    (onlySourceEntry source).key = source.key := rfl

@[simp] theorem key_onlyTargetEntry (target : BucketObjectEntry) :
    (onlyTargetEntry target).key = target.key := rfl

@[simp] theorem key_compareCurrentObjectEntries (source target : BucketObjectEntry) :
    (compareCurrentObjectEntries source target).key = source.key := rfl

@[simp] theorem key_entry (object : StoredObject kind) : object.entry.key = object.key := rfl

theorem bucketDiff_nil_right (sources : List (StoredObject kind)) :
    bucketDiff sources [] = sources.map fun source => onlySourceEntry source.entry := by
  cases sources with
  | nil => rw [bucketDiff, List.map_nil, List.map_nil]
  | cons source rest =>
    rw [bucketDiff]
    exact List.cons_ne_nil source rest

/-- A round reads only the heads, so it may be made before the rest of the target is listed. -/
theorem bucketDiff_next {unread : List (StoredObject kind)} (hunread : targets = [] → unread = [])
    (h : nextDiffEntry sources targets = some (entry, sources', targets')) :
    bucketDiff sources (targets ++ unread) = entry :: bucketDiff sources' (targets' ++ unread) := by
  unfold nextDiffEntry at h
  split at h
  · cases h
  · cases h
    rw [hunread rfl, List.nil_append, bucketDiff_nil_right, bucketDiff_nil_right, List.map_cons]
  · cases h
    rw [List.cons_append, bucketDiff, bucketDiff, List.map_cons]
  · rw [List.cons_append, bucketDiff]
    split_ifs at h ⊢ <;> cases h <;> rfl

theorem nextDiffEntry_eq_none (h : nextDiffEntry sources targets = none) :
    sources = [] ∧ targets = [] := by
  unfold nextDiffEntry at h
  split at h
  · exact ⟨rfl, rfl⟩
  · cases h
  · cases h
  · split_ifs at h

/-- The entry of a round is not after the first object of the target. -/
theorem key_le_of_next {target : StoredObject kind} {rest : List (StoredObject kind)}
    (h : nextDiffEntry sources (target :: rest) = some (entry, sources', targets')) :
    entry.key ≤ target.key := by
  cases sources with
  | nil =>
    cases h
    exact le_refl target.key
  | cons source rest =>
    simp only [nextDiffEntry] at h
    split_ifs at h with hlt hgt
    · cases h
      exact le_of_lt hlt
    · cases h
      exact le_refl target.key
    · cases h
      exact not_lt.mp hgt

theorem targets_of_next (h : nextDiffEntry sources targets = some (entry, sources', targets')) :
    ∀ target ∈ targets', target ∈ targets := by
  unfold nextDiffEntry at h
  split at h
  · cases h
  · cases h
    exact fun _ hin => hin
  · cases h
    exact fun _ hin => List.mem_cons_of_mem _ hin
  · split_ifs at h <;> cases h
    · exact fun _ hin => hin
    · exact fun _ hin => List.mem_cons_of_mem _ hin
    · exact fun _ hin => List.mem_cons_of_mem _ hin

/-! ## The entries of the diff -/

theorem hasKey_iff {listing : List (StoredObject kind)} {key : String} :
    hasKey listing key = true ↔ ∃ object ∈ listing, object.key = key := by
  unfold hasKey
  rw [List.any_eq_true]
  simp only [decide_eq_true_eq]

theorem hasKey_cons {object : StoredObject kind} {listing : List (StoredObject kind)} {key : String} :
    hasKey (object :: listing) key = (decide (object.key = key) || hasKey listing key) := rfl

theorem hasKey_of_mem {listing : List (StoredObject kind)} {object : StoredObject kind}
    (h : object ∈ listing) : hasKey listing object.key = true :=
  hasKey_iff.mpr ⟨object, h, rfl⟩

/-- Every entry is about a key of one of the listings. -/
theorem hasKey_of_mem_bucketDiff (h : entry ∈ bucketDiff sources targets) :
    hasKey sources entry.key = true ∨ hasKey targets entry.key = true := by
  fun_induction bucketDiff sources targets with
  | case1 targets =>
    obtain ⟨target, hin, rfl⟩ := List.mem_map.mp h
    exact Or.inr (hasKey_of_mem hin)
  | case2 sources _ =>
    obtain ⟨source, hin, rfl⟩ := List.mem_map.mp h
    exact Or.inl (hasKey_of_mem hin)
  | case3 source sources target targets hlt ih =>
    rcases List.mem_cons.mp h with rfl | h
    · exact Or.inl (hasKey_of_mem (List.mem_cons_self ..))
    · rw [hasKey_cons, Bool.or_eq_true]
      exact (ih h).imp_left Or.inr
  | case4 source sources target targets _ hlt ih =>
    rcases List.mem_cons.mp h with rfl | h
    · exact Or.inr (hasKey_of_mem (List.mem_cons_self ..))
    · refine (ih h).imp_right fun hin => ?_
      rw [hasKey_cons, hin, Bool.or_true]
  | case5 source sources target targets _ _ ih =>
    rcases List.mem_cons.mp h with rfl | h
    · exact Or.inl (hasKey_of_mem (List.mem_cons_self ..))
    · rw [hasKey_cons, hasKey_cons, Bool.or_eq_true, Bool.or_eq_true]
      exact (ih h).imp Or.inr Or.inr

theorem increasing_cons {object : StoredObject kind} {listing : List (StoredObject kind)} :
    Increasing (object :: listing) ↔
      (∀ later ∈ listing, object.key < later.key) ∧ Increasing listing :=
  List.pairwise_cons

theorem lt_of_lt_head {object : StoredObject kind} {listing : List (StoredObject kind)} {key : String}
    (hlisting : Increasing (object :: listing)) (hlt : key < object.key) :
    ∀ other ∈ object :: listing, key < other.key := by
  intro other hin
  rcases List.mem_cons.mp hin with rfl | hin
  · exact hlt
  · exact lt_trans hlt ((increasing_cons.mp hlisting).1 other hin)

theorem hasKey_of_ne {listing : List (StoredObject kind)} {key : String}
    (h : ∀ object ∈ listing, object.key ≠ key) : hasKey listing key = false := by
  unfold hasKey
  rw [List.any_eq_false]
  intro object hin
  rw [decide_eq_true_eq]
  exact h object hin

/-- An object of another key decides nothing. -/
theorem needsCopy_cons_of_ne {target object : StoredObject kind} {targets : List (StoredObject kind)}
    (h : target.key ≠ object.key) : needsCopy (target :: targets) object = needsCopy targets object := by
  simp [needsCopy, hasKey, differsIn, h]

theorem needsCopy_cons_of_lt {target : StoredObject kind} {targets sources : List (StoredObject kind)}
    (h : ∀ source ∈ sources, target.key < source.key) :
    sources.filter (needsCopy (target :: targets)) = sources.filter (needsCopy targets) := by
  apply List.filter_congr
  intro source hin
  exact needsCopy_cons_of_ne (ne_of_lt (h source hin))

theorem needsCopy_of_not_hasKey {target : List (StoredObject kind)} {object : StoredObject kind}
    (h : hasKey target object.key = false) : needsCopy target object = true := by
  rw [needsCopy, h]
  rfl

theorem needsCopy_of_head {target object : StoredObject kind} {targets : List (StoredObject kind)}
    (hkey : target.key = object.key) (hrest : ∀ other ∈ targets, object.key < other.key) :
    needsCopy (target :: targets) object = !matching object target := by
  have hnone : differsIn targets object = false := by
    unfold differsIn
    rw [List.any_eq_false]
    intro other hin
    simp [ne_of_gt (hrest other hin)]
  unfold needsCopy differsIn at *
  rw [List.any_cons, hnone, hasKey_cons]
  simp [hkey]

theorem copyRequired_compare (source target : StoredObject kind) :
    copyRequired (compareCurrentObjectEntries source.entry target.entry) = !matching source target := by
  unfold copyRequired compareCurrentObjectEntries matching
  cases (compareContents source.entry target.entry).2 <;> rfl

theorem onlyTarget_compare (source target : BucketObjectEntry) :
    (compareCurrentObjectEntries source target).kind ≠ .onlyTarget := by
  unfold compareCurrentObjectEntries
  split_ifs
  · exact nofun
  · exact nofun

/-- The diff asks to copy the source objects that have no match in the target. -/
theorem copies_bucketDiff (hsources : Increasing sources) (htargets : Increasing targets) :
    ((bucketDiff sources targets).filter copyRequired).map BucketDiffEntry.key =
      (sources.filter (needsCopy targets)).map StoredObject.key := by
  fun_induction bucketDiff sources targets with
  | case1 targets =>
    simp [List.filter_map, Function.comp_def, copyRequired, onlyTargetEntry]
  | case2 sources _ =>
    have hall : sources.filter (needsCopy []) = sources :=
      List.filter_eq_self.mpr fun _ _ => rfl
    rw [hall]
    simp [List.filter_map, Function.comp_def, copyRequired, onlySourceEntry]
  | case3 source sources target targets hlt ih =>
    have hnone : hasKey (target :: targets) source.key = false :=
      hasKey_of_ne fun other hin => ne_of_gt (lt_of_lt_head htargets hlt other hin)
    rw [List.filter_cons_of_pos rfl, List.filter_cons_of_pos (needsCopy_of_not_hasKey hnone),
      List.map_cons, List.map_cons, ih (increasing_cons.mp hsources).2 htargets]
    rfl
  | case4 source sources target targets _ hlt ih =>
    rw [List.filter_cons_of_neg (by exact Bool.false_ne_true),
      ih hsources (increasing_cons.mp htargets).2,
      needsCopy_cons_of_lt (lt_of_lt_head hsources hlt)]
  | case5 source sources target targets hle hge ih =>
    have hkey : target.key = source.key := le_antisymm (not_lt.mp hle) (not_lt.mp hge)
    obtain ⟨hfirst, hsources⟩ := increasing_cons.mp hsources
    obtain ⟨hhead, htargets⟩ := increasing_cons.mp htargets
    have hcopy := needsCopy_of_head hkey (hkey ▸ hhead)
    have hrest : sources.filter (needsCopy (target :: targets)) = sources.filter (needsCopy targets) :=
      needsCopy_cons_of_lt (hkey ▸ hfirst)
    rw [List.filter_cons, List.filter_cons, copyRequired_compare, hcopy, hrest]
    split_ifs
    · rw [List.map_cons, List.map_cons, ih hsources htargets]
      rfl
    · exact ih hsources htargets

/-- The diff asks to delete the target objects whose key the source does not have. -/
theorem deletes_bucketDiff (hsources : Increasing sources) (htargets : Increasing targets) :
    ((bucketDiff sources targets).filter (deleteRequired true)).map BucketDiffEntry.key =
      (targets.filter fun target => !hasKey sources target.key).map StoredObject.key := by
  fun_induction bucketDiff sources targets with
  | case1 targets =>
    simp [List.filter_map, Function.comp_def, deleteRequired, onlyTargetEntry, hasKey]
  | case2 sources _ =>
    simp [List.filter_map, Function.comp_def, deleteRequired, onlySourceEntry]
  | case3 source sources target targets hlt ih =>
    have hrest : ((target :: targets).filter fun target => !hasKey (source :: sources) target.key) =
        (target :: targets).filter fun target => !hasKey sources target.key := by
      apply List.filter_congr
      intro other hin
      simp [hasKey_cons, ne_of_lt (lt_of_lt_head htargets hlt other hin)]
    rw [List.filter_cons_of_neg (by exact Bool.false_ne_true), hrest]
    exact ih (increasing_cons.mp hsources).2 htargets
  | case4 source sources target targets _ hlt ih =>
    have hnone : hasKey (source :: sources) target.key = false :=
      hasKey_of_ne fun other hin => ne_of_gt (lt_of_lt_head hsources hlt other hin)
    rw [List.filter_cons_of_pos rfl, List.filter_cons_of_pos (by rw [hnone]; rfl),
      List.map_cons, List.map_cons, ih hsources (increasing_cons.mp htargets).2]
    rfl
  | case5 source sources target targets hle hge ih =>
    have hkey : target.key = source.key := le_antisymm (not_lt.mp hle) (not_lt.mp hge)
    obtain ⟨-, hsources⟩ := increasing_cons.mp hsources
    obtain ⟨hhead, htargets⟩ := increasing_cons.mp htargets
    have hrest : (targets.filter fun target => !hasKey (source :: sources) target.key) =
        targets.filter fun target => !hasKey sources target.key := by
      apply List.filter_congr
      intro other hin
      simp [hasKey_cons, ne_of_lt (hkey ▸ hhead other hin)]
    have hhas : (!hasKey (source :: sources) target.key) = false := by
      rw [hkey, hasKey_of_mem (List.mem_cons_self ..)]
      rfl
    rw [List.filter_cons_of_neg (by simp [deleteRequired, onlyTarget_compare]),
      List.filter_cons_of_neg (by rw [hhas]; exact Bool.false_ne_true), hrest]
    exact ih hsources htargets

/-- Each key has at most one entry. -/
theorem pairwise_bucketDiff (hsources : Increasing sources) (htargets : Increasing targets) :
    (bucketDiff sources targets).Pairwise fun entry later => entry.key < later.key := by
  have hbound : ∀ {sources targets : List (StoredObject kind)} {key : String},
      (∀ source ∈ sources, key < source.key) → (∀ target ∈ targets, key < target.key) →
      ∀ entry ∈ bucketDiff sources targets, key < entry.key := by
    intro sources targets key hsources htargets entry hin
    rcases hasKey_of_mem_bucketDiff hin with h | h <;> obtain ⟨object, hobject, heq⟩ := hasKey_iff.mp h
    · exact heq ▸ hsources object hobject
    · exact heq ▸ htargets object hobject
  fun_induction bucketDiff sources targets with
  | case1 targets => exact List.pairwise_map.mpr htargets
  | case2 sources _ => exact List.pairwise_map.mpr hsources
  | case3 source sources target targets hlt ih =>
    obtain ⟨hfirst, hsources⟩ := increasing_cons.mp hsources
    exact List.pairwise_cons.mpr
      ⟨hbound hfirst (lt_of_lt_head htargets hlt), ih hsources htargets⟩
  | case4 source sources target targets _ hlt ih =>
    obtain ⟨hhead, htargets⟩ := increasing_cons.mp htargets
    exact List.pairwise_cons.mpr
      ⟨hbound (lt_of_lt_head hsources hlt) hhead, ih hsources htargets⟩
  | case5 source sources target targets hle hge ih =>
    have hkey : target.key = source.key := le_antisymm (not_lt.mp hle) (not_lt.mp hge)
    obtain ⟨hfirst, hsources⟩ := increasing_cons.mp hsources
    obtain ⟨hhead, htargets⟩ := increasing_cons.mp htargets
    rw [hkey] at hhead
    exact List.pairwise_cons.mpr ⟨hbound hfirst hhead, ih hsources htargets⟩

end CurrentObjects
end BucketReef

import BucketReef.Versions.Conforming
import Mathlib

/-!
# A scan under concurrent writes

The source bucket keeps its versions in listing order: keys ascending, each key newest first. The
pre-sync scan asks for one page after the other, each starting behind the last entry of the page
before; between two requests the source takes any number of writes. A write whose place in the
listing lies before the scan's position is never read by that scan: it is *behind* it.
-/

namespace BucketReef
namespace Versions

/-- A version or delete marker of the source bucket. -/
structure SourceVersion where
  key : String
  versionId : String
  isDeleteMarker : Bool
  lastModified : Int
  size : Nat
  etag : Option String
  storageClass : Option String
  key_ne : key ≠ ""
  versionId_ne : versionId ≠ ""

instance : DecidableEq SourceVersion := fun a b =>
  decidable_of_iff (a.key = b.key ∧ a.versionId = b.versionId ∧ a.isDeleteMarker = b.isDeleteMarker ∧
    a.lastModified = b.lastModified ∧ a.size = b.size ∧ a.etag = b.etag ∧
    a.storageClass = b.storageClass) (by cases a; cases b; simp)

/-- The identity of a version: its key and version id. -/
def SourceVersion.ident (v : SourceVersion) : String × String := (v.key, v.versionId)

/-- The version as a listing of the bucket shows it. -/
def SourceVersion.listed (bucket : List SourceVersion) (v : SourceVersion) : ListedVersion where
  key := v.key
  versionId := v.versionId
  isDeleteMarker := v.isDeleteMarker
  isLatest := (bucket.find? fun w => w.key = v.key) == some v
  lastModified := v.lastModified
  size := v.size
  etag := v.etag
  storageClass := v.storageClass
  key_ne := v.key_ne
  versionId_ne := v.versionId_ne

/-- The version a listed entry shows. -/
def ListedVersion.source (v : ListedVersion) : SourceVersion where
  key := v.key
  versionId := v.versionId
  isDeleteMarker := v.isDeleteMarker
  lastModified := v.lastModified
  size := v.size
  etag := v.etag
  storageClass := v.storageClass
  key_ne := v.key_ne
  versionId_ne := v.versionId_ne

@[simp] theorem source_listed (bucket : List SourceVersion) (v : SourceVersion) :
    (v.listed bucket).source = v := rfl

@[simp] theorem map_source_listed (bucket vs : List SourceVersion) :
    (vs.map (SourceVersion.listed bucket)).map ListedVersion.source = vs := by
  rw [List.map_map]
  exact List.map_id'' (fun v => source_listed bucket v) vs

/-- A new version goes in front of its key's older ones. -/
def insertVersion (v : SourceVersion) : List SourceVersion → List SourceVersion
  | [] => [v]
  | w :: rest => if w.key < v.key then w :: insertVersion v rest else v :: w :: rest

/-! ## The scan -/

inductive ScanPosition
  | start
  | after (key versionId : String)
  | done
  deriving DecidableEq, Repr

/-- The listing still ahead of the scan. -/
def ScanPosition.remaining (position : ScanPosition) (bucket : List SourceVersion) :
    List SourceVersion :=
  match position with
  | .start => bucket
  | .after key versionId => (bucket.dropWhile fun v => ¬ v.ident = (key, versionId)).tail
  | .done => []

/-- A new version of the key would take its place behind the scan. -/
def ScanPosition.passed (position : ScanPosition) (key : String) : Bool :=
  match position with
  | .start => false
  | .after marker _ => key ≤ marker
  | .done => true

/-- The response for a stretch of the listing; a truncated one names its last entry. -/
def pageOf (chunk : List ListedVersion) (next : Option (String × String)) : Page where
  versions := (chunk.filter fun v => !v.isDeleteMarker).map ListedVersion.raw
  deleteMarkers := (chunk.filter fun v => v.isDeleteMarker).map ListedVersion.raw
  nextKeyMarker := next.map Prod.fst
  nextVersionIdMarker := next.map Prod.snd

structure SourceScan where
  bucket : List SourceVersion
  position : ScanPosition := .start
  pages : List Page := []
  /-- What the pages carried. -/
  scanned : List ListedVersion := []
  /-- The writes since the scan began, and whether each fell behind it. -/
  writes : List (SourceVersion × Bool) := []

/-- A request for at most `maxKeys` entries. -/
def SourceScan.readPage (s : SourceScan) (maxKeys : ℕ) : SourceScan :=
  let remaining := s.position.remaining s.bucket
  let chunk := (remaining.take maxKeys).map (SourceVersion.listed s.bucket)
  let next := if maxKeys < remaining.length then
    (remaining.take maxKeys).getLast?.map SourceVersion.ident else none
  { s with
    position := match next with
      | none => .done
      | some (key, versionId) => .after key versionId
    pages := s.pages ++ [pageOf chunk next]
    scanned := s.scanned ++ chunk }

def SourceScan.write (s : SourceScan) (v : SourceVersion) : SourceScan :=
  { s with
    bucket := insertVersion v s.bucket
    writes := s.writes ++ [(v, s.position.passed v.key)] }

/-- A bucket in listing order, each version with its own identity. -/
structure SourceBucket (bucket : List SourceVersion) : Prop where
  keys_ascending : bucket.Pairwise fun a b => a.key ≤ b.key
  distinct : bucket.Pairwise fun a b => a.ident ≠ b.ident

/-- One step of the source or of the scan. Writes get a new version id and a datetime not before
any in the bucket; a page carries at least one entry while some remain. -/
inductive SourceStep : SourceScan → SourceScan → Prop
  | write (s : SourceScan) (v : SourceVersion) (fresh : ∀ w ∈ s.bucket, w.ident ≠ v.ident)
      (newest : ∀ w ∈ s.bucket, w.lastModified ≤ v.lastModified) : SourceStep s (s.write v)
  | page (s : SourceScan) (maxKeys : ℕ) (open_ : s.position ≠ .done) (positive : 0 < maxKeys) :
      SourceStep s (s.readPage maxKeys)

/-- The states a scan reaches from a bucket. -/
def ScanReaches (bucket : List SourceVersion) (s : SourceScan) : Prop :=
  SourceBucket bucket ∧ Relation.ReflTransGen SourceStep { bucket := bucket } s

/-! ## Insertion -/

theorem insertVersion_perm (v : SourceVersion) (bucket : List SourceVersion) :
    (insertVersion v bucket).Perm (v :: bucket) := by
  induction bucket with
  | nil => exact List.Perm.refl _
  | cons w rest ih =>
    by_cases h : w.key < v.key
    · rw [insertVersion, if_pos h]
      exact (ih.cons w).trans (List.Perm.swap v w rest)
    · rw [insertVersion, if_neg h]

@[simp] theorem mem_insertVersion {v w : SourceVersion} {bucket : List SourceVersion} :
    w ∈ insertVersion v bucket ↔ w = v ∨ w ∈ bucket := by
  rw [(insertVersion_perm v bucket).mem_iff, List.mem_cons]

theorem SourceBucket.insertVersion {bucket : List SourceVersion} (h : SourceBucket bucket)
    {v : SourceVersion} (hfresh : ∀ w ∈ bucket, w.ident ≠ v.ident) :
    SourceBucket (insertVersion v bucket) where
  keys_ascending := by
    have hkeys := h.keys_ascending
    clear h hfresh
    induction bucket with
    | nil => exact List.pairwise_singleton _ _
    | cons w rest ih =>
      obtain ⟨hhead, htail⟩ := List.pairwise_cons.mp hkeys
      by_cases hlt : w.key < v.key
      · rw [Versions.insertVersion, if_pos hlt]
        refine List.pairwise_cons.mpr ⟨?_, ih htail⟩
        intro u hu
        rcases mem_insertVersion.mp hu with rfl | hu
        · exact hlt.le
        · exact hhead u hu
      · rw [Versions.insertVersion, if_neg hlt]
        refine List.pairwise_cons.mpr ⟨?_, hkeys⟩
        intro u hu
        rcases List.mem_cons.mp hu with rfl | hu
        · exact not_lt.mp hlt
        · exact (not_lt.mp hlt).trans (hhead u hu)
  distinct := by
    refine (insertVersion_perm v bucket).symm.pairwise (List.pairwise_cons.mpr ⟨?_, h.distinct⟩)
      fun hne heq => hne heq.symm
    exact fun w hw heq => hfresh w hw heq.symm

/-- Before the marker entry, the insertion stays before it. -/
theorem insertVersion_before {v m : SourceVersion} {front back : List SourceVersion}
    (h : v.key ≤ m.key) :
    insertVersion v (front ++ m :: back) = insertVersion v front ++ m :: back := by
  induction front with
  | nil => simp [insertVersion, not_lt.mpr h]
  | cons w rest ih =>
    by_cases hlt : w.key < v.key <;> simp [insertVersion, hlt, ih]

/-- Past the marker entry, the insertion stays past it. -/
theorem insertVersion_after {v m : SourceVersion} {front back : List SourceVersion}
    (hfront : ∀ w ∈ front, w.key < v.key) (h : m.key < v.key) :
    insertVersion v (front ++ m :: back) = front ++ m :: insertVersion v back := by
  induction front with
  | nil => simp [insertVersion, h]
  | cons w rest ih =>
    have hw : w.key < v.key := hfront w (by simp)
    simp [insertVersion, hw, ih fun u hu => hfront u (by simp [hu])]

/-! ## The scan's position -/

/-- The listing split at the scan's position: `passed` has gone by, `ahead` is still to be read. -/
def SplitAt (position : ScanPosition) (bucket passed ahead : List SourceVersion) : Prop :=
  bucket = passed ++ ahead ∧
    match position with
    | .start => passed = []
    | .after key versionId => ∃ front m, passed = front ++ [m] ∧ m.ident = (key, versionId)
    | .done => ahead = []

theorem SplitAt.remaining_eq {position : ScanPosition} {bucket passed ahead : List SourceVersion}
    (h : SplitAt position bucket passed ahead) (hbucket : SourceBucket bucket) :
    position.remaining bucket = ahead := by
  obtain ⟨rfl, hposition⟩ := h
  cases position with
  | start => rw [show passed = [] from hposition]; rfl
  | done => exact (show ahead = [] from hposition).symm
  | after key versionId =>
    obtain ⟨front, m, rfl, hm⟩ := hposition
    have hfront : ∀ w ∈ front, ¬ w.ident = (key, versionId) := by
      intro w hw heq
      have hdistinct := hbucket.distinct
      rw [List.append_assoc] at hdistinct
      exact (List.pairwise_append.mp hdistinct).2.2 w hw m (by simp) (heq.trans hm.symm)
    rw [ScanPosition.remaining, List.append_assoc, List.dropWhile_append_of_pos (by simpa using hfront)]
    simp [hm]

/-- A write lands behind the scan exactly when its key has been passed. -/
theorem SplitAt.write {position : ScanPosition} {bucket passed ahead : List SourceVersion}
    (h : SplitAt position bucket passed ahead) (hbucket : SourceBucket bucket) (v : SourceVersion) :
    ∃ passed' ahead', SplitAt position (insertVersion v bucket) passed' ahead' ∧
      (∀ w, w ∈ passed' ↔ w ∈ passed ∨ w = v ∧ position.passed v.key = true) ∧
      (∀ w, w ∈ ahead' ↔ w ∈ ahead ∨ w = v ∧ position.passed v.key = false) := by
  obtain ⟨rfl, hposition⟩ := h
  cases position with
  | start =>
    obtain rfl : passed = [] := hposition
    exact ⟨[], insertVersion v ahead, ⟨rfl, rfl⟩, by simp [ScanPosition.passed],
      by simp [ScanPosition.passed, or_comm]⟩
  | done =>
    obtain rfl : ahead = [] := hposition
    exact ⟨insertVersion v passed, [], ⟨by simp, rfl⟩, by simp [ScanPosition.passed, or_comm],
      by simp [ScanPosition.passed]⟩
  | after key versionId =>
    obtain ⟨front, m, rfl, hm⟩ := hposition
    have hkey : m.key = key := congrArg Prod.fst hm
    by_cases hle : v.key ≤ key
    · refine ⟨insertVersion v front ++ [m], ahead, ⟨?_, _, m, rfl, hm⟩, ?_, ?_⟩
      · simp [insertVersion_before (hkey ▸ hle)]
      · intro w
        simp only [List.mem_append, mem_insertVersion, ScanPosition.passed, hle, decide_true]
        tauto
      · simp [ScanPosition.passed, hle]
    · have hlt : key < v.key := not_le.mp hle
      have hfront : ∀ w ∈ front, w.key < v.key := by
        intro w hw
        have hkeys := hbucket.keys_ascending
        rw [List.append_assoc] at hkeys
        exact ((List.pairwise_append.mp hkeys).2.2 w hw m (by simp)).trans_lt (hkey ▸ hlt)
      refine ⟨front ++ [m], insertVersion v ahead, ⟨?_, front, m, rfl, hm⟩, ?_, ?_⟩
      · rw [List.append_assoc, List.append_assoc]
        exact insertVersion_after hfront (hkey ▸ hlt)
      · simp [ScanPosition.passed, hle]
      · simp [ScanPosition.passed, hle, or_comm]

end Versions
end BucketReef

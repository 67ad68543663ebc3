import BucketReef.Cleanup.VersionStore

/-!
# Ranks of versions

What the scan leaves in the tables for a listing in S3 order, cut into pages anywhere, and the number
the candidate query gives a row: the rank of its version among the versions of its key.
-/

namespace BucketReef
namespace Cleanup

open Lists Versions

/-- Every entry has a key and a version id of its own, and the flag stands on the first entry of each
key. -/
structure S3Order (bucket : List Listed) : Prop where
  identified : ∀ entry ∈ bucket, (entryIdentity entry).isSome = true
  distinct : (bucket.map entryIdentity).Nodup
  latest : ∀ front entry back, bucket = front ++ entry :: back →
    (entry.raw.isLatest = true ↔ ∀ other ∈ front, entryKey other ≠ entryKey entry)

def objects (entries : List Listed) : List Listed :=
  entries.filter fun entry => !entry.isDeleteMarker

def deleteMarkers (entries : List Listed) : List Listed :=
  entries.filter fun entry => entry.isDeleteMarker

/-- The rows `scan` numbers through a listing. -/
def versionRows (entries : List Listed) (scanOrder : ℕ) : List VersionRow :=
  numberedRows versionRow ((objects entries).map Listed.raw) scanOrder

def markerRows (entries : List Listed) (scanOrder : ℕ) : List MarkerRow :=
  numberedRows markerRow ((deleteMarkers entries).map Listed.raw) scanOrder

/-! ## The scan -/

section Numbered

variable {ρ : Type} {row : RawVersion → ℕ → Option ρ} {identity : ρ → Identity}

end Numbered

/-- Latest first, then the later date; a missing date is older than every date. -/
def newer (a b : Bool × Option ℤ) : Bool :=
  if a.1 = b.1 then
    match a.2, b.2 with
    | some ts, some ts' => ts' < ts
    | some _, none => true
    | none, _ => false
  else a.1

def standing (entry : Listed) : Bool × Option ℤ := (entry.raw.isLatest, entry.raw.lastModified)

/-- An object version of the key. -/
def ofKey (key : Option String) (entry : Listed) : Bool :=
  !entry.isDeleteMarker && entryKey entry = key

/-- The number of versions of its key that come before a version: latest first, then newest, and in the
order of the listing where neither decides. -/
def rank (bucket : List Listed) (entry : Listed) : ℕ :=
  ((bucket.takeWhile (· ≠ entry)).countP fun other =>
      ofKey (entryKey entry) other && !newer (standing entry) (standing other)) +
    (bucket.dropWhile (· ≠ entry)).countP fun other =>
      ofKey (entryKey entry) other && newer (standing other) (standing entry)

end Cleanup
end BucketReef

import Mathlib

/-!
# Folder archives of the browser

A folder download sorts the listed objects into archive entries, exclusions and folder markers. Each
object is checked against the names and the directories of the entries before it.
-/

namespace BucketReef.FolderArchive

abbrev Text := List Char

/-- A number of the browser: a finite integer, or `NaN` or an infinity. -/
inductive JsNumber
  | finite (value : ℤ)
  | other
  deriving DecidableEq

structure BrowserObject where
  key : Text
  size : JsNumber
  deriving DecidableEq

structure BrowserFolderDownloadTarget where
  detailId : String
  key : Text
  relativeKey : Text
  sizeBytes : ℤ
  deriving DecidableEq

structure Excluded where
  key : Text
  reason : String
  deriving DecidableEq

structure BrowserFolderDownloadPlan where
  targets : List BrowserFolderDownloadTarget
  totalBytes : ℤ
  excluded : List Excluded

/-- `name || prefix.replace(/\/$/, "") || "folder"`, with every slash and backslash replaced. -/
def resolveBrowserFolderArchiveLabel (name : Option Text) (pre : Text) : Text :=
  let trimmed := if pre.getLast? = some '/' then pre.dropLast else pre
  let rawLabel :=
    if name.getD [] ≠ [] then name.getD []
    else if trimmed ≠ [] then trimmed
    else "folder".toList
  let label := rawLabel.map fun c => if c = '\\' ∨ c = '/' then '-' else c
  if label = [] then "folder".toList else label

def segments (path : Text) : List Text := path.splitOn '/'

/-- The path up to its segment `index`. -/
def ancestor (parts : List Text) (index : ℕ) : Text := ['/'].intercalate (parts.take (index + 1))

/-- The directories above a path. -/
def ancestors (path : Text) : List Text :=
  let parts := segments path
  (List.range (parts.length - 1)).map (ancestor parts)

def unsafeSegment (part : Text) : Bool :=
  part.isEmpty || part = ['.'] || part = ['.', '.'] ||
    part.getLast?.any fun c => c = '.' || c = ' '

/-- A character that no archive path may hold. -/
def unsafeCharacter (c : Char) : Bool := c = '\\' || c = ':' || decide (c.toNat < 32)

def unsafePath (relativeKey : Text) : Bool :=
  relativeKey.isEmpty || relativeKey.any unsafeCharacter || (segments relativeKey).any unsafeSegment

def relativeTo (folderPrefix key : Text) : Text :=
  if folderPrefix.isPrefixOf key then key.drop folderPrefix.length else []

/-- The object is left out of the archive as a folder marker. -/
def skipped (folderPrefix : Text) (object : BrowserObject) : Bool :=
  object.key = folderPrefix ||
    ((relativeTo folderPrefix object.key).getLast? = some '/' && object.size = .finite 0)

structure Scan where
  targets : List BrowserFolderDownloadTarget
  excluded : List Excluded
  seen : List Text
  archiveNames : List Text
  archiveDirectories : List Text

def Scan.start : Scan := ⟨[], [], [], [], []⟩

variable (canonical : Text → Text) (makeDetailId : ℕ → String) (folderPrefix : Text)

/-- `canonical` is `normalize("NFC").toLowerCase()`. The reason of an exclusion is empty when there is
none. -/
def Scan.reason (scan : Scan) (object : BrowserObject) : String :=
  let relativeKey := relativeTo folderPrefix object.key
  let name := canonical relativeKey
  if unsafePath relativeKey then "Unsafe or ambiguous archive path"
  else if scan.archiveNames.contains name || scan.archiveDirectories.contains name ||
      (ancestors name).any scan.archiveNames.contains then "Archive path collision"
  else match object.size with
    | .other => "Object size is unavailable"
    | .finite size => if size < 0 then "Object size is unavailable" else ""

def Scan.visit (scan : Scan) (object : BrowserObject) : Scan :=
  if scan.seen.contains object.key then scan
  else
    let scan := { scan with seen := object.key :: scan.seen }
    if skipped folderPrefix object then scan
    else if scan.reason canonical folderPrefix object ≠ "" then
      { scan with
        excluded := scan.excluded ++ [⟨object.key, scan.reason canonical folderPrefix object⟩] }
    else
      let relativeKey := relativeTo folderPrefix object.key
      let name := canonical relativeKey
      { scan with
        archiveNames := name :: scan.archiveNames
        archiveDirectories := ancestors name ++ scan.archiveDirectories
        targets := scan.targets ++
          [{ detailId := makeDetailId scan.targets.length
             key := object.key
             relativeKey := relativeKey
             sizeBytes := match object.size with
               | .finite size => size
               | .other => 0 }] }

def scanned (objects : List BrowserObject) : Scan :=
  objects.foldl (Scan.visit canonical makeDetailId folderPrefix) .start

def buildBrowserFolderDownloadPlan (objects : List BrowserObject) : BrowserFolderDownloadPlan :=
  let scan := scanned canonical makeDetailId folderPrefix objects
  { targets := scan.targets
    excluded := scan.excluded
    totalBytes := scan.targets.foldl (fun sum target => sum + target.sizeBytes) 0 }

def entryName (includeRootFolder : Bool) (folderLabel : Text) (target : BrowserFolderDownloadTarget) :
    Text :=
  if includeRootFolder then folderLabel ++ '/' :: target.relativeKey else target.relativeKey

/-! ## Extraction -/

/-- Walks a path from a directory `depth` levels below the extraction directory; `none` when it leaves
it. -/
def walk (depth : ℕ) : List Text → Option ℕ
  | [] => some depth
  | part :: parts =>
    if part = [] ∨ part = ['.'] then walk depth parts
    else if part = ['.', '.'] then
      match depth with
      | 0 => none
      | depth + 1 => walk depth parts
    else walk (depth + 1) parts

/-- The entry is written below the extraction directory. -/
def WritesInside (path : Text) : Prop :=
  path.head? ≠ some '/' ∧ ∃ depth, walk 0 (segments path) = some (depth + 1)

/-! ## What a plan promises -/

/-- A folder marker without contents. -/
def zeroByteMarker (object : BrowserObject) : Bool :=
  skipped folderPrefix object && object.size = .finite 0

/-- The first listed object of its key. -/
def FirstOf (objects : List BrowserObject) (object : BrowserObject) : Prop :=
  objects.find? (fun other => other.key = object.key) = some object

/-- Every distinct key is exactly one of target, excluded or zero-byte folder marker. -/
def Lossless (objects : List BrowserObject) (plan : BrowserFolderDownloadPlan) : Prop :=
  ∀ object, FirstOf objects object →
    (object.key ∈ plan.targets.map BrowserFolderDownloadTarget.key ∧
        object.key ∉ plan.excluded.map Excluded.key ∧ zeroByteMarker folderPrefix object = false) ∨
      (object.key ∉ plan.targets.map BrowserFolderDownloadTarget.key ∧
        object.key ∈ plan.excluded.map Excluded.key ∧ zeroByteMarker folderPrefix object = false) ∨
      (object.key ∉ plan.targets.map BrowserFolderDownloadTarget.key ∧
        object.key ∉ plan.excluded.map Excluded.key ∧ zeroByteMarker folderPrefix object = true)

/-- No segment is empty, a dot, two dots, or ends in a dot or a blank, and no character is a backslash,
a colon or a control character. -/
structure SafePath (path : Text) : Prop where
  characters : ∀ c ∈ path, c ≠ '\\' ∧ c ≠ ':' ∧ 32 ≤ c.toNat
  parts : ∀ part ∈ segments path, part ≠ [] ∧ part ≠ ['.'] ∧ part ≠ ['.', '.'] ∧
    part.getLast? ≠ some '.' ∧ part.getLast? ≠ some ' '

/-- Neither path is the other or a directory above it. -/
def Apart (first second : Text) : Prop :=
  first ≠ second ∧ first ∉ ancestors second ∧ second ∉ ancestors first

/-- What holds of every plan. -/
structure SafePlan (objects : List BrowserObject) (plan : BrowserFolderDownloadPlan) : Prop where
  listed : (∀ target ∈ plan.targets, target.key ∈ objects.map BrowserObject.key) ∧
    (plan.targets.map BrowserFolderDownloadTarget.key).Nodup
  paths : ∀ target ∈ plan.targets, SafePath target.relativeKey
  collisions : plan.targets.Pairwise fun first second =>
    Apart (canonical first.relativeKey) (canonical second.relativeKey)
  total : plan.totalBytes = (plan.targets.map BrowserFolderDownloadTarget.sizeBytes).sum

/-- Extraction of all targets, with or without the root folder, stays inside. -/
def ExtractsInside (label : Text) (plan : BrowserFolderDownloadPlan) : Prop :=
  ∀ target ∈ plan.targets, ∀ includeRootFolder,
    WritesInside (entryName includeRootFolder label target)

end BucketReef.FolderArchive

import BucketReef.Lists.Text
import BucketReef.Usage.Distributions

/-!
# The usage scan of a bucket

How an object version is classified, what the scan of a bucket counts, and the snapshot and the
aggregate built from it.
-/

namespace BucketReef
namespace UsageStats

open Text

/-! ## Classification -/

/-- The operations on text that a classification uses. -/
structure TextOps where
  strip : String → String
  lower : String → String
  upper : String → String

/-- On ASCII text. -/
def TextOps.ascii : TextOps where
  strip := Text.strip
  lower := Text.lower
  upper := Text.upper

def dataTypeLabels : List (String × String) :=
  [("documents", "Documents"), ("images", "Images"), ("videos", "Videos"), ("audio", "Audio"),
    ("archives", "Archives"), ("scientific_data", "Scientific data"),
    ("source_code", "Source code"), ("backups", "Backups"), ("other", "Other"),
    ("unknown", "Unknown")]

def dataTypeOrder : List String := dataTypeLabels.map Prod.fst

def documentExtensions : List String :=
  ["doc", "docx", "odt", "ods", "odp", "pdf", "ppt", "pptx", "rtf", "txt", "xls", "xlsx"]

def imageExtensions : List String :=
  ["avif", "bmp", "gif", "heic", "ico", "jpeg", "jpg", "png", "svg", "tif", "tiff", "webp"]

def videoExtensions : List String :=
  ["3gp", "avi", "m4v", "mkv", "mov", "mp4", "mpeg", "mpg", "ts", "webm"]

def audioExtensions : List String := ["aac", "aiff", "flac", "m4a", "mp3", "ogg", "wav", "wma"]

def archiveExtensions : List String :=
  ["7z", "bz2", "gz", "rar", "tar", "tbz", "tgz", "txz", "xz", "zip", "zst"]

def scientificExtensions : List String :=
  ["avro", "bam", "cdf", "csv", "dta", "fasta", "fastq", "feather", "fits", "h5", "hdf5", "mzml",
    "nc", "netcdf", "orc", "parquet", "sam", "sav", "tsv", "vcf"]

def sourceExtensions : List String :=
  ["bash", "c", "cc", "cpp", "cs", "css", "go", "h", "hpp", "htm", "html", "ini", "java", "js",
    "json", "jsx", "kt", "kts", "php", "ps1", "py", "rb", "rs", "scala", "scss", "sh", "sql",
    "swift", "toml", "ts", "tsx", "xml", "yaml", "yml", "zsh"]

def backupExtensions : List String := ["bak", "backup", "dump"]

def backupNameMarkers : List String :=
  ["backup", "backups", "snapshot", "snapshots", "dump", "dumps"]

def backupCompoundExtensions : List String := ["sql.gz", "sql.zip", "dump.gz", "dump.zip"]

def archiveCompoundExtensions : List String := ["tar.gz", "tar.bz2", "tar.xz", "tar.zst"]

def sourceFilenames : List String := ["dockerfile", "makefile", "gemfile", "rakefile"]

/-- Source code stands before video because `ts` is in both. -/
def dataTypeExtensionRules : List (String × List String) :=
  [("documents", documentExtensions), ("images", imageExtensions),
    ("source_code", sourceExtensions), ("videos", videoExtensions), ("audio", audioExtensions),
    ("archives", archiveExtensions), ("scientific_data", scientificExtensions)]

structure NameParts where
  name : String
  stem : String
  extension : String
  compoundExtension : String

/-- The last part of a path; empty parts and `.` are no parts. -/
def posixName (path : String) : String :=
  let parts := (path.toList.splitOn '/').filter fun part => part ≠ [] && part ≠ ['.']
  String.ofList (parts.getLast?.getD [])

def joinDots (pieces : List (List Char)) : String := String.ofList (List.intercalate ['.'] pieces)

def objectNameParts (text : TextOps) (key : String) : Option NameParts :=
  let normalized := text.lower (text.strip key)
  if normalized = "" ∨ normalized.toList.getLast? = some '/' then none
  else
    let name := posixName normalized
    if name = "" then none
    else
      let pieces := name.toList.splitOn '.'
      let stem := if pieces.length ≥ 2 then joinDots pieces.dropLast else name
      let extension := if pieces.length ≥ 2 then String.ofList (pieces.getLast?.getD []) else ""
      let compoundExtension :=
        if pieces.length ≥ 3 then joinDots (pieces.drop (pieces.length - 2)) else extension
      some { name, stem, extension, compoundExtension }

def classifyParts (parts : NameParts) : String :=
  if parts.extension ∈ backupExtensions ∨ parts.compoundExtension ∈ backupCompoundExtensions then
    "backups"
  else if backupNameMarkers.any fun marker => marker.toList <:+: parts.stem.toList then "backups"
  else if parts.name ∈ sourceFilenames then "source_code"
  else if parts.compoundExtension ∈ archiveCompoundExtensions then "archives"
  else
    match dataTypeExtensionRules.find? fun rule => parts.extension ∈ rule.2 with
    | some rule => rule.1
    | none => if parts.extension ≠ "" then "other" else "unknown"

def classifyDataType (text : TextOps) (key : String) : String :=
  match objectNameParts text key with
  | none => "unknown"
  | some parts => classifyParts parts

/-- A row of `SIZE_BUCKETS` or `AGE_BUCKETS`. -/
structure Range where
  key : String
  label : String
  lower : Option ℕ
  upper : Option ℕ

def sizeBuckets : List Range :=
  [⟨"0_b", "0 B", some 0, some 0⟩,
    ⟨"1_b_128_kib", "1 B-128 KiB", some 1, some (128 * 1024)⟩,
    ⟨"128_kib_1_mib", "128 KiB-1 MiB", some (128 * 1024 + 1), some (1024 * 1024)⟩,
    ⟨"1_mib_10_mib", "1-10 MiB", some (1024 * 1024 + 1), some (10 * 1024 * 1024)⟩,
    ⟨"10_mib_100_mib", "10-100 MiB", some (10 * 1024 * 1024 + 1), some (100 * 1024 * 1024)⟩,
    ⟨"100_mib_1_gib", "100 MiB-1 GiB", some (100 * 1024 * 1024 + 1), some (1024 * 1024 * 1024)⟩,
    ⟨"1_gib_10_gib", "1-10 GiB", some (1024 * 1024 * 1024 + 1),
      some (10 * 1024 * 1024 * 1024)⟩,
    ⟨"gt_10_gib", ">10 GiB", some (10 * 1024 * 1024 * 1024 + 1), none⟩]

def ageBuckets : List Range :=
  [⟨"lt_7d", "<7d", some 0, some 7⟩, ⟨"7_30d", "7-30d", some 7, some 30⟩,
    ⟨"30_90d", "30-90d", some 30, some 90⟩, ⟨"90_365d", "90-365d", some 90, some 365⟩,
    ⟨"1_3y", "1-3y", some 365, some (3 * 365)⟩, ⟨"gt_3y", ">3y", some (3 * 365), none⟩]

/-- The end of a size range belongs to it. -/
def Range.holdsSize (range : Range) (size : ℕ) : Bool :=
  match range.lower, range.upper with
  | some lower, none => lower ≤ size
  | some lower, some upper => lower ≤ size && size ≤ upper
  | none, _ => false

/-- The end of an age range does not. -/
def Range.holdsAge (range : Range) (days : ℕ) : Bool :=
  match range.lower, range.upper with
  | some lower, none => lower ≤ days
  | some lower, some upper => lower ≤ days && days < upper
  | none, _ => false

def sizeBucketKey (size : ℕ) : String × String :=
  match sizeBuckets.find? fun range => range.holdsSize size with
  | some range => (range.key, range.label)
  | none => ("unknown", "Unknown")

def microsecondsPerDay : ℤ := 86400 * 1000000

/-- Instants are microseconds of UTC. -/
def ageBucketKey (lastModified : Option ℤ) (now : ℤ) : String × String :=
  match lastModified with
  | none => ("unknown", "Unknown")
  | some normalized =>
    let ageDays := ((now - normalized) / microsecondsPerDay).toNat
    match ageBuckets.find? fun range => range.holdsAge ageDays with
    | some range => (range.key, range.label)
    | none => ("unknown", "Unknown")

/-! ## The scan -/

/-- A listed version; the listing gives no size below zero. -/
structure ObjectVersionEntry where
  key : String
  size : ℕ
  lastModified : Option ℤ
  storageClass : Option String
  isLatest : Bool

inductive Item
  | version (entry : ObjectVersionEntry)
  | deleteMarker

def rangeLabels (ranges : List Range) : List (String × String) :=
  ranges.map fun range => (range.key, range.label)

def sizeLabels : List (String × String) := rangeLabels sizeBuckets

def sizeOrder : List String := sizeBuckets.map Range.key

def ageLabels : List (String × String) := rangeLabels ageBuckets ++ [("unknown", "Unknown")]

def ageOrder : List String := ageBuckets.map Range.key ++ ["unknown"]

def currentVersionLabels : List (String × String) :=
  [("current", "Current versions"), ("noncurrent", "Non-current versions")]

def currentVersionOrder : List String := ["current", "noncurrent"]

structure BucketUsageScan where
  calculatedAt : ℤ
  dataTypes : DistributionBuilder := .init dataTypeLabels dataTypeOrder
  storageClasses : DistributionBuilder := .init [] []
  sizes : DistributionBuilder := .init sizeLabels sizeOrder
  ages : DistributionBuilder := .init ageLabels ageOrder
  currentVersions : DistributionBuilder := .init currentVersionLabels currentVersionOrder
  objectVersionCount : ℕ := 0
  currentVersionCount : ℕ := 0
  noncurrentVersionCount : ℕ := 0
  deleteMarkerCount : ℕ := 0
  totalBytes : ℕ := 0
  currentBytes : ℕ := 0
  noncurrentBytes : ℕ := 0

/-- `(storage_class or "STANDARD").strip().upper() or "STANDARD"` -/
def storageClassKey (text : TextOps) (storageClass : Option String) : String :=
  let given := storageClass.getD ""
  let named := text.upper (text.strip (if given = "" then "STANDARD" else given))
  if named = "" then "STANDARD" else named

section Additions

variable (text : TextOps) (now : ℤ) (entry : ObjectVersionEntry)

def currentAddition : Addition where
  key := if entry.isLatest then "current" else "noncurrent"
  bytesValue := entry.size

def dataTypeAddition : Addition where
  key := classifyDataType text entry.key
  bytesValue := entry.size

def storageClassAddition : Addition where
  key := storageClassKey text entry.storageClass
  bytesValue := entry.size
  label := some (storageClassKey text entry.storageClass)

def sizeAddition : Addition where
  key := (sizeBucketKey entry.size).1
  bytesValue := entry.size
  label := some (sizeBucketKey entry.size).2

def ageAddition : Addition where
  key := (ageBucketKey entry.lastModified now).1
  bytesValue := entry.size
  label := some (ageBucketKey entry.lastModified now).2

end Additions

namespace BucketUsageScan

def addEntry (text : TextOps) (scan : BucketUsageScan) (entry : ObjectVersionEntry) :
    BucketUsageScan where
  calculatedAt := scan.calculatedAt
  objectVersionCount := scan.objectVersionCount + 1
  totalBytes := scan.totalBytes + entry.size
  currentVersionCount := scan.currentVersionCount + if entry.isLatest then 1 else 0
  currentBytes := scan.currentBytes + if entry.isLatest then entry.size else 0
  noncurrentVersionCount := scan.noncurrentVersionCount + if entry.isLatest then 0 else 1
  noncurrentBytes := scan.noncurrentBytes + if entry.isLatest then 0 else entry.size
  deleteMarkerCount := scan.deleteMarkerCount
  currentVersions := scan.currentVersions.add (currentAddition entry)
  dataTypes := scan.dataTypes.add (dataTypeAddition text entry)
  storageClasses := scan.storageClasses.add (storageClassAddition text entry)
  sizes := scan.sizes.add (sizeAddition entry)
  ages := scan.ages.add (ageAddition scan.calculatedAt entry)

def addDeleteMarker (scan : BucketUsageScan) : BucketUsageScan :=
  { scan with deleteMarkerCount := scan.deleteMarkerCount + 1 }

def addItem (text : TextOps) (scan : BucketUsageScan) : Item → BucketUsageScan
  | .version entry => scan.addEntry text entry
  | .deleteMarker => scan.addDeleteMarker

end BucketUsageScan

inductive ScanMode
  | versions
  | currentOnly
  deriving DecidableEq

structure Snapshot where
  scanMode : ScanMode
  versionListingAvailable : Bool
  objectVersionCount : ℕ
  currentVersionCount : ℕ
  noncurrentVersionCount : ℕ
  deleteMarkerCount : ℕ
  totalBytes : ℕ
  currentBytes : ℕ
  noncurrentBytes : ℕ
  dataTypeDistribution : List Entry
  storageClassDistribution : List Entry
  sizeDistribution : List Entry
  ageDistribution : List Entry
  currentVsNoncurrent : List Entry
  calculatedAt : ℤ

def BucketUsageScan.snapshot (scan : BucketUsageScan) (scanMode : ScanMode)
    (versionListingAvailable : Bool) : Snapshot :=
  let total := scan.objectVersionCount
  let bytes := scan.totalBytes
  { scanMode
    versionListingAvailable
    objectVersionCount := scan.objectVersionCount
    currentVersionCount := scan.currentVersionCount
    noncurrentVersionCount := scan.noncurrentVersionCount
    deleteMarkerCount := scan.deleteMarkerCount
    totalBytes := scan.totalBytes
    currentBytes := scan.currentBytes
    noncurrentBytes := scan.noncurrentBytes
    dataTypeDistribution := scan.dataTypes.entries total bytes false
    storageClassDistribution := scan.storageClasses.entries total bytes false
    sizeDistribution := scan.sizes.entries total bytes true
    ageDistribution := scan.ages.entries total bytes true
    currentVsNoncurrent :=
      if scanMode = .currentOnly then [] else scan.currentVersions.entries total bytes true
    calculatedAt := scan.calculatedAt }

/-- What the endpoint lists of a bucket: its versions and delete markers, or only the current objects
where it lists no versions. -/
inductive Listing
  | versions (items : List Item)
  | currentObjects (entries : List ObjectVersionEntry)

/-- What the scan of the listing sees; a current object is its own latest version. -/
def Listing.items : Listing → List Item
  | .versions items => items
  | .currentObjects entries => entries.map fun entry => .version { entry with isLatest := true }

def scanItems (text : TextOps) (calculatedAt : ℤ) (items : List Item) : BucketUsageScan :=
  items.foldl (BucketUsageScan.addItem text) { calculatedAt }

def calculateBucket (text : TextOps) (calculatedAt : ℤ) (listing : Listing) : Snapshot :=
  let scan := scanItems text calculatedAt listing.items
  match listing with
  | .versions _ => scan.snapshot .versions true
  | .currentObjects _ => scan.snapshot .currentOnly false

/-! ## The aggregate -/

structure Totals where
  partialScanCount : ℕ
  objectVersionCount : ℕ
  currentVersionCount : ℕ
  noncurrentVersionCount : ℕ
  deleteMarkerCount : ℕ
  totalBytes : ℕ
  currentBytes : ℕ
  noncurrentBytes : ℕ
  oldestSnapshotAt : Option ℤ
  newestSnapshotAt : Option ℤ

structure Distributions where
  dataType : List Entry
  storageClass : List Entry
  size : List Entry
  age : List Entry
  currentVsNoncurrent : List Entry

structure Aggregate where
  totals : Totals
  distributions : Distributions

def aggregateTotals (snapshots : List Snapshot) : Totals where
  partialScanCount := snapshots.countP fun snapshot =>
    snapshot.scanMode = .currentOnly || !snapshot.versionListingAvailable
  objectVersionCount := (snapshots.map Snapshot.objectVersionCount).sum
  currentVersionCount := (snapshots.map Snapshot.currentVersionCount).sum
  noncurrentVersionCount := (snapshots.map Snapshot.noncurrentVersionCount).sum
  deleteMarkerCount := (snapshots.map Snapshot.deleteMarkerCount).sum
  totalBytes := (snapshots.map Snapshot.totalBytes).sum
  currentBytes := (snapshots.map Snapshot.currentBytes).sum
  noncurrentBytes := (snapshots.map Snapshot.noncurrentBytes).sum
  oldestSnapshotAt := (snapshots.map Snapshot.calculatedAt).min?
  newestSnapshotAt := (snapshots.map Snapshot.calculatedAt).max?

def currentNoncurrentEntries (totals : Totals) : List Entry :=
  let builder := ((DistributionBuilder.init currentVersionLabels currentVersionOrder).add
    { key := "current", count := totals.currentVersionCount, bytesValue := totals.currentBytes }).add
    { key := "noncurrent", count := totals.noncurrentVersionCount
      bytesValue := totals.noncurrentBytes }
  builder.entries totals.objectVersionCount totals.totalBytes true

def aggregateDistributions (snapshots : List Snapshot) (totals : Totals) : Distributions :=
  let count := totals.objectVersionCount
  let bytes := totals.totalBytes
  { dataType := mergeDistributionEntries (snapshots.map Snapshot.dataTypeDistribution) count bytes
      dataTypeLabels dataTypeOrder false
    storageClass := mergeDistributionEntries (snapshots.map Snapshot.storageClassDistribution)
      count bytes [] [] false
    size := mergeDistributionEntries (snapshots.map Snapshot.sizeDistribution) count bytes
      sizeLabels sizeOrder true
    age := mergeDistributionEntries (snapshots.map Snapshot.ageDistribution) count bytes
      ageLabels ageOrder true
    currentVsNoncurrent := currentNoncurrentEntries totals }

def buildBucketUsageAggregate (snapshots : List Snapshot) : Aggregate where
  totals := aggregateTotals snapshots
  distributions := aggregateDistributions snapshots (aggregateTotals snapshots)

end UsageStats
end BucketReef

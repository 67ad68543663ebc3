import BucketReef.Usage.Scan

/-!
# Aggregating usage snapshots

The statistics of a set of buckets are those of all their versions scanned as one bucket, and every
distribution accounts for every version.
-/

namespace BucketReef
namespace UsageStats

open Lists Text

/-! ## The additions of a scan -/

/-- Every size has a range. -/
theorem sizeBucketKey_range (size : ℕ) :
    ∃ range ∈ sizeBuckets, sizeBucketKey size = (range.key, range.label) := by
  have hsome : (sizeBuckets.find? fun range => range.holdsSize size).isSome = true := by
    rw [List.find?_isSome]
    simp only [sizeBuckets, List.mem_cons, List.not_mem_nil, or_false, exists_eq_or_imp,
      exists_eq_left, Range.holdsSize, Bool.and_eq_true, decide_eq_true_eq]
    omega
  obtain ⟨range, hrange⟩ := Option.isSome_iff_exists.mp hsome
  refine ⟨range, List.mem_of_find?_eq_some hrange, ?_⟩
  unfold sizeBucketKey
  rw [hrange]

theorem sizeAddition_named (entry : ObjectVersionEntry) :
    (sizeAddition entry).Named sizeLabels (DistributionBuilder.init sizeLabels sizeOrder).order ∧
      (sizeAddition entry).normalized ∈ (DistributionBuilder.init sizeLabels sizeOrder).order := by
  obtain ⟨range, hrange, hkey⟩ := sizeBucketKey_range entry.size
  have htable : ∀ range ∈ sizeBuckets, range.key ≠ "" ∧ range.key ∈ sizeOrder ∧
      (sizeLabels.lookup range.key).getD range.key = range.label := by decide
  obtain ⟨hne, hin, hlabel⟩ := htable range hrange
  have hnormal : (sizeAddition entry).normalized = range.key := by
    unfold Addition.normalized sizeAddition
    rw [hkey, if_neg hne]
  refine ⟨Or.inl ?_, ?_⟩
  · rw [hnormal, hlabel, sizeAddition, hkey]
  · rw [hnormal]
    exact hin

theorem ageBucketKey_range (lastModified : Option ℤ) (now : ℤ) :
    (∃ range ∈ ageBuckets, ageBucketKey lastModified now = (range.key, range.label)) ∨
      ageBucketKey lastModified now = ("unknown", "Unknown") := by
  unfold ageBucketKey
  split
  · exact Or.inr rfl
  · dsimp only
    split
    · next range hrange => exact Or.inl ⟨range, List.mem_of_find?_eq_some hrange, rfl⟩
    · exact Or.inr rfl

theorem ageAddition_named (now : ℤ) (entry : ObjectVersionEntry) :
    (ageAddition now entry).Named ageLabels (DistributionBuilder.init ageLabels ageOrder).order ∧
      (ageAddition now entry).normalized ∈ (DistributionBuilder.init ageLabels ageOrder).order := by
  have htable : ∀ row ∈ ageLabels, row.1 ≠ "" ∧ row.1 ∈ ageOrder ∧
      (ageLabels.lookup row.1).getD row.1 = row.2 := by decide
  have hrow : ageBucketKey entry.lastModified now ∈ ageLabels := by
    rcases ageBucketKey_range entry.lastModified now with ⟨range, hrange, hkey⟩ | hkey
    · rw [hkey]
      exact List.mem_append_left _ (List.mem_map_of_mem hrange)
    · rw [hkey]
      exact List.mem_append_right _ List.mem_cons_self
  obtain ⟨hne, hin, hlabel⟩ := htable _ hrow
  have hnormal : (ageAddition now entry).normalized = (ageBucketKey entry.lastModified now).1 :=
    if_neg hne
  refine ⟨Or.inl ?_, ?_⟩
  · rw [hnormal, hlabel]
    rfl
  · rw [hnormal]
    exact hin

theorem storageClassKey_ne (text : TextOps) (storageClass : Option String) :
    storageClassKey text storageClass ≠ "" := by
  unfold storageClassKey
  dsimp only
  generalize text.upper _ = named
  split
  · decide
  · assumption

theorem storageClassAddition_named (text : TextOps) (entry : ObjectVersionEntry) :
    (storageClassAddition text entry).Named [] (DistributionBuilder.init [] []).order := by
  have hnormal : (storageClassAddition text entry).normalized =
      storageClassKey text entry.storageClass :=
    if_neg (storageClassKey_ne text entry.storageClass)
  left
  rw [hnormal]
  rfl

theorem classifyParts_mem (parts : NameParts) : classifyParts parts ∈ dataTypeOrder := by
  have hrules : ∀ rule ∈ dataTypeExtensionRules, rule.1 ∈ dataTypeOrder := by decide
  unfold classifyParts
  split
  · decide
  · split
    · decide
    · split
      · decide
      · split
        · decide
        · split
          · next rule hrule => exact hrules rule (List.mem_of_find?_eq_some hrule)
          · split <;> decide

theorem classifyDataType_mem (text : TextOps) (key : String) :
    classifyDataType text key ∈ dataTypeOrder := by
  unfold classifyDataType
  split
  · decide
  · exact classifyParts_mem _

theorem dataTypeAddition_named (text : TextOps) (entry : ObjectVersionEntry) :
    (dataTypeAddition text entry).Named dataTypeLabels
        (DistributionBuilder.init dataTypeLabels dataTypeOrder).order ∧
      (dataTypeAddition text entry).normalized ∈
        (DistributionBuilder.init dataTypeLabels dataTypeOrder).order := by
  have hin := classifyDataType_mem text entry.key
  have hne : classifyDataType text entry.key ≠ "" := by
    intro hempty
    rw [hempty] at hin
    exact absurd hin (by decide)
  have hnormal : (dataTypeAddition text entry).normalized = classifyDataType text entry.key :=
    if_neg hne
  rw [hnormal]
  exact ⟨Or.inr ⟨rfl, hnormal ▸ hin⟩, hin⟩

theorem currentAddition_named (entry : ObjectVersionEntry) :
    (currentAddition entry).Named currentVersionLabels
        (DistributionBuilder.init currentVersionLabels currentVersionOrder).order ∧
      (currentAddition entry).normalized ∈
        (DistributionBuilder.init currentVersionLabels currentVersionOrder).order := by
  have hin : (currentAddition entry).normalized ∈ currentVersionOrder := by
    unfold currentAddition Addition.normalized
    dsimp only
    split <;> decide
  exact ⟨Or.inr ⟨rfl, hin⟩, hin⟩

/-! ## The scan -/

/-- The versions among the items. -/
def versionsOf (items : List Item) : List ObjectVersionEntry :=
  items.filterMap fun
    | .version entry => some entry
    | .deleteMarker => none

def Item.weigh (weight : ObjectVersionEntry → ℕ) : Item → ℕ
  | .version entry => weight entry
  | .deleteMarker => 0

def Item.markers : Item → ℕ
  | .version _ => 0
  | .deleteMarker => 1

/-- The weights of the versions, summed. -/
def total (weight : ObjectVersionEntry → ℕ) (items : List Item) : ℕ :=
  (items.map (Item.weigh weight)).sum

def totalMarkers (items : List Item) : ℕ := (items.map Item.markers).sum

def one (_ : ObjectVersionEntry) : ℕ := 1

def ifCurrent (weight : ObjectVersionEntry → ℕ) (entry : ObjectVersionEntry) : ℕ :=
  if entry.isLatest then weight entry else 0

def ifNoncurrent (weight : ObjectVersionEntry → ℕ) (entry : ObjectVersionEntry) : ℕ :=
  if entry.isLatest then 0 else weight entry

/-- What the scan `scan'` has counted beyond the scan `scan`. -/
structure Scanned (text : TextOps) (items : List Item) (scan scan' : BucketUsageScan) : Prop where
  calculatedAt : scan'.calculatedAt = scan.calculatedAt
  dataTypes : scan'.dataTypes =
    ((versionsOf items).map (dataTypeAddition text)).foldl .add scan.dataTypes
  storageClasses : scan'.storageClasses =
    ((versionsOf items).map (storageClassAddition text)).foldl .add scan.storageClasses
  sizes : scan'.sizes = ((versionsOf items).map sizeAddition).foldl .add scan.sizes
  ages : scan'.ages =
    ((versionsOf items).map (ageAddition scan.calculatedAt)).foldl .add scan.ages
  currentVersions : scan'.currentVersions =
    ((versionsOf items).map currentAddition).foldl .add scan.currentVersions
  objectVersionCount : scan'.objectVersionCount = scan.objectVersionCount + total one items
  currentVersionCount : scan'.currentVersionCount =
    scan.currentVersionCount + total (ifCurrent one) items
  noncurrentVersionCount : scan'.noncurrentVersionCount =
    scan.noncurrentVersionCount + total (ifNoncurrent one) items
  deleteMarkerCount : scan'.deleteMarkerCount = scan.deleteMarkerCount + totalMarkers items
  totalBytes : scan'.totalBytes = scan.totalBytes + total ObjectVersionEntry.size items
  currentBytes : scan'.currentBytes =
    scan.currentBytes + total (ifCurrent ObjectVersionEntry.size) items
  noncurrentBytes : scan'.noncurrentBytes =
    scan.noncurrentBytes + total (ifNoncurrent ObjectVersionEntry.size) items

theorem scanned_nil (text : TextOps) (scan : BucketUsageScan) : Scanned text [] scan scan := by
  constructor <;> rfl

/-- What one item adds to the counters of a scan. -/
structure Added (item : Item) (scan scan' : BucketUsageScan) : Prop where
  objectVersionCount : scan'.objectVersionCount = scan.objectVersionCount + item.weigh one
  currentVersionCount :
    scan'.currentVersionCount = scan.currentVersionCount + item.weigh (ifCurrent one)
  noncurrentVersionCount :
    scan'.noncurrentVersionCount = scan.noncurrentVersionCount + item.weigh (ifNoncurrent one)
  deleteMarkerCount : scan'.deleteMarkerCount = scan.deleteMarkerCount + item.markers
  totalBytes : scan'.totalBytes = scan.totalBytes + item.weigh ObjectVersionEntry.size
  currentBytes :
    scan'.currentBytes = scan.currentBytes + item.weigh (ifCurrent ObjectVersionEntry.size)
  noncurrentBytes :
    scan'.noncurrentBytes = scan.noncurrentBytes + item.weigh (ifNoncurrent ObjectVersionEntry.size)

theorem added_addItem (text : TextOps) (item : Item) (scan : BucketUsageScan) :
    Added item scan (scan.addItem text item) := by
  rcases item with entry | _
  · constructor <;> rfl
  · constructor <;> rfl

theorem scanned_cons {text : TextOps} {item : Item} {items : List Item}
    {scan scan' : BucketUsageScan} (h : Scanned text items (scan.addItem text item) scan') :
    Scanned text (item :: items) scan scan' := by
  have hsum : ∀ weight : ObjectVersionEntry → ℕ,
      total weight (item :: items) = item.weigh weight + total weight items := fun _ => rfl
  have hmarkers : totalMarkers (item :: items) = item.markers + totalMarkers items := rfl
  have hadded := added_addItem text item scan
  constructor
  · rw [h.calculatedAt]
    rcases item with entry | _ <;> rfl
  · rw [h.dataTypes]
    rcases item with entry | _ <;> rfl
  · rw [h.storageClasses]
    rcases item with entry | _ <;> rfl
  · rw [h.sizes]
    rcases item with entry | _ <;> rfl
  · rw [h.ages]
    rcases item with entry | _ <;> rfl
  · rw [h.currentVersions]
    rcases item with entry | _ <;> rfl
  · rw [h.objectVersionCount, hadded.objectVersionCount, hsum, Nat.add_assoc]
  · rw [h.currentVersionCount, hadded.currentVersionCount, hsum, Nat.add_assoc]
  · rw [h.noncurrentVersionCount, hadded.noncurrentVersionCount, hsum, Nat.add_assoc]
  · rw [h.deleteMarkerCount, hadded.deleteMarkerCount, hmarkers, Nat.add_assoc]
  · rw [h.totalBytes, hadded.totalBytes, hsum, Nat.add_assoc]
  · rw [h.currentBytes, hadded.currentBytes, hsum, Nat.add_assoc]
  · rw [h.noncurrentBytes, hadded.noncurrentBytes, hsum, Nat.add_assoc]

theorem scanned_foldl (text : TextOps) (items : List Item) (scan : BucketUsageScan) :
    Scanned text items scan (items.foldl (BucketUsageScan.addItem text) scan) := by
  induction items generalizing scan with
  | nil => exact scanned_nil text scan
  | cons item items ih => exact scanned_cons (ih (scan.addItem text item))

/-! ## What a scan holds -/

theorem tracks_foldl {labels : List (String × String)} {order : List String}
    (hnodup : (DistributionBuilder.init labels order).order.Nodup)
    {f : ObjectVersionEntry → Addition}
    (hf : ∀ entry, (f entry).Named labels (DistributionBuilder.init labels order).order)
    (entries : List ObjectVersionEntry) :
    Tracks labels (DistributionBuilder.init labels order).order (entries.map f)
      ((entries.map f).foldl .add (DistributionBuilder.init labels order)) := by
  have hnamed : ∀ a ∈ entries.map f,
      a.Named labels (DistributionBuilder.init labels order).order := by
    intro a ha
    obtain ⟨entry, -, rfl⟩ := List.mem_map.mp ha
    exact hf entry
  simpa using (Tracks.init labels order hnodup).addAll hnamed

section Scan

variable (text : TextOps) (now : ℤ) (items : List Item)

theorem scanned_items : Scanned text items { calculatedAt := now } (scanItems text now items) :=
  scanned_foldl text items _

theorem dataTypes_tracks :
    Tracks dataTypeLabels (DistributionBuilder.init dataTypeLabels dataTypeOrder).order
      ((versionsOf items).map (dataTypeAddition text)) (scanItems text now items).dataTypes := by
  rw [(scanned_items text now items).dataTypes]
  exact tracks_foldl (by decide) (fun entry => (dataTypeAddition_named text entry).1) _

theorem storageClasses_tracks :
    Tracks [] (DistributionBuilder.init [] []).order
      ((versionsOf items).map (storageClassAddition text))
      (scanItems text now items).storageClasses := by
  rw [(scanned_items text now items).storageClasses]
  exact tracks_foldl (by decide) (fun entry => storageClassAddition_named text entry) _

theorem sizes_tracks :
    Tracks sizeLabels (DistributionBuilder.init sizeLabels sizeOrder).order
      ((versionsOf items).map sizeAddition) (scanItems text now items).sizes := by
  rw [(scanned_items text now items).sizes]
  exact tracks_foldl (by decide) (fun entry => (sizeAddition_named entry).1) _

theorem ages_tracks :
    Tracks ageLabels (DistributionBuilder.init ageLabels ageOrder).order
      ((versionsOf items).map (ageAddition now)) (scanItems text now items).ages := by
  rw [(scanned_items text now items).ages]
  exact tracks_foldl (by decide) (fun entry => (ageAddition_named now entry).1) _

theorem currentVersions_tracks :
    Tracks currentVersionLabels
      (DistributionBuilder.init currentVersionLabels currentVersionOrder).order
      ((versionsOf items).map currentAddition) (scanItems text now items).currentVersions := by
  rw [(scanned_items text now items).currentVersions]
  exact tracks_foldl (by decide) (fun entry => (currentAddition_named entry).1) _

end Scan

/-- A distribution whose keys are all known beforehand keeps their order. -/
theorem order_foldl_known {b : DistributionBuilder} {f : ObjectVersionEntry → Addition}
    (hf : ∀ entry, (f entry).normalized ∈ b.order) (entries : List ObjectVersionEntry) :
    ((entries.map f).foldl .add b).order = b.order := by
  apply order_foldl_add
  intro a ha
  obtain ⟨entry, -, rfl⟩ := List.mem_map.mp ha
  exact hf entry

/-! ## Sums over buckets -/

theorem sum_versionsOf (weight : ObjectVersionEntry → ℕ) (items : List Item) :
    ((versionsOf items).map weight).sum = total weight items := by
  induction items with
  | nil => rfl
  | cons item items ih =>
    rcases item with entry | _
    · show weight entry + ((versionsOf items).map weight).sum = weight entry + total weight items
      rw [ih]
    · show ((versionsOf items).map weight).sum = 0 + total weight items
      rw [ih, Nat.zero_add]

theorem sum_over_buckets (weight : Item → ℕ) {buckets : List Listing} {all : List Item}
    (hall : all.Perm (buckets.flatMap Listing.items)) :
    (buckets.map fun listing => (listing.items.map weight).sum).sum = (all.map weight).sum := by
  rw [(hall.map weight).sum_eq]
  clear hall
  induction buckets with
  | nil => rfl
  | cons listing buckets ih =>
    rw [List.map_cons, List.sum_cons, ih, List.flatMap_cons, List.map_append, List.sum_append]

theorem additions_perm (f : ObjectVersionEntry → Addition) {buckets : List Listing}
    {all : List Item} (hall : all.Perm (buckets.flatMap Listing.items)) :
    ((versionsOf all).map f).Perm
      (buckets.flatMap fun listing => (versionsOf listing.items).map f) := by
  have hversions : versionsOf (buckets.flatMap Listing.items) =
      buckets.flatMap fun listing => versionsOf listing.items := by
    clear hall
    induction buckets with
    | nil => rfl
    | cons listing buckets ih =>
      rw [List.flatMap_cons, List.flatMap_cons, ← ih]
      exact List.filterMap_append
  rw [← List.map_flatMap, ← hversions]
  exact (hall.filterMap _).map f

/-! ## Current and earlier versions -/

theorem tally_currentAdditions {weight : Addition → ℕ} {w : ObjectVersionEntry → ℕ}
    (hentry : ∀ entry, weight (currentAddition entry) = w entry) (items : List Item) (key : String) :
    tally Addition.normalized weight ((versionsOf items).map currentAddition) key =
      (if "current" = key then total (ifCurrent w) items else 0) +
        if "noncurrent" = key then total (ifNoncurrent w) items else 0 := by
  induction items with
  | nil => simp [versionsOf, total]
  | cons item items ih =>
    rcases item with entry | _
    · have hcons : (versionsOf (.version entry :: items)).map currentAddition =
          currentAddition entry :: (versionsOf items).map currentAddition := rfl
      have hcurrent : total (ifCurrent w) (.version entry :: items) =
          ifCurrent w entry + total (ifCurrent w) items := rfl
      have hnoncurrent : total (ifNoncurrent w) (.version entry :: items) =
          ifNoncurrent w entry + total (ifNoncurrent w) items := rfl
      have hnormal : (currentAddition entry).normalized =
          if entry.isLatest then "current" else "noncurrent" := by
        unfold currentAddition Addition.normalized
        dsimp only
        split <;> rfl
      rw [hcons, tally_cons, ih, hcurrent, hnoncurrent, hnormal, hentry, ifCurrent, ifNoncurrent]
      by_cases hlatest : entry.isLatest
      · simp only [hlatest, if_true]
        split_ifs <;> omega
      · simp only [hlatest, Bool.false_eq_true, if_false]
        split_ifs <;> omega
    · have hskip : ∀ w, total w (.deleteMarker :: items) = total w items := fun w => Nat.zero_add _
      rw [hskip, hskip]
      exact ih

theorem tally_currentNoncurrent {weight : Addition → ℕ} {current noncurrent : Addition}
    (hcurrent : current.normalized = "current") (hnoncurrent : noncurrent.normalized = "noncurrent")
    (key : String) : tally Addition.normalized weight [current, noncurrent] key =
      (if "current" = key then weight current else 0) +
        if "noncurrent" = key then weight noncurrent else 0 := by
  rw [tally_cons, tally_cons, tally_nil, add_zero, hcurrent, hnoncurrent]

/-! ## The aggregate -/

/-- The aggregate says of the buckets what the snapshot says of their versions taken together. -/
structure SameStatistics (aggregate : Aggregate) (whole : Snapshot) : Prop where
  objectVersionCount : aggregate.totals.objectVersionCount = whole.objectVersionCount
  currentVersionCount : aggregate.totals.currentVersionCount = whole.currentVersionCount
  noncurrentVersionCount : aggregate.totals.noncurrentVersionCount = whole.noncurrentVersionCount
  deleteMarkerCount : aggregate.totals.deleteMarkerCount = whole.deleteMarkerCount
  totalBytes : aggregate.totals.totalBytes = whole.totalBytes
  currentBytes : aggregate.totals.currentBytes = whole.currentBytes
  noncurrentBytes : aggregate.totals.noncurrentBytes = whole.noncurrentBytes
  dataType : aggregate.distributions.dataType = whole.dataTypeDistribution
  storageClass : aggregate.distributions.storageClass.Perm whole.storageClassDistribution
  size : aggregate.distributions.size = whole.sizeDistribution
  age : aggregate.distributions.age = whole.ageDistribution
  currentVsNoncurrent : aggregate.distributions.currentVsNoncurrent = whole.currentVsNoncurrent

def Snapshot.Balanced (snapshot : Snapshot) : Prop :=
  (∀ es ∈ [snapshot.dataTypeDistribution, snapshot.storageClassDistribution,
      snapshot.sizeDistribution, snapshot.ageDistribution],
    SumsTo es snapshot.objectVersionCount snapshot.totalBytes) ∧
  snapshot.currentVersionCount + snapshot.noncurrentVersionCount = snapshot.objectVersionCount ∧
  snapshot.currentBytes + snapshot.noncurrentBytes = snapshot.totalBytes

def Aggregate.Balanced (aggregate : Aggregate) : Prop :=
  (∀ es ∈ [aggregate.distributions.dataType, aggregate.distributions.storageClass,
      aggregate.distributions.size, aggregate.distributions.age,
      aggregate.distributions.currentVsNoncurrent],
    SumsTo es aggregate.totals.objectVersionCount aggregate.totals.totalBytes) ∧
  aggregate.totals.currentVersionCount + aggregate.totals.noncurrentVersionCount =
    aggregate.totals.objectVersionCount ∧
  aggregate.totals.currentBytes + aggregate.totals.noncurrentBytes = aggregate.totals.totalBytes

section Bucket

variable (text : TextOps) (now : ℤ)

/-- The snapshot of a bucket, up to its mode, is that of its scan. -/
theorem calculateBucket_eq (listing : Listing) :
    calculateBucket text now listing = (scanItems text now listing.items).snapshot .versions true ∧
        (∃ items, listing = .versions items) ∨
      calculateBucket text now listing =
        (scanItems text now listing.items).snapshot .currentOnly false ∧
        ∃ entries, listing = .currentObjects entries := by
  rcases listing with items | entries
  · exact Or.inl ⟨rfl, items, rfl⟩
  · exact Or.inr ⟨rfl, entries, rfl⟩

theorem scan_counts (items : List Item) :
    (scanItems text now items).objectVersionCount = total one items ∧
      (scanItems text now items).currentVersionCount = total (ifCurrent one) items ∧
      (scanItems text now items).noncurrentVersionCount = total (ifNoncurrent one) items ∧
      (scanItems text now items).deleteMarkerCount = totalMarkers items ∧
      (scanItems text now items).totalBytes = total ObjectVersionEntry.size items ∧
      (scanItems text now items).currentBytes = total (ifCurrent ObjectVersionEntry.size) items ∧
      (scanItems text now items).noncurrentBytes =
        total (ifNoncurrent ObjectVersionEntry.size) items := by
  have h := scanned_items text now items
  refine ⟨?_, ?_, ?_, ?_, ?_, ?_, ?_⟩
  · rw [h.objectVersionCount, Nat.zero_add]
  · rw [h.currentVersionCount, Nat.zero_add]
  · rw [h.noncurrentVersionCount, Nat.zero_add]
  · rw [h.deleteMarkerCount, Nat.zero_add]
  · rw [h.totalBytes, Nat.zero_add]
  · rw [h.currentBytes, Nat.zero_add]
  · rw [h.noncurrentBytes, Nat.zero_add]

theorem current_add_noncurrent (w : ObjectVersionEntry → ℕ) (items : List Item) :
    total (ifCurrent w) items + total (ifNoncurrent w) items = total w items := by
  induction items with
  | nil => rfl
  | cons item items ih =>
    have hcons : ∀ w, total w (item :: items) = item.weigh w + total w items := fun _ => rfl
    have hitem : item.weigh (ifCurrent w) + item.weigh (ifNoncurrent w) = item.weigh w := by
      rcases item with entry | _
      · unfold Item.weigh ifCurrent ifNoncurrent
        dsimp only
        split <;> omega
      · rfl
    rw [hcons, hcons, hcons]
    omega

/-- The entries of a distribution of one addition for each version sum to the totals. -/
theorem sumsTo_totals {labels : List (String × String)} {start : List String} {b : DistributionBuilder}
    {f : ObjectVersionEntry → Addition} {items : List Item}
    (h : Tracks labels start ((versionsOf items).map f) b) (hcount : ∀ entry, (f entry).count = 1)
    (hbytes : ∀ entry, (f entry).bytesValue = entry.size) (zero : Bool) :
    SumsTo (b.entries (scanItems text now items).objectVersionCount
        (scanItems text now items).totalBytes zero)
      (scanItems text now items).objectVersionCount (scanItems text now items).totalBytes := by
  obtain ⟨htotal, -, -, -, hsize, -⟩ := scan_counts text now items
  have hone : (((versionsOf items).map f).map Addition.count).sum = total one items := by
    rw [List.map_map, ← sum_versionsOf]
    congr 2
    funext entry
    exact hcount entry
  have hall : (((versionsOf items).map f).map Addition.bytesValue).sum =
      total ObjectVersionEntry.size items := by
    rw [List.map_map, ← sum_versionsOf]
    congr 2
    funext entry
    exact hbytes entry
  have hsums := h.sumsTo (scanItems text now items).objectVersionCount
    (scanItems text now items).totalBytes zero
  rw [hone, hall] at hsums
  rw [htotal, hsize] at hsums ⊢
  exact hsums

theorem calculateBucket_balanced (listing : Listing) :
    (calculateBucket text now listing).Balanced := by
  have hscan : ∀ items mode available,
      ((scanItems text now items).snapshot mode available).Balanced := by
    intro items mode available
    obtain ⟨htotal, hcurrent, hnoncurrent, -, hsize, hcurrentSize, hnoncurrentSize⟩ :=
      scan_counts text now items
    refine ⟨?_, ?_, ?_⟩
    · intro es hes
      simp only [List.mem_cons, List.not_mem_nil, or_false] at hes
      rcases hes with rfl | rfl | rfl | rfl
      · exact sumsTo_totals text now (dataTypes_tracks text now items) (fun _ => rfl) (fun _ => rfl) _
      · exact sumsTo_totals text now (storageClasses_tracks text now items) (fun _ => rfl)
          (fun _ => rfl) _
      · exact sumsTo_totals text now (sizes_tracks text now items) (fun _ => rfl) (fun _ => rfl) _
      · exact sumsTo_totals text now (ages_tracks text now items) (fun _ => rfl) (fun _ => rfl) _
    · show (scanItems text now items).currentVersionCount +
        (scanItems text now items).noncurrentVersionCount =
          (scanItems text now items).objectVersionCount
      rw [htotal, hcurrent, hnoncurrent, current_add_noncurrent]
    · show (scanItems text now items).currentBytes + (scanItems text now items).noncurrentBytes =
        (scanItems text now items).totalBytes
      rw [hsize, hcurrentSize, hnoncurrentSize, current_add_noncurrent]
  rcases calculateBucket_eq text now listing with ⟨h, -⟩ | ⟨h, -⟩
  · rw [h]
    exact hscan _ _ _
  · rw [h]
    exact hscan _ _ _

/-- Where versions are listed, the current and the earlier ones make up the whole. -/
theorem currentVsNoncurrent_sumsTo (items : List Item) :
    SumsTo (calculateBucket text now (.versions items)).currentVsNoncurrent
      (calculateBucket text now (.versions items)).objectVersionCount
      (calculateBucket text now (.versions items)).totalBytes :=
  sumsTo_totals text now (currentVersions_tracks text now items) (fun _ => rfl) (fun _ => rfl) true

/-- The counters of a snapshot. -/
theorem calculateBucket_counts (listing : Listing) :
    (calculateBucket text now listing).objectVersionCount = total one listing.items ∧
      (calculateBucket text now listing).currentVersionCount = total (ifCurrent one) listing.items ∧
      (calculateBucket text now listing).noncurrentVersionCount =
        total (ifNoncurrent one) listing.items ∧
      (calculateBucket text now listing).deleteMarkerCount = totalMarkers listing.items ∧
      (calculateBucket text now listing).totalBytes = total ObjectVersionEntry.size listing.items ∧
      (calculateBucket text now listing).currentBytes =
        total (ifCurrent ObjectVersionEntry.size) listing.items ∧
      (calculateBucket text now listing).noncurrentBytes =
        total (ifNoncurrent ObjectVersionEntry.size) listing.items := by
  have h := scan_counts text now listing.items
  rcases listing with items | entries
  · exact h
  · exact h

variable {buckets : List Listing} {all : List Item}

theorem sum_snapshots {field : Snapshot → ℕ} (weight : Item → ℕ)
    (h : ∀ listing, field (calculateBucket text now listing) = (listing.items.map weight).sum)
    (hall : all.Perm (buckets.flatMap Listing.items)) :
    ((buckets.map (calculateBucket text now)).map field).sum = (all.map weight).sum := by
  rw [← sum_over_buckets weight hall, List.map_map]
  congr 1
  apply List.map_congr_left
  intro listing _
  exact h listing

theorem aggregateTotals_eq (hall : all.Perm (buckets.flatMap Listing.items)) :
    (aggregateTotals (buckets.map (calculateBucket text now))).objectVersionCount = total one all ∧
      (aggregateTotals (buckets.map (calculateBucket text now))).currentVersionCount =
        total (ifCurrent one) all ∧
      (aggregateTotals (buckets.map (calculateBucket text now))).noncurrentVersionCount =
        total (ifNoncurrent one) all ∧
      (aggregateTotals (buckets.map (calculateBucket text now))).deleteMarkerCount =
        totalMarkers all ∧
      (aggregateTotals (buckets.map (calculateBucket text now))).totalBytes =
        total ObjectVersionEntry.size all ∧
      (aggregateTotals (buckets.map (calculateBucket text now))).currentBytes =
        total (ifCurrent ObjectVersionEntry.size) all ∧
      (aggregateTotals (buckets.map (calculateBucket text now))).noncurrentBytes =
        total (ifNoncurrent ObjectVersionEntry.size) all := by
  have h := calculateBucket_counts text now
  refine ⟨?_, ?_, ?_, ?_, ?_, ?_, ?_⟩
  · exact sum_snapshots text now (Item.weigh one) (fun listing => (h listing).1) hall
  · exact sum_snapshots text now (Item.weigh (ifCurrent one)) (fun listing => (h listing).2.1) hall
  · exact sum_snapshots text now (Item.weigh (ifNoncurrent one)) (fun listing => (h listing).2.2.1) hall
  · exact sum_snapshots text now Item.markers (fun listing => (h listing).2.2.2.1) hall
  · exact sum_snapshots text now (Item.weigh ObjectVersionEntry.size)
      (fun listing => (h listing).2.2.2.2.1) hall
  · exact sum_snapshots text now (Item.weigh (ifCurrent ObjectVersionEntry.size))
      (fun listing => (h listing).2.2.2.2.2.1) hall
  · exact sum_snapshots text now (Item.weigh (ifNoncurrent ObjectVersionEntry.size))
      (fun listing => (h listing).2.2.2.2.2.2) hall

/-- The totals make the entries that the scan of the whole makes. -/
theorem currentNoncurrentEntries_eq {totals : Totals} (items : List Item)
    (hcurrent : totals.currentVersionCount = total (ifCurrent one) items)
    (hnoncurrent : totals.noncurrentVersionCount = total (ifNoncurrent one) items)
    (hcurrentSize : totals.currentBytes = total (ifCurrent ObjectVersionEntry.size) items)
    (hnoncurrentSize : totals.noncurrentBytes = total (ifNoncurrent ObjectVersionEntry.size) items) :
    currentNoncurrentEntries totals =
      (scanItems text now items).currentVersions.entries totals.objectVersionCount totals.totalBytes
        true := by
  let current : Addition :=
    { key := "current", count := totals.currentVersionCount, bytesValue := totals.currentBytes }
  let noncurrent : Addition :=
    { key := "noncurrent", count := totals.noncurrentVersionCount
      bytesValue := totals.noncurrentBytes }
  have hkey : current.normalized = "current" := if_neg (show ¬"current" = "" by decide)
  have hkey' : noncurrent.normalized = "noncurrent" := if_neg (show ¬"noncurrent" = "" by decide)
  have hinit := Tracks.init currentVersionLabels currentVersionOrder (by decide)
  have hcurrentAdd := hinit.add (Or.inr ⟨rfl, by rw [hkey]; decide⟩ : current.Named _ _)
  have htracks := hcurrentAdd.add (Or.inr ⟨rfl, by rw [hkey']; decide⟩ : noncurrent.Named _ _)
  have hscan := currentVersions_tracks text now items
  refine htracks.entries_eq hscan ?_ ?_ ?_ _ _ _
  · rw [htracks.counts, hscan.counts]
    funext key
    rw [tally_currentAdditions (w := one) (fun _ => rfl)]
    show tally _ _ [current, noncurrent] key = _
    rw [tally_currentNoncurrent hkey hkey', ← hcurrent, ← hnoncurrent]
  · rw [htracks.bytes, hscan.bytes]
    funext key
    rw [tally_currentAdditions (w := ObjectVersionEntry.size) (fun _ => rfl)]
    show tally _ _ [current, noncurrent] key = _
    rw [tally_currentNoncurrent hkey hkey', ← hcurrentSize, ← hnoncurrentSize]
  · rw [(scanned_items text now items).currentVersions,
      order_foldl_known fun entry => (currentAddition_named entry).2]
    rfl

/-- Merged over the buckets, a distribution is that of the scan of the whole. -/
theorem merge_scans_eq {labels : List (String × String)} {order : List String}
    {f : ObjectVersionEntry → Addition} {part : BucketUsageScan → DistributionBuilder} {zero : Bool}
    (field : Snapshot → List Entry)
    (hfield : ∀ listing, field (calculateBucket text now listing) =
      (part (scanItems text now listing.items)).entries
        (scanItems text now listing.items).objectVersionCount
        (scanItems text now listing.items).totalBytes zero)
    (hnodup : (DistributionBuilder.init labels order).order.Nodup)
    (hnonempty : "" ∉ (DistributionBuilder.init labels order).order)
    (htracks : ∀ items, Tracks labels (DistributionBuilder.init labels order).order
      ((versionsOf items).map f) (part (scanItems text now items)))
    (hpart : ∀ items, part (scanItems text now items) =
      ((versionsOf items).map f).foldl .add (DistributionBuilder.init labels order))
    (hfixed : ∀ entry, (f entry).normalized ∈ (DistributionBuilder.init labels order).order)
    (hall : all.Perm (buckets.flatMap Listing.items)) (count bytes : ℕ) :
    mergeDistributionEntries ((buckets.map (calculateBucket text now)).map field) count bytes labels
        order zero =
      (part (scanItems text now all)).entries count bytes zero := by
  rw [List.map_map]
  refine merge_eq hnodup ?_ (htracks all) (additions_perm f hall) ?_ ?_ _ _ _
  · intro listing _
    show Serialises _ _ _ (field (calculateBucket text now listing))
    rw [hfield]
    exact (htracks listing.items).serialises hnonempty _ _ zero
  · rw [hpart]
    exact order_foldl_known hfixed _
  · intro a ha
    obtain ⟨entry, -, rfl⟩ := List.mem_map.mp ha
    exact hfixed entry

/-- The aggregate of the buckets is the snapshot of their versions scanned as one bucket. -/
theorem sameStatistics_union (hall : all.Perm (buckets.flatMap Listing.items)) :
    SameStatistics (buildBucketUsageAggregate (buckets.map (calculateBucket text now)))
      (calculateBucket text now (.versions all)) := by
  obtain ⟨hcount, hcurrent, hnoncurrent, hmarkers, hsize, hcurrentSize, hnoncurrentSize⟩ :=
    aggregateTotals_eq text now hall
  obtain ⟨hcount', hcurrent', hnoncurrent', hmarkers', hsize', hcurrentSize', hnoncurrentSize'⟩ :=
    calculateBucket_counts text now (.versions all)
  have hsameCount := hcount.trans hcount'.symm
  have hsameSize := hsize.trans hsize'.symm
  refine ⟨hsameCount, hcurrent.trans hcurrent'.symm, hnoncurrent.trans hnoncurrent'.symm,
    hmarkers.trans hmarkers'.symm, hsameSize, hcurrentSize.trans hcurrentSize'.symm,
    hnoncurrentSize.trans hnoncurrentSize'.symm, ?_, ?_, ?_, ?_, ?_⟩
  · show mergeDistributionEntries ((buckets.map (calculateBucket text now)).map
      Snapshot.dataTypeDistribution) _ _ _ _ _ = _
    rw [hsameCount, hsameSize]
    exact merge_scans_eq text now _ (fun listing => by rcases listing with _ | _ <;> rfl)
      (by decide) (by decide) (dataTypes_tracks text now)
      (fun items => (scanned_items text now items).dataTypes)
      (fun entry => (dataTypeAddition_named text entry).2) hall _ _
  · show (mergeDistributionEntries ((buckets.map (calculateBucket text now)).map
      Snapshot.storageClassDistribution) _ _ _ _ _).Perm _
    rw [List.map_map, hsameCount, hsameSize]
    refine merge_perm (by decide) ?_ (storageClasses_tracks text now all)
      (additions_perm (storageClassAddition text) hall) _ _
    intro listing _
    have h := (storageClasses_tracks text now listing.items).serialises (by decide)
      (scanItems text now listing.items).objectVersionCount
      (scanItems text now listing.items).totalBytes false
    rcases listing with _ | _ <;> exact h
  · show mergeDistributionEntries ((buckets.map (calculateBucket text now)).map
      Snapshot.sizeDistribution) _ _ _ _ _ = _
    rw [hsameCount, hsameSize]
    exact merge_scans_eq text now _ (fun listing => by rcases listing with _ | _ <;> rfl)
      (by decide) (by decide) (sizes_tracks text now)
      (fun items => (scanned_items text now items).sizes)
      (fun entry => (sizeAddition_named entry).2) hall _ _
  · show mergeDistributionEntries ((buckets.map (calculateBucket text now)).map
      Snapshot.ageDistribution) _ _ _ _ _ = _
    rw [hsameCount, hsameSize]
    exact merge_scans_eq text now _ (fun listing => by rcases listing with _ | _ <;> rfl)
      (by decide) (by decide) (ages_tracks text now)
      (fun items => (scanned_items text now items).ages)
      (fun entry => (ageAddition_named now entry).2) hall _ _
  · show currentNoncurrentEntries _ = _
    rw [currentNoncurrentEntries_eq text now all hcurrent hnoncurrent hcurrentSize hnoncurrentSize,
      hsameCount, hsameSize]
    rfl

theorem SumsTo.perm {es es' : List Entry} {count bytes : ℕ} (h : SumsTo es count bytes)
    (hperm : es'.Perm es) : SumsTo es' count bytes := by
  unfold SumsTo at h ⊢
  rw [(hperm.map _).sum_eq, (hperm.map _).sum_eq]
  exact h

theorem aggregate_balanced (buckets : List Listing) :
    (buildBucketUsageAggregate (buckets.map (calculateBucket text now))).Balanced := by
  have hsame := sameStatistics_union text now (List.Perm.refl (buckets.flatMap Listing.items))
  obtain ⟨hsums, hcounts, hbytes⟩ :=
    calculateBucket_balanced text now (.versions (buckets.flatMap Listing.items))
  have hcurrent := currentVsNoncurrent_sumsTo text now (buckets.flatMap Listing.items)
  refine ⟨?_, ?_, ?_⟩
  · intro es hes
    rw [hsame.objectVersionCount, hsame.totalBytes]
    simp only [List.mem_cons, List.not_mem_nil, or_false] at hes
    rcases hes with rfl | rfl | rfl | rfl | rfl
    · rw [hsame.dataType]
      exact hsums _ (by simp)
    · exact (hsums _ (by simp)).perm hsame.storageClass
    · rw [hsame.size]
      exact hsums _ (by simp)
    · rw [hsame.age]
      exact hsums _ (by simp)
    · rw [hsame.currentVsNoncurrent]
      exact hcurrent
  · rw [hsame.currentVersionCount, hsame.noncurrentVersionCount, hsame.objectVersionCount]
    exact hcounts
  · rw [hsame.currentBytes, hsame.noncurrentBytes, hsame.totalBytes]
    exact hbytes

theorem aggregate_instants (hbuckets : buckets ≠ []) :
    (aggregateTotals (buckets.map (calculateBucket text now))).oldestSnapshotAt = some now ∧
      (aggregateTotals (buckets.map (calculateBucket text now))).newestSnapshotAt = some now := by
  have hinstant : ∀ listing, (calculateBucket text now listing).calculatedAt = now := by
    intro listing
    have h := (scanned_items text now listing.items).calculatedAt
    rcases listing with _ | _ <;> exact h
  have hall : (buckets.map (calculateBucket text now)).map Snapshot.calculatedAt =
      List.replicate buckets.length now := by
    rw [List.map_map, ← List.map_const']
    apply List.map_congr_left
    intro listing _
    exact hinstant listing
  have hpos : 0 < buckets.length := List.length_pos_iff.mpr hbuckets
  unfold aggregateTotals
  dsimp only
  rw [hall, List.min?_replicate_of_pos hpos, List.max?_replicate_of_pos hpos]
  exact ⟨rfl, rfl⟩

end Bucket

/-- For every way to spread versions and delete markers over buckets, and every order in which they are
listed, the aggregate of the snapshots is the snapshot of all of them in one bucket. Every distribution
accounts for every version in every aggregate and in every snapshot; a snapshot made from the current
objects alone leaves the split into current and earlier versions out. -/
theorem aggregate_is_homomorphism (text : TextOps) (now : ℤ) (buckets : List Listing) (all : List Item)
    (hall : all.Perm (buckets.flatMap Listing.items)) :
    SameStatistics (buildBucketUsageAggregate (buckets.map (calculateBucket text now)))
        (calculateBucket text now (.versions all)) ∧
      (buckets ≠ [] →
        (aggregateTotals (buckets.map (calculateBucket text now))).oldestSnapshotAt = some now ∧
        (aggregateTotals (buckets.map (calculateBucket text now))).newestSnapshotAt = some now) ∧
      (buildBucketUsageAggregate (buckets.map (calculateBucket text now))).Balanced ∧
      (∀ listing, (calculateBucket text now listing).Balanced) ∧
      (∀ items, SumsTo (calculateBucket text now (.versions items)).currentVsNoncurrent
        (calculateBucket text now (.versions items)).objectVersionCount
        (calculateBucket text now (.versions items)).totalBytes) ∧
      ∀ entries, (calculateBucket text now (.currentObjects entries)).currentVsNoncurrent = [] :=
  ⟨sameStatistics_union text now hall, aggregate_instants text now, aggregate_balanced text now buckets,
    calculateBucket_balanced text now, currentVsNoncurrent_sumsTo text now, fun _ => rfl⟩

/-- An image of a day ago, and an earlier version of a text without a storage class. -/
def photo : ObjectVersionEntry := ⟨"photos/a.JPG", 2048, some 0, some "glacier ", true⟩

def notes : ObjectVersionEntry := ⟨"notes.txt", 10, none, none, false⟩

theorem aggregate_is_homomorphism_two :
    SameStatistics
      (buildBucketUsageAggregate (([.versions [.version photo, .deleteMarker],
        .versions [.version notes]] : List Listing).map (calculateBucket .ascii 86400000000)))
      (calculateBucket .ascii 86400000000
        (.versions [.version notes, .version photo, .deleteMarker])) :=
  (aggregate_is_homomorphism .ascii 86400000000
    [.versions [.version photo, .deleteMarker], .versions [.version notes]]
    [.version notes, .version photo, .deleteMarker]
    (List.perm_append_comm :
      ([Item.version notes] ++ [Item.version photo, Item.deleteMarker]).Perm _)).1

/-- One object of an endpoint without version listings is missing from the split. -/
theorem current_objects_are_not_split :
    ¬ ∀ (text : TextOps) (now : ℤ) (listing : Listing),
      SumsTo (calculateBucket text now listing).currentVsNoncurrent
        (calculateBucket text now listing).objectVersionCount
        (calculateBucket text now listing).totalBytes := by
  intro h
  have hsum : 0 = 1 := (h .ascii 0 (.currentObjects [photo])).1
  exact absurd hsum (by decide)

end UsageStats
end BucketReef

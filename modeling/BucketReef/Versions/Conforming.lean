import BucketReef.Versions.Grouping

/-!
# Conforming listings

A bucket's version listing in the order S3 documents it: keys ascending, the entries of a key
newest first, exactly one of them, the newest, flagged `IsLatest`. `Paged` cuts it into pages and
splits each page into its two arrays, which is where the order between an object version and a
delete marker is lost.
-/

namespace BucketReef
namespace Versions

open Lists

/-- A version or delete marker as the service holds it; key and version id are never empty. -/
structure ListedVersion where
  key : String
  versionId : String
  isDeleteMarker : Bool
  isLatest : Bool
  lastModified : Int
  size : Nat
  etag : Option String
  storageClass : Option String
  key_ne : key ≠ ""
  versionId_ne : versionId ≠ ""
  deriving DecidableEq

namespace ListedVersion

/-- The entry as the response spells it. -/
def raw (v : ListedVersion) : RawVersion where
  key := some v.key
  versionId := some v.versionId
  isLatest := v.isLatest
  lastModified := some v.lastModified
  size := v.size
  etag := v.etag
  storageClass := v.storageClass

/-- The entry the iterator builds at an arrival index. -/
def entry (v : ListedVersion) (orderIndex : ℕ) : BucketVersionEntry where
  key := v.key
  versionId := v.versionId
  isDeleteMarker := v.isDeleteMarker
  isLatest := v.isLatest
  lastModified := some v.lastModified
  size := if v.isDeleteMarker then 0 else v.size
  etag := if v.isDeleteMarker then none else normalizeEtag v.etag
  storageClass := if v.isDeleteMarker then none else v.storageClass
  orderIndex := orderIndex

end ListedVersion

/-- The page that carries a stretch of the listing. -/
def Page.Carries (page : Page) (chunk : List ListedVersion) : Prop :=
  page.versions = (chunk.filter fun v => !v.isDeleteMarker).map ListedVersion.raw ∧
    page.deleteMarkers = (chunk.filter fun v => v.isDeleteMarker).map ListedVersion.raw

/-- A paginated result: every page but the last carries a marker for the next request. -/
inductive Paged : List ListedVersion → List Page → Prop
  | last {chunk : List ListedVersion} {page : Page} :
      page.Carries chunk → page.isLast = true → Paged chunk [page]
  | more {chunk rest : List ListedVersion} {page : Page} {pages : List Page} :
      page.Carries chunk → page.isLast = false → Paged rest pages →
      Paged (chunk ++ rest) (page :: pages)

/-- A listing in S3's order. -/
structure Listing (listing : List ListedVersion) : Prop where
  keys_ascending : listing.Pairwise fun a b => a.key ≤ b.key
  newest_first : listing.Pairwise fun a b => a.key = b.key → b.lastModified ≤ a.lastModified
  latest_is_newest : listing.Pairwise fun a b => a.key = b.key → b.isLatest = false
  latest_exists : ∀ v ∈ listing, ∃ w ∈ listing, w.key = v.key ∧ w.isLatest = true

/-! ## Arrival order -/

/-- A stretch of the listing in the order its page lists it: objects, then markers. -/
def arrayOrder (chunk : List ListedVersion) : List ListedVersion :=
  (chunk.filter fun v => !v.isDeleteMarker) ++ chunk.filter fun v => v.isDeleteMarker

/-- Consecutive arrival indices from `orderIndex`. -/
def numbered (orderIndex : ℕ) : List ListedVersion → List BucketVersionEntry
  | [] => []
  | v :: rest => v.entry orderIndex :: numbered (orderIndex + 1) rest

theorem numbered_append (orderIndex : ℕ) (xs ys : List ListedVersion) :
    numbered orderIndex (xs ++ ys) =
      numbered orderIndex xs ++ numbered (orderIndex + xs.length) ys := by
  induction xs generalizing orderIndex with
  | nil => simp [numbered]
  | cons v rest ih =>
    simp only [List.cons_append, numbered, ih, List.length_cons]
    rw [Nat.add_right_comm, Nat.add_assoc]

theorem mem_numbered {orderIndex : ℕ} {l : List ListedVersion} {e : BucketVersionEntry}
    (h : e ∈ numbered orderIndex l) : ∃ v ∈ l, ∃ j, orderIndex ≤ j ∧ e = v.entry j := by
  induction l generalizing orderIndex with
  | nil => simp [numbered] at h
  | cons v rest ih =>
    rcases List.mem_cons.mp h with rfl | h
    · exact ⟨v, by simp, orderIndex, le_rfl, rfl⟩
    · obtain ⟨w, hw, j, hj, rfl⟩ := ih h
      exact ⟨w, by simp [hw], j, by omega, rfl⟩

theorem entry_mem_numbered {l : List ListedVersion} {v : ListedVersion} (h : v ∈ l)
    (orderIndex : ℕ) : ∃ j, v.entry j ∈ numbered orderIndex l := by
  induction l generalizing orderIndex with
  | nil => simp at h
  | cons w rest ih =>
    rcases List.mem_cons.mp h with rfl | h
    · exact ⟨orderIndex, by simp [numbered]⟩
    · obtain ⟨j, hj⟩ := ih h (orderIndex + 1)
      exact ⟨j, by simp [numbered, hj]⟩

/-- A relation between earlier and later listed versions holds of the numbered entries, and the
numbers increase. -/
theorem numbered_pairwise {R : ListedVersion → ListedVersion → Prop} {l : List ListedVersion}
    (h : l.Pairwise R) (orderIndex : ℕ) :
    (numbered orderIndex l).Pairwise fun a b =>
      a.orderIndex < b.orderIndex ∧
        ∃ v w i j, a = v.entry i ∧ b = w.entry j ∧ R v w := by
  induction l generalizing orderIndex with
  | nil => exact List.Pairwise.nil
  | cons v rest ih =>
    obtain ⟨hhead, htail⟩ := List.pairwise_cons.mp h
    refine List.pairwise_cons.mpr ⟨?_, ih htail (orderIndex + 1)⟩
    intro b hb
    obtain ⟨w, hw, j, hj, rfl⟩ := mem_numbered hb
    exact ⟨Nat.lt_of_succ_le hj, v, w, orderIndex, j, rfl, rfl, hhead w hw⟩

theorem versionEntryFromRaw_raw (v : ListedVersion) (orderIndex : ℕ) :
    versionEntryFromRaw v.raw v.isDeleteMarker orderIndex = some (v.entry orderIndex) := by
  simp [versionEntryFromRaw, ListedVersion.raw, ListedVersion.entry, v.key_ne, v.versionId_ne]

theorem collectionEntries_raw {isDeleteMarker : Bool} {l : List ListedVersion}
    (h : ∀ v ∈ l, v.isDeleteMarker = isDeleteMarker) (orderIndex : ℕ) :
    collectionEntries isDeleteMarker (l.map ListedVersion.raw) orderIndex =
      (numbered orderIndex l, orderIndex + l.length) := by
  induction l generalizing orderIndex with
  | nil => simp [collectionEntries, numbered]
  | cons v rest ih =>
    have hv : v.isDeleteMarker = isDeleteMarker := h v (by simp)
    have hrest := ih (fun w hw => h w (by simp [hw])) (orderIndex + 1)
    subst hv
    simp only [List.map_cons, collectionEntries, versionEntryFromRaw_raw, hrest, numbered,
      List.length_cons]
    rw [Nat.add_right_comm, Nat.add_assoc]

theorem length_arrayOrder (chunk : List ListedVersion) :
    (arrayOrder chunk).length = chunk.length := by
  have := chunk.length_eq_length_filter_add fun v => v.isDeleteMarker
  simp only [arrayOrder, List.length_append]
  omega

/-- A conforming page is numbered in array order, with no entry dropped. -/
theorem pageVersionEntries_of_carries {page : Page} {chunk : List ListedVersion}
    (h : page.Carries chunk) (orderIndex : ℕ) :
    pageVersionEntries page orderIndex =
      (numbered orderIndex (arrayOrder chunk), orderIndex + chunk.length) := by
  have hobjects := @collectionEntries_raw false (chunk.filter fun v => !v.isDeleteMarker)
    (by simp) orderIndex
  have hmarkers := @collectionEntries_raw true (chunk.filter fun v => v.isDeleteMarker)
    (by simp) (orderIndex + (chunk.filter fun v => !v.isDeleteMarker).length)
  have hlength := length_arrayOrder chunk
  rw [arrayOrder, List.length_append] at hlength
  simp only [pageVersionEntries, h.1, h.2, hobjects, hmarkers, arrayOrder, numbered_append,
    Prod.mk.injEq, true_and]
  omega

/-- Splitting a page keeps the order within each kind. -/
theorem filter_arrayOrder (chunk : List ListedVersion) (kind : Bool) :
    (arrayOrder chunk).filter (fun v => v.isDeleteMarker = kind) =
      chunk.filter fun v => v.isDeleteMarker = kind := by
  cases kind <;> simp [arrayOrder, List.filter_append, List.filter_filter]

theorem mem_arrayOrder {chunk : List ListedVersion} {v : ListedVersion} :
    v ∈ arrayOrder chunk ↔ v ∈ chunk := by
  cases h : v.isDeleteMarker <;> simp [arrayOrder, h]

/-- `arrival` lists the same versions, reordered only across kinds. -/
def ArrivalOf (listing arrival : List ListedVersion) : Prop :=
  ∀ kind : Bool, arrival.filter (fun v => v.isDeleteMarker = kind) =
    listing.filter fun v => v.isDeleteMarker = kind

theorem ArrivalOf.append {xs ys xs' ys' : List ListedVersion} (h : ArrivalOf xs xs')
    (h' : ArrivalOf ys ys') : ArrivalOf (xs ++ ys) (xs' ++ ys') := fun kind => by
  rw [List.filter_append, List.filter_append, h kind, h' kind]

theorem ArrivalOf.mem_iff {listing arrival : List ListedVersion} (h : ArrivalOf listing arrival)
    {v : ListedVersion} : v ∈ arrival ↔ v ∈ listing := by
  have hv := congrArg (v ∈ ·) (h v.isDeleteMarker)
  simpa using hv

/-- An order of the listing survives between entries of one kind. -/
theorem ArrivalOf.pairwise {R : ListedVersion → ListedVersion → Prop}
    {listing arrival : List ListedVersion} (h : ArrivalOf listing arrival)
    (hR : listing.Pairwise R) :
    arrival.Pairwise fun a b => a.isDeleteMarker = b.isDeleteMarker → R a b := by
  have hkind : ∀ kind : Bool, arrival.Pairwise fun a b =>
      a.isDeleteMarker = kind → b.isDeleteMarker = kind → R a b := by
    intro kind
    have hfiltered := hR.filter fun v => v.isDeleteMarker = kind
    rw [← h kind, List.pairwise_filter] at hfiltered
    simpa using hfiltered
  refine ((hkind false).and (hkind true)).imp ?_
  rintro a b ⟨hfalse, htrue⟩ hsame
  cases ha : a.isDeleteMarker with
  | false => exact hfalse ha (hsame ▸ ha)
  | true => exact htrue ha (hsame ▸ ha)

/-- The iterator over a conforming listing: it ends, and yields the timelines of the listing's
entries numbered in arrival order. -/
theorem scanPages_of_paged {listing : List ListedVersion} {pages : List Page}
    (hpaged : Paged listing pages) {seen : List BucketVersionEntry} {scan : TimelineScan}
    (hkeys : listing.Pairwise fun a b => a.key ≤ b.key) (hgrouped : Grouped seen scan)
    (horder : ∀ old ∈ seen, ∀ v ∈ listing, old.key ≤ v.key) :
    ∃ arrival grouped timelines, ArrivalOf listing arrival ∧
      grouped.Perm (numbered scan.orderIndex arrival) ∧
      scanPages pages scan = .ok timelines ∧ YieldsTimelines (seen ++ grouped) timelines := by
  induction hpaged generalizing seen scan with
  | @last chunk page hcarries hlast =>
    have hentries := pageVersionEntries_of_carries hcarries scan.orderIndex
    have hpage := hgrouped.scanPage (p := page) (by
      intro old hold e he
      rw [hentries] at he
      obtain ⟨v, hv, j, -, rfl⟩ := mem_numbered he
      exact horder old hold v (mem_arrayOrder.mp hv))
    refine ⟨arrayOrder chunk, _, _, filter_arrayOrder chunk, ?_, ?_, hpage.flush⟩
    · rw [hentries]
      exact sortedBy_perm _ _
    · simp [scanPages, hlast]
  | @more chunk rest page pages hcarries hmore hpaged ih =>
    obtain ⟨hchunk, hrest, hcross⟩ := List.pairwise_append.mp hkeys
    have hentries := pageVersionEntries_of_carries hcarries scan.orderIndex
    have hpage := hgrouped.scanPage (p := page) (by
      intro old hold e he
      rw [hentries] at he
      obtain ⟨v, hv, j, -, rfl⟩ := mem_numbered he
      exact horder old hold v (by simp [mem_arrayOrder.mp hv]))
    have hindex : (scanPage scan page).orderIndex = scan.orderIndex + (arrayOrder chunk).length := by
      rw [scanPage_orderIndex, hentries, length_arrayOrder]
    obtain ⟨arrival, grouped, timelines, harrival, hperm, hscan, hyields⟩ := ih hrest hpage (by
      intro old hold v hv
      rcases List.mem_append.mp hold with hin | hin
      · exact horder old hin v (by simp [hv])
      · rw [hentries] at hin
        obtain ⟨w, hw, j, -, rfl⟩ := mem_numbered (mem_sortedBy.mp hin)
        exact hcross w (mem_arrayOrder.mp hw) v hv)
    refine ⟨arrayOrder chunk ++ arrival,
      sortedBy versionGroupSortKey (pageVersionEntries page scan.orderIndex).1 ++ grouped, timelines,
      ArrivalOf.append (filter_arrayOrder chunk) harrival, ?_, ?_, ?_⟩
    · rw [numbered_append, ← hindex, hentries]
      exact (sortedBy_perm _ _).append hperm
    · simpa [scanPages, hmore] using hscan
    · simpa using hyields

end Versions
end BucketReef

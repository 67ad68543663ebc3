import BucketReef.Lists.Tally
import Mathlib

/-!
# Distributions of bucket usage

The accumulator behind every usage distribution. It is filled with what a scan sees, and filled again
with the entries it gave for several buckets.
-/

namespace BucketReef
namespace UsageStats

open Lists

structure Entry where
  key : String
  label : String
  count : ℕ
  bytes : ℕ
  ratioCount : ℚ
  ratioBytes : ℚ
  deriving DecidableEq

structure DistributionBuilder where
  labels : String → Option String
  order : List String
  counts : String → ℕ
  bytes : String → ℕ

/-- The arguments of one call of `add`. -/
structure Addition where
  key : String
  count : ℕ := 1
  bytesValue : ℕ := 0
  label : Option String := none

def Addition.normalized (a : Addition) : String := if a.key = "" then "unknown" else a.key

namespace DistributionBuilder

def init (labels : List (String × String)) (order : List String) : DistributionBuilder where
  labels key := labels.lookup key
  order := if order.isEmpty then labels.map Prod.fst else order
  counts _ := 0
  bytes _ := 0

def add (b : DistributionBuilder) (a : Addition) : DistributionBuilder where
  labels := match a.label with
    | some label => Function.update b.labels a.normalized (some label)
    | none => b.labels
  order := if a.normalized ∈ b.order then b.order else b.order ++ [a.normalized]
  counts := Function.update b.counts a.normalized (b.counts a.normalized + a.count)
  bytes := Function.update b.bytes a.normalized (b.bytes a.normalized + a.bytesValue)

def ratio (part total : ℕ) : ℚ := if total = 0 then 0 else part / total

def entry (b : DistributionBuilder) (totalCount totalBytes : ℕ) (key : String) : Entry where
  key := key
  label := (b.labels key).getD key
  count := b.counts key
  bytes := b.bytes key
  ratioCount := ratio (b.counts key) totalCount
  ratioBytes := ratio (b.bytes key) totalBytes

def keys (b : DistributionBuilder) (includeZeroKeys : Bool) : List String :=
  if includeZeroKeys then b.order
  else b.order.filter fun key => b.counts key ≠ 0 || b.bytes key ≠ 0

def entries (b : DistributionBuilder) (totalCount totalBytes : ℕ) (includeZeroKeys : Bool) :
    List Entry :=
  (b.keys includeZeroKeys).map (b.entry totalCount totalBytes)

end DistributionBuilder

open DistributionBuilder

/-- What the accumulator holds after the additions `adds`, when every label given to a key is the one
that `labels` has for it. -/
structure Tracks (labels : List (String × String)) (start : List String) (adds : List Addition)
    (b : DistributionBuilder) : Prop where
  counts : b.counts = tally Addition.normalized Addition.count adds
  bytes : b.bytes = tally Addition.normalized Addition.bytesValue adds
  nodup : b.order.Nodup
  mem : ∀ key, key ∈ b.order ↔ key ∈ start ∨ key ∈ adds.map Addition.normalized
  named : ∀ key ∈ b.order, (b.labels key).getD key = (labels.lookup key).getD key

/-- The addition names its key as `labels` does. -/
def Addition.Named (labels : List (String × String)) (start : List String) (a : Addition) : Prop :=
  a.label = some ((labels.lookup a.normalized).getD a.normalized) ∨
    a.label = none ∧ a.normalized ∈ start

variable {labels : List (String × String)} {start : List String} {adds : List Addition}
  {b : DistributionBuilder}

theorem Tracks.init (labels : List (String × String)) (order : List String)
    (hnodup : (init labels order).order.Nodup) :
    Tracks labels (init labels order).order [] (init labels order) where
  counts := rfl
  bytes := rfl
  nodup := hnodup
  mem := by simp
  named := fun _ _ => rfl

theorem Tracks.add (h : Tracks labels start adds b) {a : Addition} (ha : a.Named labels start) :
    Tracks labels start (adds ++ [a]) (b.add a) where
  counts := by
    funext key
    rw [tally_concat]
    by_cases hkey : a.normalized = key
    · subst hkey
      simp [DistributionBuilder.add, h.counts]
    · simp [DistributionBuilder.add, h.counts, hkey, Function.update_of_ne (Ne.symm hkey)]
  bytes := by
    funext key
    rw [tally_concat]
    by_cases hkey : a.normalized = key
    · subst hkey
      simp [DistributionBuilder.add, h.bytes]
    · simp [DistributionBuilder.add, h.bytes, hkey, Function.update_of_ne (Ne.symm hkey)]
  nodup := by
    unfold DistributionBuilder.add
    dsimp only
    split
    · exact h.nodup
    · next hnew => exact List.nodup_append.mpr ⟨h.nodup, by simp, by rintro x hx y hy rfl; simp_all⟩
  mem := by
    intro key
    have hmem : key ∈ (b.add a).order ↔ key ∈ b.order ∨ key = a.normalized := by
      unfold DistributionBuilder.add
      dsimp only
      split
      · next hold =>
        refine ⟨Or.inl, ?_⟩
        rintro (hkey | rfl)
        · exact hkey
        · exact hold
      · simp
    rw [hmem, h.mem, List.map_append, List.mem_append, List.map_singleton, List.mem_singleton,
      or_assoc]
  named := by
    intro key hkey
    have hold : key ≠ a.normalized → key ∈ b.order := by
      intro hne
      unfold DistributionBuilder.add at hkey
      dsimp only at hkey
      split at hkey
      · exact hkey
      · simpa [hne] using hkey
    rcases ha with hlabel | ⟨hlabel, hstart⟩
    · by_cases hsame : key = a.normalized
      · subst hsame
        simp [DistributionBuilder.add, hlabel]
      · simp only [DistributionBuilder.add, hlabel, Function.update_of_ne hsame]
        exact h.named key (hold hsame)
    · have hin : key ∈ b.order := by
        by_cases hsame : key = a.normalized
        · subst hsame
          exact (h.mem _).mpr (Or.inl hstart)
        · exact hold hsame
      simp only [DistributionBuilder.add, hlabel]
      exact h.named key hin

theorem Tracks.addAll (h : Tracks labels start adds b) {more : List Addition}
    (hmore : ∀ a ∈ more, a.Named labels start) :
    Tracks labels start (adds ++ more) (more.foldl DistributionBuilder.add b) := by
  induction more generalizing adds b with
  | nil => simpa using h
  | cons a more ih =>
    rw [List.foldl_cons, List.append_cons]
    exact ih (h.add (hmore a List.mem_cons_self)) fun x hx => hmore x (List.mem_cons_of_mem a hx)

/-- Keys that are in the order already leave it as it is. -/
theorem order_foldl_add {more : List Addition} (h : ∀ a ∈ more, a.normalized ∈ b.order) :
    (more.foldl DistributionBuilder.add b).order = b.order := by
  induction more generalizing b with
  | nil => rfl
  | cons a more ih =>
    have ha : (b.add a).order = b.order := by
      unfold DistributionBuilder.add
      exact if_pos (h a List.mem_cons_self)
    rw [List.foldl_cons, ih, ha]
    intro x hx
    rw [ha]
    exact h x (List.mem_cons_of_mem a hx)

theorem Tracks.mem_of_ne_zero (h : Tracks labels start adds b) {key : String}
    (hkey : b.counts key ≠ 0 ∨ b.bytes key ≠ 0) : key ∈ b.order := by
  by_contra hout
  have hnone : key ∉ adds.map Addition.normalized := fun hin => hout ((h.mem key).mpr (Or.inr hin))
  rw [h.counts, h.bytes, tally_eq_zero _ _ hnone, tally_eq_zero _ _ hnone] at hkey
  simp at hkey

theorem Tracks.nodup_keys (h : Tracks labels start adds b) (zero : Bool) : (b.keys zero).Nodup := by
  unfold DistributionBuilder.keys
  split
  · exact h.nodup
  · exact h.nodup.filter _

/-- A key that is left out of the entries has nothing under it. -/
theorem Tracks.zero_of_not_mem_keys (h : Tracks labels start adds b) {zero : Bool} {key : String}
    (hkey : key ∉ b.keys zero) : b.counts key = 0 ∧ b.bytes key = 0 := by
  by_contra hsome
  rw [not_and_or] at hsome
  apply hkey
  unfold DistributionBuilder.keys
  split
  · exact h.mem_of_ne_zero hsome
  · rw [List.mem_filter]
    exact ⟨h.mem_of_ne_zero hsome, by simpa using hsome⟩

/-! ## What the entries add up to -/

/-- The counts of the entries sum to `count`, and their bytes to `bytes`. -/
def SumsTo (es : List Entry) (count bytes : ℕ) : Prop :=
  (es.map Entry.count).sum = count ∧ (es.map Entry.bytes).sum = bytes

theorem sum_filter_of_zero {f : String → ℕ} {p : String → Bool} {l : List String}
    (h : ∀ x ∈ l, p x = false → f x = 0) : ((l.filter p).map f).sum = (l.map f).sum := by
  induction l with
  | nil => rfl
  | cons x l ih =>
    have ih' := ih fun y hy => h y (List.mem_cons_of_mem x hy)
    by_cases hx : p x = true
    · simp [hx, ih']
    · have hzero := h x List.mem_cons_self (by simpa using hx)
      simp [hx, ih', hzero]

theorem Tracks.sum_keys (h : Tracks labels start adds b) (zero : Bool) {f : String → ℕ}
    (hf : ∀ key, b.counts key = 0 ∧ b.bytes key = 0 → f key = 0) :
    ((b.keys zero).map f).sum = (b.order.map f).sum := by
  unfold DistributionBuilder.keys
  split
  · rfl
  · exact sum_filter_of_zero fun key _ hkey => hf key (by simpa using hkey)

/-- The entries sum to what was added. -/
theorem Tracks.sumsTo (h : Tracks labels start adds b) (totalCount totalBytes : ℕ) (zero : Bool) :
    SumsTo (b.entries totalCount totalBytes zero) (adds.map Addition.count).sum
      (adds.map Addition.bytesValue).sum := by
  have hcover : ∀ a ∈ adds, a.normalized ∈ b.order := fun a ha =>
    (h.mem _).mpr (Or.inr (List.mem_map_of_mem ha))
  unfold SumsTo DistributionBuilder.entries
  rw [List.map_map, List.map_map]
  constructor
  · calc ((b.keys zero).map b.counts).sum
        = (b.order.map b.counts).sum := h.sum_keys zero fun key hkey => hkey.1
      _ = _ := by rw [h.counts, sum_tally _ _ h.nodup hcover]
  · calc ((b.keys zero).map b.bytes).sum
        = (b.order.map b.bytes).sum := h.sum_keys zero fun key hkey => hkey.2
      _ = _ := by rw [h.bytes, sum_tally _ _ h.nodup hcover]

/-! ## Adding entries again -/

def Addition.ofEntry (e : Entry) : Addition where
  key := e.key
  count := e.count
  bytesValue := e.bytes
  label := some e.label

/-- `_merge_distribution_entries` -/
def mergeDistributionEntries (groups : List (List Entry)) (totalCount totalBytes : ℕ)
    (labels : List (String × String)) (order : List String) (includeZeroKeys : Bool) : List Entry :=
  let builder := (groups.flatMap fun es => es.map Addition.ofEntry).foldl DistributionBuilder.add
    (DistributionBuilder.init labels order)
  builder.entries totalCount totalBytes includeZeroKeys

theorem Addition.normalized_ne (a : Addition) : a.normalized ≠ "" := by
  unfold Addition.normalized
  split
  · decide
  · assumption

theorem normalized_ofEntry {e : Entry} (h : e.key ≠ "") : (Addition.ofEntry e).normalized = e.key :=
  if_neg h

theorem Tracks.key_ne (h : Tracks labels start adds b) (hstart : "" ∉ start) {key : String}
    (hkey : key ∈ b.order) : key ≠ "" := by
  rcases (h.mem key).mp hkey with hin | hin
  · rintro rfl
    exact hstart hin
  · obtain ⟨a, -, rfl⟩ := List.mem_map.mp hin
    exact a.normalized_ne

theorem mem_order_of_mem_keys {zero : Bool} {key : String} (h : key ∈ b.keys zero) :
    key ∈ b.order := by
  unfold DistributionBuilder.keys at h
  split at h
  · exact h
  · exact List.mem_of_mem_filter h

/-- The entries of a group hold what was added to it. -/
structure Serialises (labels : List (String × String)) (start : List String) (adds : List Addition)
    (es : List Entry) : Prop where
  counts : tally Addition.normalized Addition.count (es.map Addition.ofEntry) =
    tally Addition.normalized Addition.count adds
  bytes : tally Addition.normalized Addition.bytesValue (es.map Addition.ofEntry) =
    tally Addition.normalized Addition.bytesValue adds
  named : ∀ a ∈ es.map Addition.ofEntry, a.Named labels start
  mem : ∀ a ∈ es.map Addition.ofEntry,
    a.normalized ∈ start ∨ a.normalized ∈ adds.map Addition.normalized

theorem Tracks.tally_entries (h : Tracks labels start adds b) (hstart : "" ∉ start)
    (totalCount totalBytes : ℕ) (zero : Bool) {weight : Addition → ℕ} (f : String → ℕ)
    (hweight : ∀ key, weight (.ofEntry (b.entry totalCount totalBytes key)) = f key)
    (hf : ∀ key, b.counts key = 0 ∧ b.bytes key = 0 → f key = 0) :
    tally Addition.normalized weight
      ((b.entries totalCount totalBytes zero).map Addition.ofEntry) = f := by
  funext key
  unfold DistributionBuilder.entries
  have hread : tally Addition.normalized weight
      (((b.keys zero).map (b.entry totalCount totalBytes)).map Addition.ofEntry) key =
      tally id f (b.keys zero) key := by
    have hne : ∀ key ∈ b.keys zero, key ≠ "" := fun key hkey =>
      h.key_ne hstart (mem_order_of_mem_keys hkey)
    generalize b.keys zero = keys at hne
    induction keys with
    | nil => rfl
    | cons key' keys ih =>
      have hkey' : (Addition.ofEntry (b.entry totalCount totalBytes key')).normalized = key' :=
        normalized_ofEntry (hne key' List.mem_cons_self)
      rw [List.map_cons, List.map_cons, tally_cons, tally_cons,
        ih fun x hx => hne x (List.mem_cons_of_mem key' hx), hkey', hweight]
      rfl
  rw [hread, tally_id (h.nodup_keys zero)]
  split
  · rfl
  · next hout => exact (hf key (h.zero_of_not_mem_keys hout)).symm

theorem Tracks.serialises (h : Tracks labels start adds b) (hstart : "" ∉ start)
    (totalCount totalBytes : ℕ) (zero : Bool) :
    Serialises labels start adds (b.entries totalCount totalBytes zero) := by
  have hentry : ∀ a ∈ (b.entries totalCount totalBytes zero).map Addition.ofEntry,
      ∃ key ∈ b.order, a = .ofEntry (b.entry totalCount totalBytes key) ∧ a.normalized = key := by
    intro a ha
    rw [DistributionBuilder.entries, List.map_map, List.mem_map] at ha
    obtain ⟨key, hkey, rfl⟩ := ha
    have hin := mem_order_of_mem_keys hkey
    exact ⟨key, hin, rfl, normalized_ofEntry (h.key_ne hstart hin)⟩
  refine ⟨?_, ?_, ?_, ?_⟩
  · rw [h.tally_entries hstart totalCount totalBytes zero b.counts (fun _ => rfl)
      fun _ hkey => hkey.1,
      h.counts]
  · rw [h.tally_entries hstart totalCount totalBytes zero b.bytes (fun _ => rfl)
      fun _ hkey => hkey.2,
      h.bytes]
  · intro a ha
    obtain ⟨key, hin, hshape, hkey⟩ := hentry a ha
    left
    rw [hkey, hshape]
    exact congrArg some (h.named key hin)
  · intro a ha
    obtain ⟨key, hin, -, hkey⟩ := hentry a ha
    rw [hkey]
    exact (h.mem key).mp hin

/-! ## Two ways to the same distribution -/

section Same

variable {adds' : List Addition} {b' : DistributionBuilder}

theorem Tracks.entry_eq (h : Tracks labels start adds b) (h' : Tracks labels start adds' b')
    (hcounts : b.counts = b'.counts) (hbytes : b.bytes = b'.bytes) (totalCount totalBytes : ℕ)
    {key : String} (hkey : key ∈ b.order) (hkey' : key ∈ b'.order) :
    b.entry totalCount totalBytes key = b'.entry totalCount totalBytes key := by
  unfold DistributionBuilder.entry
  rw [hcounts, hbytes, h.named key hkey, h'.named key hkey']

/-- The same sums in the same order are the same entries. -/
theorem Tracks.entries_eq (h : Tracks labels start adds b) (h' : Tracks labels start adds' b')
    (hcounts : b.counts = b'.counts) (hbytes : b.bytes = b'.bytes) (horder : b.order = b'.order)
    (totalCount totalBytes : ℕ) (zero : Bool) :
    b.entries totalCount totalBytes zero = b'.entries totalCount totalBytes zero := by
  have hkeys : b.keys zero = b'.keys zero := by
    unfold DistributionBuilder.keys
    rw [hcounts, hbytes, horder]
  unfold DistributionBuilder.entries
  rw [← hkeys]
  apply List.map_congr_left
  intro key hkey
  have hin := mem_order_of_mem_keys hkey
  exact h.entry_eq h' hcounts hbytes totalCount totalBytes hin (horder ▸ hin)

/-- The same sums give the same entries, when the keys without any are left out. -/
theorem Tracks.entries_perm (h : Tracks labels start adds b) (h' : Tracks labels start adds' b')
    (hcounts : b.counts = b'.counts) (hbytes : b.bytes = b'.bytes) (totalCount totalBytes : ℕ) :
    (b.entries totalCount totalBytes false).Perm (b'.entries totalCount totalBytes false) := by
  have hmem : ∀ {adds : List Addition} {b : DistributionBuilder}, Tracks labels start adds b →
      ∀ key, key ∈ b.keys false ↔ b.counts key ≠ 0 ∨ b.bytes key ≠ 0 := by
    intro adds b h key
    constructor
    · intro hkey
      simpa [DistributionBuilder.keys] using (List.mem_filter.mp hkey).2
    · intro hkey
      by_contra hout
      obtain ⟨hc, hb⟩ := h.zero_of_not_mem_keys hout
      simp [hc, hb] at hkey
  have hkeys : (b.keys false).Perm (b'.keys false) := by
    rw [List.perm_ext_iff_of_nodup (h.nodup_keys false) (h'.nodup_keys false)]
    intro key
    rw [hmem h, hmem h', hcounts, hbytes]
  unfold DistributionBuilder.entries
  have hentry : (b.keys false).map (b.entry totalCount totalBytes) =
      (b.keys false).map (b'.entry totalCount totalBytes) := by
    apply List.map_congr_left
    intro key hkey
    exact h.entry_eq h' hcounts hbytes totalCount totalBytes (mem_order_of_mem_keys hkey)
      (mem_order_of_mem_keys (hkeys.mem_iff.mp hkey))
  rw [hentry]
  exact hkeys.map _

end Same

/-! ## The merge of several groups -/

section Merge

variable {σ : Type} {groups : List σ} {addsOf : σ → List Addition} {esOf : σ → List Entry}
  {order : List String}

theorem tally_groups {weight : Addition → ℕ}
    (h : ∀ g ∈ groups, tally Addition.normalized weight ((esOf g).map Addition.ofEntry) =
      tally Addition.normalized weight (addsOf g)) :
    tally Addition.normalized weight
        ((groups.map esOf).flatMap fun es => es.map Addition.ofEntry) =
      tally Addition.normalized weight (groups.flatMap addsOf) := by
  funext key
  rw [List.flatMap_map, tally_flatMap, tally_flatMap]
  congr 1
  apply List.map_congr_left
  intro g hg
  rw [h g hg]

/-- The additions that the merge makes. -/
def mergeAdditions (groups : List (List Entry)) : List Addition :=
  groups.flatMap fun es => es.map Addition.ofEntry

theorem merge_tracks (hnodup : (init labels order).order.Nodup)
    (hgroups : ∀ g ∈ groups, Serialises labels (init labels order).order (addsOf g) (esOf g)) :
    Tracks labels (init labels order).order (mergeAdditions (groups.map esOf))
      ((mergeAdditions (groups.map esOf)).foldl DistributionBuilder.add (init labels order)) := by
  apply (Tracks.init labels order hnodup).addAll
  intro a ha
  obtain ⟨es, hes, ha⟩ := List.mem_flatMap.mp ha
  obtain ⟨g, hg, rfl⟩ := List.mem_map.mp hes
  exact (hgroups g hg).named a ha

variable {whole : List Addition}

/-- The merged tallies are those of the whole. -/
theorem merge_tallies
    (hgroups : ∀ g ∈ groups, Serialises labels (init labels order).order (addsOf g) (esOf g))
    (hperm : whole.Perm (groups.flatMap addsOf)) :
    tally Addition.normalized Addition.count (mergeAdditions (groups.map esOf)) =
        tally Addition.normalized Addition.count whole ∧
      tally Addition.normalized Addition.bytesValue (mergeAdditions (groups.map esOf)) =
        tally Addition.normalized Addition.bytesValue whole := by
  constructor
  · rw [mergeAdditions, tally_groups fun g hg => (hgroups g hg).counts]
    funext key
    exact (tally_perm _ _ hperm key).symm
  · rw [mergeAdditions, tally_groups fun g hg => (hgroups g hg).bytes]
    funext key
    exact (tally_perm _ _ hperm key).symm

/-- Merging the entries of the groups gives the entries of the whole. -/
theorem merge_perm (hnodup : (init labels order).order.Nodup)
    (hgroups : ∀ g ∈ groups, Serialises labels (init labels order).order (addsOf g) (esOf g))
    (hwhole : Tracks labels (init labels order).order whole b)
    (hperm : whole.Perm (groups.flatMap addsOf)) (totalCount totalBytes : ℕ) :
    (mergeDistributionEntries (groups.map esOf) totalCount totalBytes labels order false).Perm
      (b.entries totalCount totalBytes false) := by
  have hmerged := merge_tracks hnodup hgroups
  obtain ⟨hcounts, hbytes⟩ := merge_tallies hgroups hperm
  refine hmerged.entries_perm hwhole ?_ ?_ totalCount totalBytes
  · rw [hmerged.counts, hwhole.counts, hcounts]
  · rw [hmerged.bytes, hwhole.bytes, hbytes]

/-- The same in the same order, when no addition brings a key of its own. -/
theorem merge_eq (hnodup : (init labels order).order.Nodup)
    (hgroups : ∀ g ∈ groups, Serialises labels (init labels order).order (addsOf g) (esOf g))
    (hwhole : Tracks labels (init labels order).order whole b)
    (hperm : whole.Perm (groups.flatMap addsOf)) (horder : b.order = (init labels order).order)
    (hfixed : ∀ a ∈ whole, a.normalized ∈ (init labels order).order)
    (totalCount totalBytes : ℕ) (zero : Bool) :
    mergeDistributionEntries (groups.map esOf) totalCount totalBytes labels order zero =
      b.entries totalCount totalBytes zero := by
  have hmerged := merge_tracks hnodup hgroups
  have hkeys : ∀ a ∈ mergeAdditions (groups.map esOf),
      a.normalized ∈ (init labels order).order := by
    intro a ha
    obtain ⟨es, hes, ha⟩ := List.mem_flatMap.mp ha
    obtain ⟨g, hg, rfl⟩ := List.mem_map.mp hes
    rcases (hgroups g hg).mem a ha with hin | hin
    · exact hin
    · obtain ⟨x, hx, hxa⟩ := List.mem_map.mp hin
      rw [← hxa]
      exact hfixed x (hperm.mem_iff.mpr (List.mem_flatMap.mpr ⟨g, hg, hx⟩))
  obtain ⟨hcounts, hbytes⟩ := merge_tallies hgroups hperm
  refine hmerged.entries_eq hwhole ?_ ?_ ?_ totalCount totalBytes zero
  · rw [hmerged.counts, hwhole.counts, hcounts]
  · rw [hmerged.bytes, hwhole.bytes, hbytes]
  · rw [order_foldl_add hkeys, horder]

end Merge

end UsageStats
end BucketReef

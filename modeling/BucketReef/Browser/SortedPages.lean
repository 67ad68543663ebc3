import BucketReef.Browser.SortedListing

/-!
# Pages of a sorted listing

As long as the pages come from snapshots with the same rows, they are consecutive slices of these rows.
Nothing ties a token to the snapshot it was made for.
-/

namespace BucketReef
namespace Sorted

open Filtered Lists Transitions

/-! ## Two tables, one behind the other -/

section Slices

variable {α β : Type} (xs : List α) (n : ℕ) {p o : ℕ}

/-- A page of both tables is a slice of the one behind the other. -/
theorem slice_append (ys : List α) (h : o = 0 ∨ p = xs.length) (hp : p ≤ xs.length) :
    (xs.drop p).take n ++ (ys.drop o).take (n - ((xs.drop p).take n).length) =
      ((xs ++ ys).drop (p + o)).take n := by
  rcases h with rfl | rfl
  · rw [Nat.add_zero, List.drop_zero, List.drop_append_of_le_length hp, List.take_append,
      List.length_take]
    congr 2
    omega
  · rw [List.drop_length, List.take_nil, List.nil_append, List.length_nil, Nat.sub_zero,
      List.drop_length_add_append]

/-- The second table is begun only when the first one is exhausted. -/
theorem slice_next (ys : List β) (h : o = 0 ∨ p = xs.length) (hp : p ≤ xs.length) :
    o + ((ys.drop o).take (n - ((xs.drop p).take n).length)).length = 0 ∨
      p + ((xs.drop p).take n).length = xs.length := by
  rw [List.length_take, List.length_take, List.length_drop, List.length_drop]
  rcases h with rfl | rfl
  · omega
  · omega

theorem take_of_slice (l : List α) {k : ℕ} (hk : k ≤ l.length) :
    l.take k ++ (l.drop k).take n = l.take (k + ((l.drop k).take n).length) := by
  rw [← List.take_add, List.length_take, List.length_drop]
  by_cases h : n ≤ l.length - k
  · rw [Nat.min_eq_left h]
  · rw [Nat.min_eq_right (by omega), List.take_of_length_le (by omega),
      List.take_of_length_le (by omega)]

end Slices

/-! ## Order -/

theorem orderBy_perm {κ : Type} [LinearOrder κ] (sortDir : SortDir) (column : BrowserObject → κ)
    (objects : List BrowserObject) : (orderBy sortDir column objects).Perm objects := by
  unfold orderBy
  split
  · exact sortedBy_perm _ _
  · exact sortedBy_perm _ _

theorem objectOrderBy_perm (sortBy : SortBy) (sortDir : SortDir) (objects : List BrowserObject) :
    (objectOrderBy sortBy sortDir objects).Perm objects := by
  unfold objectOrderBy
  split
  · exact orderBy_perm _ _ _
  · exact orderBy_perm _ _ _
  · exact orderBy_perm _ _ _
  · exact orderBy_perm _ _ _
  · exact orderBy_perm _ _ _

theorem orderBy_pairwise {κ : Type} [LinearOrder κ] (sortDir : SortDir) (column : BrowserObject → κ)
    (objects : List BrowserObject) :
    (orderBy sortDir column objects).Pairwise (precedes sortDir column) := by
  unfold orderBy precedes
  cases sortDir with
  | asc => exact sortedBy_pairwise _ _
  | desc => exact sortedBy_pairwise _ _

theorem objectOrderBy_pairwise (sortBy : SortBy) (sortDir : SortDir) (objects : List BrowserObject) :
    (objectOrderBy sortBy sortDir objects).Pairwise (objectPrecedes sortBy sortDir) := by
  unfold objectOrderBy objectPrecedes
  cases sortBy with
  | name => exact orderBy_pairwise _ _ _
  | size => exact orderBy_pairwise _ _ _
  | modified => exact orderBy_pairwise _ _ _
  | storageClass => exact orderBy_pairwise _ _ _
  | etag => exact orderBy_pairwise _ _ _

/-! ## Rows -/

theorem rowsOf_inj {prefixes prefixes' : List String} {objects objects' : List BrowserObject}
    (h : rowsOf prefixes objects = rowsOf prefixes' objects') :
    prefixes = prefixes' ∧ objects = objects' := by
  have hfolders := congrArg (List.filterMap fun
    | .folder name => some name
    | .object _ => none) h
  have hobjects := congrArg (List.filterMap fun
    | .folder _ => none
    | .object object => some object) h
  simpa [rowsOf, List.filterMap_append, List.filterMap_map, Function.comp_def] using
    And.intro hfolders hobjects

theorem length_rowsOf (prefixes : List String) (objects : List BrowserObject) :
    (rowsOf prefixes objects).length = prefixes.length + objects.length := by
  simp [rowsOf]

theorem nodup_rowsOf {prefixes : List String} {objects : List BrowserObject} (hp : prefixes.Nodup)
    (ho : objects.Nodup) : (rowsOf prefixes objects).Nodup := by
  unfold rowsOf
  rw [List.nodup_append]
  refine ⟨hp.map fun a b h => Row.folder.inj h, ho.map fun a b h => Row.object.inj h, ?_⟩
  intro a ha b hb hab
  obtain ⟨name, -, rfl⟩ := List.mem_map.mp ha
  obtain ⟨object, -, rfl⟩ := List.mem_map.mp hb
  simp at hab

/-- The counts of a snapshot are those of its tables. -/
def SortedObjectSnapshot.Counted (snapshot : SortedObjectSnapshot) : Prop :=
  snapshot.prefixCount = snapshot.orderedPrefixes.length ∧
    snapshot.objectCount = snapshot.orderedObjects.length

theorem counted_build {params : Params} {pages : List (List Entry)} {snapshot : SortedObjectSnapshot}
    (h : build params pages = .ok snapshot) : snapshot.Counted := by
  unfold build at h
  split at h
  · simp at h
  · cases h
    exact ⟨(length_sortedBy _ _).symm, (objectOrderBy_perm _ _ _).length_eq.symm⟩

section Page

variable {snapshot : SortedObjectSnapshot} {p o : ℕ} (maxKeys : ℕ) (signature : String)

/-- A page is the slice of the snapshot's rows at its two offsets. -/
theorem page_rows (h : o = 0 ∨ p = snapshot.orderedPrefixes.length)
    (hp : p ≤ snapshot.orderedPrefixes.length) :
    (sortedPageResponse snapshot maxKeys p o signature).rows =
      (snapshot.rows.drop (p + o)).take maxKeys := by
  have hslice := slice_append (snapshot.orderedPrefixes.map Row.folder) maxKeys
    (snapshot.orderedObjects.map Row.object) (p := p) (o := o)
    (by rwa [List.length_map]) (by rwa [List.length_map])
  rw [← List.map_drop, ← List.map_take, List.length_map, ← List.map_drop, ← List.map_take] at hslice
  exact hslice

theorem page_length (h : o = 0 ∨ p = snapshot.orderedPrefixes.length)
    (hp : p ≤ snapshot.orderedPrefixes.length) :
    ((snapshot.rows.drop (p + o)).take maxKeys).length =
      (sortedPageResponse snapshot maxKeys p o signature).prefixes.length +
        (sortedPageResponse snapshot maxKeys p o signature).objects.length := by
  rw [← page_rows maxKeys signature h hp]
  exact length_rowsOf _ _

end Page

/-! ## The client -/

/-- How far a client has come in the rows `rowsOf prefixes objects`. -/
structure At (params : Params) (prefixes : List String) (objects : List BrowserObject) (s : Following)
    (p o : ℕ) : Prop where
  token : s.token = none ∧ p = 0 ∧ o = 0 ∨
    s.token = some (.cursor (p : ℤ) (o : ℤ) params.signature)
  got : s.rows = (rowsOf prefixes objects).take (p + o)
  turn : o = 0 ∨ p = prefixes.length
  prefixes_le : p ≤ prefixes.length
  objects_le : o ≤ objects.length

/-- Where a client stands whose pages all had these rows. -/
def Progress (params : Params) (prefixes : List String) (objects : List BrowserObject)
    (s : Following) : Prop :=
  match s.phase with
  | .asking => ∃ p o, At params prefixes objects s p o
  | .finished => s.rows = rowsOf prefixes objects
  | .rejected => False

structure Inv (params : Params) (s : Following) : Prop where
  cached : ∀ snapshot, s.cached = some snapshot → ∃ pages, build params pages = .ok snapshot
  served : ∀ served ∈ s.served, ∃ pages, build params pages = .ok served.snapshot
  progress : ∀ prefixes objects,
    (∀ served ∈ s.served, served.snapshot.rows = rowsOf prefixes objects) →
      Progress params prefixes objects s

variable {params : Params} {s s' : Following}

theorem scan_built (h : Inv params s) {pages : List (List Entry)} {snapshot : SortedObjectSnapshot}
    (hscan : scanSortedObjectSnapshot params s.cached pages = .ok snapshot) :
    ∃ pages, build params pages = .ok snapshot := by
  unfold scanSortedObjectSnapshot at hscan
  split at hscan
  · next cached hcached =>
    cases hscan
    exact h.cached snapshot hcached
  · exact ⟨pages, hscan⟩

/-- A client's own token is understood. -/
theorem offsets_of_at {prefixes : List String} {objects : List BrowserObject} {p o : ℕ}
    (h : At params prefixes objects s p o) {snapshot : SortedObjectSnapshot}
    (hcounted : snapshot.Counted) (hprefixes : snapshot.orderedPrefixes = prefixes)
    (hobjects : snapshot.orderedObjects = objects) :
    sortedCursorOffsets snapshot s.token params.signature = .ok (p, o) := by
  have hp : min p snapshot.prefixCount = p := by
    rw [hcounted.1, hprefixes]
    exact Nat.min_eq_left h.prefixes_le
  have ho : min o snapshot.objectCount = o := by
    rw [hcounted.2, hobjects]
    exact Nat.min_eq_left h.objects_le
  rcases h.token with ⟨htoken, rfl, rfl⟩ | htoken
  · rw [htoken]
    show Except.ok _ = _
    rw [hp, ho]
  · rw [htoken]
    unfold sortedCursorOffsets
    simp only [ne_eq, not_true_eq_false, if_false, Int.toNat_natCast, hp, ho]

theorem progress_answered {prefixes : List String} {objects : List BrowserObject} {p o : ℕ}
    (h : At params prefixes objects s p o) {snapshot : SortedObjectSnapshot}
    (hcounted : snapshot.Counted) (hprefixes : snapshot.orderedPrefixes = prefixes)
    (hobjects : snapshot.orderedObjects = objects) (maxKeys : ℤ) :
    Progress params prefixes objects
      (s.answered snapshot (listObjectsSorted params snapshot maxKeys s.token)) := by
  subst hprefixes hobjects
  obtain ⟨hprefixCount, hobjectCount⟩ := hcounted
  have hrows := page_rows (normalizedMaxKeys maxKeys) params.signature h.turn h.prefixes_le
  have hlength := page_length (normalizedMaxKeys maxKeys) params.signature h.turn h.prefixes_le
  have hturn := slice_next snapshot.orderedPrefixes (normalizedMaxKeys maxKeys)
    snapshot.orderedObjects h.turn h.prefixes_le
  have hoffsets := offsets_of_at h ⟨hprefixCount, hobjectCount⟩ rfl rfl
  unfold listObjectsSorted
  rw [hoffsets]
  dsimp only
  generalize hresponse : sortedPageResponse snapshot (normalizedMaxKeys maxKeys) p o params.signature =
    response at hrows hlength
  have hnextPrefixes : response.prefixes =
      (snapshot.orderedPrefixes.drop p).take (normalizedMaxKeys maxKeys) := by
    rw [← hresponse]
    rfl
  have hnextObjects : response.objects = (snapshot.orderedObjects.drop o).take
      (normalizedMaxKeys maxKeys - response.prefixes.length) := by
    rw [hnextPrefixes, ← hresponse]
    rfl
  have htoken : response.nextContinuationToken =
      if p + response.prefixes.length < snapshot.prefixCount ∨
          o + response.objects.length < snapshot.objectCount then
        some (encodeSortedCursor (p + response.prefixes.length : ℕ) (o + response.objects.length : ℕ)
          params.signature)
      else none := by
    rw [← hresponse]
    unfold sortedPageResponse
    simp only [Bool.or_eq_true, decide_eq_true_eq]
  have hprefixesLe : p + response.prefixes.length ≤ snapshot.orderedPrefixes.length := by
    rw [hnextPrefixes, List.length_take, List.length_drop]
    have hle := h.prefixes_le
    omega
  have hobjectsLe : o + response.objects.length ≤ snapshot.orderedObjects.length := by
    rw [hnextObjects, List.length_take, List.length_drop]
    have hle := h.objects_le
    omega
  have hbound : p + o ≤ snapshot.rows.length := by
    have hle := h.prefixes_le
    have hle' := h.objects_le
    unfold SortedObjectSnapshot.rows
    rw [length_rowsOf]
    omega
  have hgot : s.rows ++ response.rows = snapshot.rows.take
      ((p + response.prefixes.length) + (o + response.objects.length)) := by
    rw [h.got, hrows]
    show snapshot.rows.take (p + o) ++ _ = _
    rw [take_of_slice (normalizedMaxKeys maxKeys) snapshot.rows hbound, hlength]
    congr 1
    omega
  have hserved : ({ cached := some snapshot
                    token := response.nextContinuationToken
                    served := s.served ++ [⟨snapshot, response⟩]
                    phase := if response.nextContinuationToken.isNone then .finished else .asking } :
      Following).rows = s.rows ++ response.rows := by
    simp [Following.rows]
  unfold Following.answered Progress
  dsimp only
  rw [hserved]
  by_cases hmore : p + response.prefixes.length < snapshot.prefixCount ∨
      o + response.objects.length < snapshot.objectCount
  · rw [if_pos hmore] at htoken
    rw [htoken] at hserved ⊢
    refine ⟨p + response.prefixes.length, o + response.objects.length, ?_, hserved.trans hgot, ?_,
      hprefixesLe, hobjectsLe⟩
    · right
      simp only [encodeSortedCursor, Option.some.injEq]
      rw [max_eq_right (by omega), max_eq_right (by omega)]
    · rw [← hnextPrefixes, ← hnextObjects] at hturn
      exact hturn
  · rw [if_neg hmore] at htoken
    rw [htoken]
    show s.rows ++ response.rows = snapshot.rows
    rw [hgot]
    apply List.take_of_length_le
    unfold SortedObjectSnapshot.rows
    rw [length_rowsOf]
    omega

theorem progress_congr {prefixes : List String} {objects : List BrowserObject}
    (htoken : s'.token = s.token) (hserved : s'.served = s.served) (hphase : s'.phase = s.phase)
    (h : Progress params prefixes objects s) : Progress params prefixes objects s' := by
  have hrows : s'.rows = s.rows := by
    unfold Following.rows
    rw [hserved]
  unfold Progress at h ⊢
  rw [hphase]
  split
  · next hasking =>
    rw [hasking] at h
    obtain ⟨p, o, hat⟩ := h
    exact ⟨p, o, by rw [htoken]; exact hat.token, by rw [hrows]; exact hat.got, hat.turn,
      hat.prefixes_le, hat.objects_le⟩
  · next hfinished =>
    rw [hfinished] at h
    rw [hrows]
    exact h
  · next hrejected =>
    rw [hrejected] at h
    exact h

/-- A step that leaves the client alone. -/
theorem Inv.cache (h : Inv params s) {cached : Option SortedObjectSnapshot}
    (hcached : ∀ snapshot, cached = some snapshot → ∃ pages, build params pages = .ok snapshot) :
    Inv params { s with cached := cached } where
  cached := hcached
  served := h.served
  progress prefixes objects hsame :=
    progress_congr (s := s) rfl rfl rfl (h.progress prefixes objects hsame)

theorem inv_answered (h : Inv params s) (hasking : s.phase = .asking)
    {snapshot : SortedObjectSnapshot} (hbuilt : ∃ pages, build params pages = .ok snapshot)
    (maxKeys : ℤ) :
    Inv params (s.answered snapshot (listObjectsSorted params snapshot maxKeys s.token)) := by
  obtain ⟨pages, hpages⟩ := hbuilt
  have hcounted := counted_build hpages
  have hasked : ∀ prefixes objects,
      (∀ served ∈ s.served, served.snapshot.rows = rowsOf prefixes objects) →
        ∃ p o, At params prefixes objects s p o := by
    intro prefixes objects hsame
    have hprogress := h.progress prefixes objects hsame
    unfold Progress at hprogress
    rwa [hasking] at hprogress
  cases hresult : listObjectsSorted params snapshot maxKeys s.token with
  | error detail =>
    refine ⟨?_, h.served, ?_⟩
    · intro cached hcached
      cases hcached
      exact ⟨pages, hpages⟩
    · intro prefixes objects hsame
      -- the client's own token is never rejected
      obtain ⟨p, o, hat⟩ := hasked prefixes objects hsame
      exfalso
      unfold listObjectsSorted at hresult
      split at hresult
      · next detail' hoffsets =>
        unfold sortedCursorOffsets at hoffsets
        rcases hat.token with ⟨htoken, -, -⟩ | htoken
        · rw [htoken] at hoffsets
          simp at hoffsets
        · rw [htoken] at hoffsets
          simp at hoffsets
      · simp at hresult
  | ok response =>
    refine ⟨?_, ?_, ?_⟩
    · intro cached hcached
      cases hcached
      exact ⟨pages, hpages⟩
    · intro served hserved
      rcases List.mem_append.mp hserved with hold | hnew
      · exact h.served served hold
      · rw [List.mem_singleton.mp hnew]
        exact ⟨pages, hpages⟩
    · intro prefixes objects hsame
      obtain ⟨p, o, hat⟩ := hasked prefixes objects fun served hserved =>
        hsame served (List.mem_append_left _ hserved)
      obtain ⟨hprefixes, hobjects⟩ := rowsOf_inj (hsame ⟨snapshot, response⟩
        (List.mem_append_right _ List.mem_cons_self))
      have hprogress := progress_answered hat hcounted hprefixes hobjects maxKeys
      rwa [hresult] at hprogress

theorem step_inv {label : Label} (h : Inv params s) (hstep : step params s label = some s') :
    Inv params s' := by
  unfold step at hstep
  split at hstep
  · cases hstep
    exact h.cache (by simp)
  · split at hstep
    · cases hstep
      exact h
    · next snapshot hbuild =>
      cases hstep
      refine h.cache ?_
      intro snapshot' hsame
      cases hsame
      exact ⟨_, hbuild⟩
  · split at hstep
    · next hasking =>
      split at hstep
      · cases hstep
        exact h
      · next snapshot hscan =>
        cases hstep
        exact inv_answered h hasking (scan_built h hscan) _
    · simp at hstep

theorem start_inv (params : Params) : Inv params {} where
  cached := by simp
  served := by simp
  progress prefixes objects _ := ⟨0, 0, Or.inl ⟨rfl, rfl, rfl⟩, rfl, Or.inl rfl, Nat.zero_le _,
    Nat.zero_le _⟩

theorem inv_reachable (h : Reachable params s) : Inv params s :=
  h.invariant (start_inv params) fun _ _ _ hinv _ hs => step_inv hinv hs

/-! ## Unfinished pages -/

/-- A page after which there is more has a row. -/
theorem page_pos {snapshot : SortedObjectSnapshot} {p o : ℕ} (maxKeys : ℤ)
    (hcounted : snapshot.Counted) (hturn : o = 0 ∨ p = snapshot.orderedPrefixes.length)
    (hp : p ≤ snapshot.orderedPrefixes.length) (ho : o ≤ snapshot.orderedObjects.length)
    {response : ListBrowserObjectsResponse}
    (hresponse : response = sortedPageResponse snapshot (normalizedMaxKeys maxKeys) p o params.signature)
    (hmore : response.nextContinuationToken ≠ none) : 0 < response.rows.length := by
  have hkeys : 1 ≤ normalizedMaxKeys maxKeys := by
    unfold normalizedMaxKeys
    omega
  have hrows := page_rows (normalizedMaxKeys maxKeys) params.signature hturn hp
  have hlength := page_length (normalizedMaxKeys maxKeys) params.signature hturn hp
  rw [← hresponse] at hrows hlength
  have htotal : snapshot.rows.length =
      snapshot.orderedPrefixes.length + snapshot.orderedObjects.length := length_rowsOf _ _
  have hleft : p + response.prefixes.length < snapshot.orderedPrefixes.length ∨
      o + response.objects.length < snapshot.orderedObjects.length := by
    by_contra hdone
    refine hmore ?_
    rw [← hcounted.1, ← hcounted.2, hresponse] at hdone
    rw [hresponse]
    exact if_neg (by simpa [sortedPageResponse] using hdone)
  rw [hrows]
  rw [List.length_take, List.length_drop] at hlength ⊢
  omega

/-- All pages of a client come from one snapshot, also the next one. -/
structure Steady (params : Params) (pages : List (List Entry)) (snapshot : SortedObjectSnapshot)
    (s : Following) : Prop where
  inv : Inv params s
  scan : scanSortedObjectSnapshot params s.cached pages = .ok snapshot
  same : ∀ served ∈ s.served, served.snapshot.rows = snapshot.rows

section Steady

variable {pages : List (List Entry)} {snapshot : SortedObjectSnapshot}

theorem Steady.progress (h : Steady params pages snapshot s) :
    Progress params snapshot.orderedPrefixes snapshot.orderedObjects s :=
  h.inv.progress _ _ h.same

theorem Steady.at (h : Steady params pages snapshot s) (hasking : s.phase = .asking) :
    ∃ p o, At params snapshot.orderedPrefixes snapshot.orderedObjects s p o := by
  have hprogress := h.progress
  unfold Progress at hprogress
  rwa [hasking] at hprogress

theorem Steady.rows_length_le (h : Steady params pages snapshot s) (hasking : s.phase = .asking) :
    s.rows.length ≤ snapshot.rows.length := by
  obtain ⟨p, o, hat⟩ := h.at hasking
  rw [hat.got]
  exact List.length_take_le' _ _

theorem Steady.finished (h : Steady params pages snapshot s) (hfinished : s.phase = .finished) :
    s.rows = snapshot.rows := by
  have hprogress := h.progress
  unfold Progress at hprogress
  rwa [hfinished] at hprogress

/-- An unfinished page adds a row to what the client has. -/
theorem Steady.request (h : Steady params pages snapshot s) (hasking : s.phase = .asking)
    (maxKeys : ℤ) :
    ∃ s', step params s (.request maxKeys pages) = some s' ∧ Steady params pages snapshot s' ∧
      (s'.phase = .finished ∨ s'.phase = .asking ∧ s.rows.length < s'.rows.length) := by
  obtain ⟨built, hbuilt⟩ := scan_built h.inv h.scan
  have hcounted := counted_build hbuilt
  obtain ⟨p, o, hat⟩ := h.at hasking
  have hpos := fun hmore => @page_pos params snapshot p o maxKeys hcounted hat.turn hat.prefixes_le
    hat.objects_le _ rfl hmore
  have hstep : step params s (.request maxKeys pages) =
      some (s.answered snapshot (listObjectsSorted params snapshot maxKeys s.token)) := by
    simp only [step, hasking, if_true, h.scan]
  unfold listObjectsSorted at hstep
  rw [offsets_of_at hat hcounted rfl rfl] at hstep
  refine ⟨_, hstep, ⟨step_inv h.inv hstep, rfl, ?_⟩, ?_⟩
  · intro served hserved
    rcases List.mem_append.mp hserved with hold | hnew
    · exact h.same served hold
    · rw [List.mem_singleton.mp hnew]
  · unfold Following.answered
    dsimp only
    by_cases hlast : (sortedPageResponse snapshot (normalizedMaxKeys maxKeys) p o
        params.signature).nextContinuationToken.isNone = true
    · exact .inl (if_pos hlast)
    · refine .inr ⟨if_neg hlast, ?_⟩
      have hrow := hpos fun hnone => hlast (by rw [hnone]; rfl)
      unfold Following.rows
      rw [List.flatMap_append, List.length_append]
      simpa using hrow

/-- What is left to a client that has the first rows of a snapshot. -/
def Following.remaining (s : Following) (snapshot : SortedObjectSnapshot) : ℕ :=
  if s.phase = .asking then snapshot.rows.length - s.rows.length + 1 else 0

/-- A client that goes on asking while its snapshot stays finishes, with all rows. -/
theorem Steady.exists_finished (h : Steady params pages snapshot s) (hasking : s.phase = .asking)
    (maxKeys : ℤ) :
    ∃ s', Reached (step params) (fun _ label => label = .request maxKeys pages) s s' ∧
      s'.phase = .finished ∧ s'.rows = snapshot.rows := by
  -- each page leaves fewer rows
  have hdown : ∀ s, (Steady params pages snapshot s ∧ s.phase ≠ .rejected) →
      ¬ (Steady params pages snapshot s ∧ s.phase = .finished) →
        ∃ label next, label = .request maxKeys pages ∧ step params s label = some next ∧
          (Steady params pages snapshot next ∧ next.phase ≠ .rejected) ∧
          next.remaining snapshot < s.remaining snapshot := by
    rintro s ⟨h, hkept⟩ hopen
    have hasking : s.phase = .asking := by
      cases hphase : s.phase with
      | asking => rfl
      | finished => exact absurd ⟨h, hphase⟩ hopen
      | rejected => exact absurd hphase hkept
    obtain ⟨next, hstep, hnext, hphase⟩ := h.request hasking maxKeys
    refine ⟨_, next, rfl, hstep, ⟨hnext, ?_⟩, ?_⟩
    · rcases hphase with hphase | ⟨hphase, -⟩
      · simp [hphase]
      · simp [hphase]
    · unfold Following.remaining
      rw [if_pos hasking]
      rcases hphase with hphase | ⟨hphase, hmore⟩
      · rw [hphase]
        exact Nat.succ_pos _
      · have hle := hnext.rows_length_le hphase
        rw [if_pos hphase]
        omega
  obtain ⟨s', hreached, hsteady, hfinished⟩ := Reached.of_rank hdown ⟨h, by simp [hasking]⟩
  exact ⟨s', hreached, hfinished, hsteady.finished hfinished⟩

end Steady

/-! ## What a snapshot holds -/

def Tidy (store : SnapshotStore) : Prop :=
  store.sortedPrefixes.Nodup ∧ (store.sortedObjects.map BrowserObject.key).Nodup

theorem tidy_insertMatching (options : ScanOptions) {store : SnapshotStore} (h : Tidy store)
    (names : List String) : Tidy (insertMatching options store names) := by
  unfold insertMatching
  induction names.filter options.matchesQuery generalizing store with
  | nil => exact h
  | cons name names ih =>
    apply ih
    unfold insertPrefix
    split
    · exact h
    · next hnew =>
      refine ⟨List.nodup_append.mpr ⟨h.1, by simp, ?_⟩, h.2⟩
      rintro x hx y hy rfl
      simp_all

theorem tidy_insertObject {options : ScanOptions} {store : SnapshotStore} (h : Tidy store)
    (object : S3Object) : Tidy (insertObject options store object) := by
  unfold insertObject
  split
  · exact h
  · have hmatching := tidy_insertMatching options h (recursivePrefixes options object)
    dsimp only
    split
    · exact hmatching
    · refine ⟨hmatching.1, ?_⟩
      rw [List.map_append, List.nodup_append]
      refine ⟨(List.filter_sublist.map _).nodup hmatching.2, by simp, ?_⟩
      rintro key hkey other hother rfl
      obtain ⟨old, hold, rfl⟩ := List.mem_map.mp hkey
      have hne := of_decide_eq_true (List.mem_filter.mp hold).2
      exact hne (by simpa [browserObject] using hother)

theorem tidy_scanSnapshot (options : ScanOptions) (pages : List (List Entry)) :
    Tidy (scanSnapshot options pages) := by
  have hpage : ∀ store page, Tidy store → Tidy (snapshotPage options store page) := by
    intro store page h
    have hcontents : Tidy ((contents page).foldl (insertObject options) store) := by
      induction contents page generalizing store with
      | nil => exact h
      | cons object objects ih => exact ih _ (tidy_insertObject h object)
    unfold snapshotPage
    dsimp only
    split
    · exact hcontents
    · exact tidy_insertMatching options hcontents _
  have hall : ∀ store, Tidy store → Tidy (pages.foldl (snapshotPage options) store) := by
    induction pages with
    | nil => exact fun _ h => h
    | cons page pages ih => exact fun store h => ih _ (hpage store page h)
  exact hall {} ⟨List.nodup_nil, List.nodup_nil⟩

/-- A snapshot has each of its rows once, in the requested order; made of the entries of a bucket, it has
exactly the folders and objects that match. -/
theorem snapshot_rows {pages : List (List Entry)} {snapshot : SortedObjectSnapshot}
    (hbuild : build params pages = .ok snapshot) :
    snapshot.rows.Nodup ∧
      snapshot.orderedPrefixes.Pairwise (· ≤ ·) ∧
      snapshot.orderedObjects.Pairwise (objectPrecedes params.sortBy params.sortDir) ∧
      ∀ bucket : List S3Object, (bucket.map S3Object.key).Nodup →
        pages.flatten = s3Entries (!params.options.recursive) params.options.pre bucket →
        (∀ name, name ∈ snapshot.orderedPrefixes ↔
          name ∈ candidatePrefixes params.options pages.flatten ∧
            params.options.matchesQuery name = true) ∧
        snapshot.orderedObjects.Perm (storedObjects params.options (contents pages.flatten)) := by
  unfold build at hbuild
  split at hbuild
  · simp at hbuild
  cases hbuild
  obtain ⟨hprefixes, hobjects⟩ := tidy_scanSnapshot params.options pages
  refine ⟨nodup_rowsOf ?_ ?_, sortedBy_pairwise _ _, objectOrderBy_pairwise _ _ _, ?_⟩
  · exact (sortedBy_perm _ _).nodup_iff.mpr hprefixes
  · exact (objectOrderBy_perm _ _ _).nodup_iff.mpr hobjects.of_map
  · intro bucket hbucket hpages
    have hkeys := @nodup_keys_contents (!params.options.recursive) params.options.pre bucket hbucket
    have hspec := @scanSnapshot_spec params.options pages [] {} (by simpa [hpages] using hkeys) rfl
      (by intro name; unfold candidatePrefixes
          split <;> simp [parentPrefixes, contents, commonPrefixes])
    rw [List.nil_append] at hspec
    constructor
    · intro name
      rw [← hspec.2 name]
      exact mem_sortedBy
    · rw [← hspec.1]
      exact objectOrderBy_perm _ _ _

/-! ## The partition -/

/-- A client that follows the tokens of a sorted listing gets, as long as its pages come from snapshots
with the same rows, the rows of that snapshot from the first one on, each once and in the requested order,
and all of them by the time no token is returned, which comes if it goes on asking; its own tokens are
never rejected. A token made for other parameters is rejected; the offsets of any other one are clamped
to the counts of the snapshot at hand and applied to its rows. -/
theorem sorted_pages_partition (params : Params) :
    (∀ s, Reachable params s → ∀ snapshot : SortedObjectSnapshot,
      (∀ served ∈ s.served, served.snapshot.rows = snapshot.rows) →
        s.phase ≠ .rejected ∧ s.rows.IsPrefix snapshot.rows ∧
          (s.phase = .finished → s.rows = snapshot.rows)) ∧
      (∀ s, Reachable params s → s.phase = .asking → ∀ pages snapshot maxKeys,
        scanSortedObjectSnapshot params s.cached pages = .ok snapshot →
        (∀ served ∈ s.served, served.snapshot.rows = snapshot.rows) →
          ∃ s', Reached (step params) (fun _ label => label = .request maxKeys pages) s s' ∧
            s'.phase = .finished ∧ s'.rows = snapshot.rows) ∧
      (∀ s, Reachable params s → ∀ served ∈ s.served,
        ∃ pages, build params pages = .ok served.snapshot) ∧
      (∀ pages snapshot, build params pages = .ok snapshot →
        snapshot.rows.Nodup ∧
          snapshot.orderedPrefixes.Pairwise (· ≤ ·) ∧
          snapshot.orderedObjects.Pairwise (objectPrecedes params.sortBy params.sortDir) ∧
          ∀ bucket : List S3Object, (bucket.map S3Object.key).Nodup →
            pages.flatten = s3Entries (!params.options.recursive) params.options.pre bucket →
            (∀ name, name ∈ snapshot.orderedPrefixes ↔
              name ∈ candidatePrefixes params.options pages.flatten ∧
                params.options.matchesQuery name = true) ∧
            snapshot.orderedObjects.Perm (storedObjects params.options (contents pages.flatten))) ∧
      (∀ snapshot maxKeys prefixesOffset objectsOffset signature, signature ≠ params.signature →
        listObjectsSorted params snapshot maxKeys
          (some (.cursor prefixesOffset objectsOffset signature)) = .error filtersChanged) ∧
      ∀ pages snapshot, build params pages = .ok snapshot → ∀ maxKeys prefixesOffset objectsOffset,
        ∃ response, listObjectsSorted params snapshot maxKeys
            (some (.cursor prefixesOffset objectsOffset params.signature)) = .ok response ∧
          response.prefixes = (snapshot.orderedPrefixes.drop
            (min prefixesOffset.toNat snapshot.orderedPrefixes.length)).take (normalizedMaxKeys maxKeys) ∧
          response.objects = (snapshot.orderedObjects.drop
            (min objectsOffset.toNat snapshot.orderedObjects.length)).take
              (normalizedMaxKeys maxKeys - response.prefixes.length) := by
  refine ⟨?_, fun s h hasking pages snapshot maxKeys hscan hsame =>
    Steady.exists_finished ⟨inv_reachable h, hscan, hsame⟩ hasking maxKeys,
    fun s h => (inv_reachable h).served, fun pages snapshot => snapshot_rows, ?_, ?_⟩
  · intro s h snapshot hsame
    have hprogress := (inv_reachable h).progress snapshot.orderedPrefixes snapshot.orderedObjects hsame
    unfold Progress at hprogress
    cases hphase : s.phase with
    | asking =>
      rw [hphase] at hprogress
      obtain ⟨p, o, hat⟩ := hprogress
      refine ⟨by simp, ?_, by simp⟩
      rw [hat.got]
      exact List.take_prefix _ _
    | finished =>
      rw [hphase] at hprogress
      refine ⟨by simp, ?_, fun _ => hprogress⟩
      rw [hprogress]
      exact List.prefix_refl _
    | rejected =>
      rw [hphase] at hprogress
      exact hprogress.elim
  · intro snapshot maxKeys prefixesOffset objectsOffset signature hne
    have hrejected : sortedCursorOffsets snapshot
        (some (.cursor prefixesOffset objectsOffset signature)) params.signature =
          .error filtersChanged := if_pos hne
    unfold listObjectsSorted
    rw [hrejected]
  · intro pages snapshot hbuild maxKeys prefixesOffset objectsOffset
    have hclamped : sortedCursorOffsets snapshot
        (some (.cursor prefixesOffset objectsOffset params.signature)) params.signature =
          .ok (min prefixesOffset.toNat snapshot.orderedPrefixes.length,
            min objectsOffset.toNat snapshot.orderedObjects.length) := by
      obtain ⟨hprefixCount, hobjectCount⟩ := counted_build hbuild
      rw [← hprefixCount, ← hobjectCount]
      exact if_neg (not_not.mpr rfl)
    unfold listObjectsSorted
    rw [hclamped]
    exact ⟨_, rfl, rfl, rfl⟩

/-- By size, everything below the root. -/
def bySize : Params where
  options := recursiveOptions 1 (by decide)
  sortBy := .size
  sortDir := .asc
  signature := "size"

def sizedObject (key : String) (size : ℕ) : S3Object := ⟨key, size, none, none, none, none⟩

def sizedRow (key : String) (size : ℕ) : Row := .object ⟨key, size, none, none, none, none⟩

def threeObjects : List (List Entry) :=
  [[.object (sizedObject "a" 1), .object (sizedObject "b" 2), .object (sizedObject "c" 3)]]

/-- The smallest object has been deleted. -/
def twoObjects : List (List Entry) :=
  [[.object (sizedObject "b" 2), .object (sizedObject "c" 3)]]

theorem sorted_pages_partition_cached : ∃ s, Reachable bySize s ∧
    s.rows = [sizedRow "a" 1, sizedRow "b" 2, sizedRow "c" 3] := by
  have hbuilt : ∃ snapshot, build bySize threeObjects = .ok snapshot ∧
      snapshot.rows = [sizedRow "a" 1, sizedRow "b" 2, sizedRow "c" 3] :=
    ⟨_, rfl, by decide +kernel⟩
  obtain ⟨snapshot, -, hrows⟩ := hbuilt
  have hrun : (after (step bySize) {} [.request 2 threeObjects, .request 2 []]).any (fun s =>
      decide (s.phase = .finished) && s.served.all fun served =>
        decide (served.snapshot.rows = [sizedRow "a" 1, sizedRow "b" 2, sizedRow "c" 3])) = true := by
    decide +kernel
  obtain ⟨s, hs, hfinal⟩ := (Option.any_eq_true _ _).mp hrun
  rw [Bool.and_eq_true, decide_eq_true_eq, List.all_eq_true] at hfinal
  have hreach : Reachable bySize s := Reached.init.after hs
  have hsame : ∀ served ∈ s.served, served.snapshot.rows = snapshot.rows := by
    intro served hserved
    rw [hrows]
    exact of_decide_eq_true (hfinal.2 served hserved)
  exact ⟨s, hreach, (((sorted_pages_partition bySize).1 s hreach snapshot hsame).2.2 hfinal.1).trans
    hrows⟩

/-- The snapshot expires after the first page and its object is deleted: the second object is skipped. -/
theorem rebuilt_snapshot_skips :
    ¬∀ (params : Params) (s : Following), Reachable params s → s.phase = .finished →
      ∃ served ∈ s.served, s.rows = served.snapshot.rows := by
  intro h
  have hrun : (after (step bySize) {} [.request 1 threeObjects, .drop, .request 1 twoObjects]).any
      (fun s => decide (s.phase = .finished) && s.served.all fun served =>
        decide (s.rows ≠ served.snapshot.rows)) = true := by
    decide +kernel
  obtain ⟨s, hs, hfinal⟩ := (Option.any_eq_true _ _).mp hrun
  rw [Bool.and_eq_true, decide_eq_true_eq, List.all_eq_true] at hfinal
  obtain ⟨served, hserved, hrows⟩ := h bySize s (Reached.init.after hs) hfinal.1
  exact of_decide_eq_true (hfinal.2 served hserved) hrows

end Sorted
end BucketReef

import BucketReef.Browser.FilteredListing

/-!
# What following the tokens returns

Following the continuation tokens returns every matching object once, whatever the pages. Folders are
added after the objects of their page and only while there is room: where the matching folders of every
page fit, the client has seen what the snapshot of a sorted listing holds; where they do not, the token
has moved past the keys they were derived from.
-/

namespace BucketReef
namespace Filtered

open Lists Transitions

variable (options : ScanOptions)

/-! ## What the filters ask for -/

def storedObjects (objects : List S3Object) : List BrowserObject :=
  (objects.filter fun object => isListed options object && shouldStoreObject options object).map
    (browserObject options)

/-- The parent prefixes of the objects that are listed. -/
def parentPrefixes (objects : List S3Object) : List String :=
  (objects.filter (isListed options)).flatMap (recursivePrefixes options)

def candidatePrefixes (entries : List Entry) : List String :=
  if options.itemType = .file then []
  else if options.recursive then parentPrefixes options (contents entries)
  else commonPrefixes entries

/-- The matching parent prefixes of a page that the response does not have yet. -/
def newPrefixes (listing : FilteredObjectListing) (page : List Entry) : List String :=
  (sortedPrefixes (parentPrefixes options (contents page))).filter fun name =>
    name ∉ listing.seenPrefixes && options.matchesQuery name

/-- The page's matching objects and new matching parent prefixes find room in the response. -/
def fits (s : Following) : Label → Bool
  | .page size =>
    match s.phase with
    | .scanning listing _ =>
      !options.recursive || options.itemType = .file ||
        listing.itemCount + (storedObjects options (contents (s.rest.take size))).length +
          (newPrefixes options listing (s.rest.take size)).length ≤ options.maxKeys
    | _ => true
  | _ => true

variable {options}

theorem contents_append (xs ys : List Entry) : contents (xs ++ ys) = contents xs ++ contents ys :=
  List.filterMap_append ..

theorem storedObjects_append (xs ys : List S3Object) :
    storedObjects options (xs ++ ys) = storedObjects options xs ++ storedObjects options ys := by
  unfold storedObjects
  rw [List.filter_append, List.map_append]

theorem candidatePrefixes_append (xs ys : List Entry) :
    candidatePrefixes options (xs ++ ys) =
      candidatePrefixes options xs ++ candidatePrefixes options ys := by
  unfold candidatePrefixes parentPrefixes
  split
  · rfl
  · split
    · rw [contents_append, List.filter_append, List.flatMap_append]
    · exact List.filterMap_append ..

theorem length_contents_add (entries : List Entry) :
    (contents entries).length + (commonPrefixes entries).length ≤ entries.length := by
  induction entries with
  | nil => exact Nat.le_refl 0
  | cons entry rest ih =>
    unfold contents commonPrefixes at ih ⊢
    cases entry with
    | object object =>
      simp only [List.filterMap_cons, List.length_cons]
      omega
    | commonPrefix name =>
      simp only [List.filterMap_cons, List.length_cons]
      split
      · omega
      · simp only [List.length_cons]
        omega

theorem length_storedObjects_le (objects : List S3Object) :
    (storedObjects options objects).length ≤ objects.length := by
  unfold storedObjects
  rw [List.length_map]
  exact List.length_filter_le _ _

/-! ## One page -/

/-- With room left, the next object is added when it matches. -/
theorem addObject_eq {object : S3Object} {listing : FilteredObjectListing} {recursive : List String}
    (hroom : listing.itemCount < options.maxKeys) :
    addObject options (listing, recursive) object =
      ({ listing with objects := listing.objects ++ storedObjects options [object] },
        recursive ++ parentPrefixes options [object]) := by
  have hnotFull : listing.isFull options = false := by
    unfold FilteredObjectListing.isFull
    exact decide_eq_false (not_le.mpr hroom)
  unfold addObject
  dsimp only
  cases hlisted : isListed options object with
  | false => simp [storedObjects, parentPrefixes, hlisted]
  | true =>
    cases hstored : shouldStoreObject options object with
    | false => simp [storedObjects, parentPrefixes, hlisted, hstored]
    | true => simp [storedObjects, parentPrefixes, hlisted, hstored, hnotFull]

theorem parentPrefixes_append (xs ys : List S3Object) :
    parentPrefixes options (xs ++ ys) = parentPrefixes options xs ++ parentPrefixes options ys := by
  unfold parentPrefixes
  rw [List.filter_append, List.flatMap_append]

/-- With room for every object of the page, each matching one is added. -/
theorem foldl_addObject {objects : List S3Object} {listing : FilteredObjectListing}
    {recursive : List String} (hroom : listing.itemCount + objects.length ≤ options.maxKeys) :
    objects.foldl (addObject options) (listing, recursive) =
      ({ listing with objects := listing.objects ++ storedObjects options objects },
        recursive ++ parentPrefixes options objects) := by
  induction objects generalizing listing recursive with
  | nil => simp [storedObjects, parentPrefixes]
  | cons object rest ih =>
    rw [List.length_cons] at hroom
    have hone : (storedObjects options [object]).length ≤ [object].length := length_storedObjects_le [object]
    rw [List.foldl_cons, addObject_eq (by omega), ih]
    · have hobjects : storedObjects options (object :: rest) =
          storedObjects options [object] ++ storedObjects options rest :=
        storedObjects_append [object] rest
      have hparents : parentPrefixes options (object :: rest) =
          parentPrefixes options [object] ++ parentPrefixes options rest :=
        parentPrefixes_append [object] rest
      rw [hobjects, hparents, ← List.append_assoc, ← List.append_assoc]
    · unfold FilteredObjectListing.itemCount at hroom ⊢
      rw [List.length_singleton] at hone
      simp only [List.length_append]
      omega

/-- A response lists the prefixes it has seen. -/
def FilteredObjectListing.Tidy (listing : FilteredObjectListing) : Prop :=
  listing.seenPrefixes = listing.prefixes

/-- What adding prefixes does, whether or not they fit. -/
theorem addPrefixes_spec {listing : FilteredObjectListing} (htidy : listing.Tidy) (names : List String) :
    (addPrefixes options listing names).objects = listing.objects ∧
      (addPrefixes options listing names).Tidy ∧
      (∀ name ∈ listing.prefixes, name ∈ (addPrefixes options listing names).prefixes) ∧
      (∀ name ∈ (addPrefixes options listing names).prefixes, name ∈ listing.prefixes ∨
        (name ∈ names ∧ options.matchesQuery name = true)) := by
  induction names generalizing listing with
  | nil => exact ⟨rfl, htidy, fun _ hname => hname, fun _ hname => Or.inl hname⟩
  | cons name rest ih =>
    rw [addPrefixes]
    split
    · obtain ⟨hobjects, htidy', hkept, hfrom⟩ := ih htidy
      refine ⟨hobjects, htidy', hkept, ?_⟩
      intro other hother
      rcases hfrom other hother with h | ⟨h, hmatches⟩
      · exact Or.inl h
      · exact Or.inr ⟨List.mem_cons_of_mem _ h, hmatches⟩
    · rename_i hnew
      split
      · exact ⟨rfl, htidy, fun _ hname => hname, fun _ hname => Or.inl hname⟩
      · have hmatches : options.matchesQuery name = true := by
          simp only [Bool.or_eq_true, decide_eq_true_eq, not_or] at hnew
          simpa using hnew.2
        have htidy' : ({ listing with
            seenPrefixes := listing.seenPrefixes ++ [name]
            prefixes := listing.prefixes ++ [name] } : FilteredObjectListing).Tidy := by
          show listing.seenPrefixes ++ [name] = listing.prefixes ++ [name]
          rw [htidy]
        obtain ⟨hobjects, htidy', hkept, hfrom⟩ := ih htidy'
        refine ⟨hobjects, htidy', ?_, ?_⟩
        · intro other hother
          exact hkept other (List.mem_append_left _ hother)
        · intro other hother
          rcases hfrom other hother with h | ⟨h, hmatches'⟩
          · rcases List.mem_append.mp h with h | h
            · exact Or.inl h
            · rw [List.mem_singleton.mp h]
              exact Or.inr ⟨List.mem_cons_self .., hmatches⟩
          · exact Or.inr ⟨List.mem_cons_of_mem _ h, hmatches'⟩

/-- With room for the new ones, every matching prefix is in the response. -/
theorem addPrefixes_complete {listing : FilteredObjectListing} (htidy : listing.Tidy)
    {names : List String}
    (hroom : listing.itemCount + (names.filter fun name =>
      name ∉ listing.seenPrefixes && options.matchesQuery name).length ≤ options.maxKeys) :
    ∀ name ∈ names, options.matchesQuery name = true →
      name ∈ (addPrefixes options listing names).prefixes := by
  induction names generalizing listing with
  | nil =>
    intro name hname
    cases hname
  | cons head rest ih =>
    intro name hname hmatches
    rw [addPrefixes]
    split
    · rename_i hold
      have hskipped : ¬(decide (head ∉ listing.seenPrefixes) && options.matchesQuery head) = true := by
        simp only [Bool.or_eq_true, decide_eq_true_eq, Bool.not_eq_true'] at hold
        rcases hold with h | h <;> simp [h]
      rw [List.filter_cons, if_neg hskipped] at hroom
      rcases List.mem_cons.mp hname with rfl | hname
      · -- a matching prefix is passed over only when the response has it
        have hseen : name ∈ listing.seenPrefixes := by
          simpa [hmatches] using hold
        rw [htidy] at hseen
        exact (addPrefixes_spec htidy rest).2.2.1 name hseen
      · exact ih htidy hroom name hname hmatches
    · rename_i hnew
      have hcounted : (decide (head ∉ listing.seenPrefixes) && options.matchesQuery head) = true := by
        simp only [Bool.or_eq_true, decide_eq_true_eq, not_or, Bool.not_eq_true', Bool.not_eq_false] at hnew
        simp [hnew.1, hnew.2]
      rw [List.filter_cons, if_pos hcounted, List.length_cons] at hroom
      have hnotFull : ¬listing.isFull options = true := by
        unfold FilteredObjectListing.isFull
        rw [decide_eq_true_eq]
        omega
      rw [if_neg hnotFull]
      have htidy' : ({ listing with
          seenPrefixes := listing.seenPrefixes ++ [head]
          prefixes := listing.prefixes ++ [head] } : FilteredObjectListing).Tidy := by
        show listing.seenPrefixes ++ [head] = listing.prefixes ++ [head]
        rw [htidy]
      rcases List.mem_cons.mp hname with rfl | hname
      · exact (addPrefixes_spec htidy' rest).2.2.1 name
          (List.mem_append_right _ (List.mem_singleton.mpr rfl))
      · refine ih htidy' ?_ name hname hmatches
        have hfewer : (rest.filter fun name =>
            name ∉ listing.seenPrefixes ++ [head] && options.matchesQuery name).length ≤
              (rest.filter fun name =>
                name ∉ listing.seenPrefixes && options.matchesQuery name).length := by
          apply List.Sublist.length_le
          apply List.monotone_filter_right
          intro other hother
          simp only [Bool.and_eq_true, decide_eq_true_eq, List.mem_append, not_or] at hother ⊢
          exact ⟨hother.1.1, hother.2⟩
        unfold FilteredObjectListing.itemCount at hroom ⊢
        simp only [List.length_append, List.length_singleton]
        omega

theorem mem_sortedPrefixes {names : List String} {name : String} :
    name ∈ sortedPrefixes names ↔ name ∈ names := by
  unfold sortedPrefixes
  rw [mem_sortedBy, List.mem_dedup]

/-- What a page adds to the response. -/
structure Added (options : ScanOptions) (before after : FilteredObjectListing) (page : List Entry) :
    Prop where
  objects : after.objects = before.objects ++ storedObjects options (contents page)
  tidy : after.Tidy
  kept : ∀ name ∈ before.prefixes, name ∈ after.prefixes
  sound : ∀ name ∈ after.prefixes, name ∈ before.prefixes ∨
    (name ∈ candidatePrefixes options page ∧ options.matchesQuery name = true)

theorem addObjects_eq {listing : FilteredObjectListing} {page : List Entry}
    (hroom : listing.itemCount + page.length ≤ options.maxKeys) :
    addObjects options listing (contents page) =
      ({ listing with objects := listing.objects ++ storedObjects options (contents page) },
        parentPrefixes options (contents page)) := by
  have hlength := length_contents_add page
  unfold addObjects
  rw [foldl_addObject (by omega), List.nil_append]

theorem added_prefixes {listing : FilteredObjectListing} (htidy : listing.Tidy) {page : List Entry}
    {names : List String} (hnames : ∀ name ∈ names, name ∈ candidatePrefixes options page) :
    Added options listing
      (addPrefixes options
        { listing with objects := listing.objects ++ storedObjects options (contents page) } names)
      page := by
  have htidy' : ({ listing with
      objects := listing.objects ++ storedObjects options (contents page) } :
        FilteredObjectListing).Tidy := htidy
  obtain ⟨hobjects, hafter, hkept, hfrom⟩ := @addPrefixes_spec options _ htidy' names
  refine ⟨hobjects, hafter, hkept, ?_⟩
  intro name hname
  rcases hfrom name hname with h | ⟨h, hmatches⟩
  · exact Or.inl h
  · exact Or.inr ⟨hnames name h, hmatches⟩

theorem added_page {listing : FilteredObjectListing} (htidy : listing.Tidy) {page : List Entry}
    (hroom : listing.itemCount + page.length ≤ options.maxKeys) :
    Added options listing (addPage options listing page) page := by
  unfold addPage
  rw [addObjects_eq hroom]
  dsimp only
  split
  · exact ⟨rfl, htidy, fun _ hname => hname, fun _ hname => Or.inl hname⟩
  · rename_i hfile
    split
    · rename_i hrecursive
      apply added_prefixes htidy
      intro name hname
      unfold candidatePrefixes
      rw [if_neg hfile, if_pos hrecursive]
      exact mem_sortedPrefixes.mp hname
    · rename_i hrecursive
      apply added_prefixes htidy
      intro name hname
      unfold candidatePrefixes
      rwa [if_neg hfile, if_neg hrecursive]

/-- With room for its folders, the response has every matching one of the page. -/
theorem complete_page {listing : FilteredObjectListing} (htidy : listing.Tidy) {page : List Entry}
    (hroom : listing.itemCount + page.length ≤ options.maxKeys)
    (hfits : options.recursive = false ∨ options.itemType = .file ∨
      listing.itemCount + (storedObjects options (contents page)).length +
        (newPrefixes options listing page).length ≤ options.maxKeys) :
    ∀ name ∈ candidatePrefixes options page, options.matchesQuery name = true →
      name ∈ (addPage options listing page).prefixes := by
  intro name hname hmatches
  have htidy' : ({ listing with
      objects := listing.objects ++ storedObjects options (contents page) } :
        FilteredObjectListing).Tidy := htidy
  unfold addPage
  rw [addObjects_eq hroom]
  dsimp only
  unfold candidatePrefixes at hname
  split at hname
  · cases hname
  · rename_i hfile
    rw [if_neg hfile]
    split at hname
    · rename_i hrecursive
      rw [if_pos hrecursive]
      refine addPrefixes_complete htidy' ?_ name (mem_sortedPrefixes.mpr hname) hmatches
      rcases hfits with h | h | h
      · rw [hrecursive] at h
        cases h
      · exact absurd h hfile
      · unfold FilteredObjectListing.itemCount newPrefixes at h
        unfold FilteredObjectListing.itemCount
        simp only [List.length_append]
        omega
    · rename_i hrecursive
      rw [if_neg hrecursive]
      refine addPrefixes_complete htidy' ?_ name hname hmatches
      -- the common prefixes of a page were counted by S3
      have hcount := length_contents_add page
      have hstored : (storedObjects options (contents page)).length ≤ (contents page).length :=
        length_storedObjects_le _
      have hfewer := List.length_filter_le (fun name =>
        name ∉ listing.seenPrefixes && options.matchesQuery name) (commonPrefixes page)
      unfold FilteredObjectListing.itemCount at hroom ⊢
      simp only [List.length_append]
      omega

/-! ## Runs -/

/-- The response under construction. -/
def Phase.listing : Phase → FilteredObjectListing
  | .scanning listing _ => listing
  | _ => {}

structure Inv (options : ScanOptions) (entries : List Entry) (s : Following) : Prop where
  objects : ∃ consumed, consumed ++ s.rest = entries ∧
    s.objects ++ s.phase.listing.objects = storedObjects options (contents consumed) ∧
    (∀ name, name ∈ s.prefixes ++ s.phase.listing.prefixes ↔
      name ∈ candidatePrefixes options consumed ∧ options.matchesQuery name = true)
  tidy : s.phase.listing.Tidy
  room : ∀ listing pagesScanned, s.phase = .scanning listing pagesScanned →
    listing.itemCount < options.maxKeys
  finished : s.phase = .finished → s.rest = []

theorem inv_respond {entries : List Entry} {s : Following} {listing : FilteredObjectListing}
    (h : ∃ consumed, consumed ++ s.rest = entries ∧
      s.objects ++ listing.objects = storedObjects options (contents consumed) ∧
      (∀ name, name ∈ s.prefixes ++ listing.prefixes ↔
        name ∈ candidatePrefixes options consumed ∧ options.matchesQuery name = true)) :
    Inv options entries (s.respond listing) := by
  obtain ⟨consumed, hrest, hobjects, hprefixes⟩ := h
  refine ⟨⟨consumed, hrest, ?_, ?_⟩, rfl, (fun _ _ heq => by cases heq), fun heq => by cases heq⟩
  · show (s.objects ++ listing.objects) ++ [] = _
    rw [List.append_nil, hobjects]
  · intro name
    show name ∈ (s.prefixes ++ listing.prefixes) ++ [] ↔ _
    rw [List.append_nil, hprefixes]

theorem step_inv {entries : List Entry} {s s' : Following} {label : Label}
    (h : Inv options entries s) (hok : fits options s label = true)
    (hs : step options s label = some s') : Inv options entries s' := by
  obtain ⟨rest, phase, objects, prefixes⟩ := s
  obtain ⟨hconsumed, htidy, hroom, -⟩ := h
  cases label with
  | page size =>
    cases phase with
    | scanning listing pagesScanned =>
      simp only [step, Option.ite_none_right_eq_some] at hs
      obtain ⟨⟨hsize, -⟩, hs⟩ := hs
      have hless := hroom listing pagesScanned rfl
      change listing.Tidy at htidy
      have hpage : listing.itemCount + (rest.take size).length ≤ options.maxKeys := by
        unfold requested at hsize
        rw [List.length_take]
        omega
      have hadded := added_page htidy hpage
      have hcomplete : ∀ name ∈ candidatePrefixes options (rest.take size),
          options.matchesQuery name = true →
            name ∈ (addPage options listing (rest.take size)).prefixes := by
        apply complete_page htidy hpage
        simpa [fits, or_assoc] using hok
      have hnext : ∃ consumed, consumed ++ rest.drop size = entries ∧
          objects ++ (addPage options listing (rest.take size)).objects =
            storedObjects options (contents consumed) ∧
          (∀ name, name ∈ prefixes ++ (addPage options listing (rest.take size)).prefixes ↔
            name ∈ candidatePrefixes options consumed ∧ options.matchesQuery name = true) := by
        obtain ⟨consumed, hrest, hobjects, hprefixes⟩ := hconsumed
        refine ⟨consumed ++ rest.take size, ?_, ?_, ?_⟩
        · rw [List.append_assoc, List.take_append_drop]
          exact hrest
        · rw [hadded.objects, contents_append, storedObjects_append, ← hobjects, List.append_assoc]
          rfl
        · intro name
          have hold := hprefixes name
          rw [candidatePrefixes_append, List.mem_append, List.mem_append, or_and_right, ← hold,
            List.mem_append]
          constructor
          · rintro (hname | hname)
            · exact Or.inl (Or.inl hname)
            · rcases hadded.sound name hname with h | h
              · exact Or.inl (Or.inr h)
              · exact Or.inr h
          · rintro ((hname | hname) | ⟨hname, hmatches⟩)
            · exact Or.inl hname
            · exact Or.inr (hadded.kept name hname)
            · exact Or.inr (hcomplete name hname hmatches)
      split at hs
      · cases hs
        exact inv_respond hnext
      · rename_i hcontinue
        cases hs
        refine ⟨hnext, hadded.tidy, ?_, fun heq => by cases heq⟩
        intro listing' pagesScanned' heq
        cases heq
        rw [not_or] at hcontinue
        simpa [FilteredObjectListing.isFull] using hcontinue.1
    | responded => cases hs
    | finished => cases hs
  | stop =>
    cases phase with
    | scanning listing pagesScanned =>
      simp only [step, Option.ite_none_right_eq_some, Option.some.injEq] at hs
      obtain ⟨-, rfl⟩ := hs
      exact inv_respond hconsumed
    | responded => cases hs
    | finished => cases hs
  | follow =>
    cases phase with
    | scanning listing pagesScanned => cases hs
    | responded =>
      simp only [step] at hs
      split at hs
      · rename_i hrest
        cases hs
        exact ⟨hconsumed, rfl, (fun _ _ heq => by cases heq), fun _ => hrest⟩
      · cases hs
        refine ⟨hconsumed, rfl, ?_, fun heq => by cases heq⟩
        intro listing pagesScanned heq
        cases heq
        exact options.maxKeys_pos
    | finished => cases hs

theorem inv_first (options : ScanOptions) (bucket : List S3Object) :
    Inv options (s3Entries (!options.recursive) options.pre bucket) (first options bucket) := by
  refine ⟨⟨[], rfl, rfl, ?_⟩, rfl, ?_, fun heq => by cases heq⟩
  · intro name
    have hnone : candidatePrefixes options [] = [] := by
      unfold candidatePrefixes
      split
      · rfl
      · split <;> rfl
    rw [hnone]
    simp [first, Phase.listing]
  · intro listing pagesScanned heq
    cases heq
    exact options.maxKeys_pos

/-! ## The snapshot -/

theorem foldl_insertPrefix (names : List String) (store : SnapshotStore) :
    (names.foldl insertPrefix store).sortedObjects = store.sortedObjects ∧
      ∀ name, name ∈ (names.foldl insertPrefix store).sortedPrefixes ↔
        name ∈ store.sortedPrefixes ∨ name ∈ names := by
  induction names generalizing store with
  | nil => simp
  | cons head rest ih =>
    obtain ⟨hobjects, hprefixes⟩ := ih (insertPrefix store head)
    have hhead : (insertPrefix store head).sortedObjects = store.sortedObjects ∧
        ∀ name, name ∈ (insertPrefix store head).sortedPrefixes ↔
          name ∈ store.sortedPrefixes ∨ name = head := by
      unfold insertPrefix
      split
      · rename_i hold
        refine ⟨rfl, fun name => ⟨Or.inl, ?_⟩⟩
        rintro (h | rfl)
        · exact h
        · exact hold
      · exact ⟨rfl, fun name => by simp⟩
    refine ⟨hobjects.trans hhead.1, ?_⟩
    intro name
    rw [List.foldl_cons, hprefixes, hhead.2, List.mem_cons, or_assoc]

theorem insertMatching_spec (store : SnapshotStore) (names : List String) :
    (insertMatching options store names).sortedObjects = store.sortedObjects ∧
      ∀ name, name ∈ (insertMatching options store names).sortedPrefixes ↔
        name ∈ store.sortedPrefixes ∨ (name ∈ names ∧ options.matchesQuery name = true) := by
  unfold insertMatching
  obtain ⟨hobjects, hprefixes⟩ := foldl_insertPrefix (names.filter options.matchesQuery) store
  refine ⟨hobjects, ?_⟩
  intro name
  rw [hprefixes, List.mem_filter]

theorem insertObject_spec (store : SnapshotStore) (object : S3Object)
    (hfresh : ∀ old ∈ store.sortedObjects, old.key ≠ object.key) :
    (insertObject options store object).sortedObjects =
        store.sortedObjects ++ storedObjects options [object] ∧
      ∀ name, name ∈ (insertObject options store object).sortedPrefixes ↔
        name ∈ store.sortedPrefixes ∨
          (name ∈ parentPrefixes options [object] ∧ options.matchesQuery name = true) := by
  obtain ⟨hobjects, hprefixes⟩ :=
    @insertMatching_spec options store (recursivePrefixes options object)
  unfold insertObject
  cases hlisted : isListed options object with
  | false => simp [storedObjects, parentPrefixes, hlisted]
  | true =>
    have hparents : parentPrefixes options [object] = recursivePrefixes options object := by
      simp [parentPrefixes, hlisted]
    rw [hparents]
    simp only [Bool.not_true, Bool.false_eq_true, if_false]
    cases hstored : shouldStoreObject options object with
    | false =>
      simp only [Bool.not_false, if_true]
      exact ⟨by simp [storedObjects, hlisted, hstored, hobjects], hprefixes⟩
    | true =>
      simp only [Bool.not_true, Bool.false_eq_true, if_false]
      refine ⟨?_, hprefixes⟩
      rw [hobjects, List.filter_eq_self.mpr fun old hold => decide_eq_true (hfresh old hold)]
      simp [storedObjects, hlisted, hstored]

theorem key_of_mem_stored {objects : List S3Object} {stored : BrowserObject}
    (h : stored ∈ storedObjects options objects) : stored.key ∈ objects.map S3Object.key := by
  unfold storedObjects at h
  obtain ⟨object, hobject, rfl⟩ := List.mem_map.mp h
  exact List.mem_map_of_mem (List.mem_of_mem_filter hobject)

/-- The objects of a page, when their keys are new. -/
theorem foldl_insertObject {seen objects : List S3Object} {store : SnapshotStore}
    (hkeys : ((seen ++ objects).map S3Object.key).Nodup)
    (hstore : store.sortedObjects = storedObjects options seen) :
    (objects.foldl (insertObject options) store).sortedObjects = storedObjects options (seen ++ objects) ∧
      ∀ name, name ∈ (objects.foldl (insertObject options) store).sortedPrefixes ↔
        name ∈ store.sortedPrefixes ∨
          (name ∈ parentPrefixes options objects ∧ options.matchesQuery name = true) := by
  induction objects generalizing seen store with
  | nil =>
    rw [List.append_nil]
    exact ⟨hstore, fun name => by simp [parentPrefixes]⟩
  | cons object rest ih =>
    have hfresh : ∀ old ∈ store.sortedObjects, old.key ≠ object.key := by
      intro old hold heq
      rw [hstore] at hold
      rw [List.map_append, List.map_cons] at hkeys
      exact List.disjoint_of_nodup_append hkeys (key_of_mem_stored hold) (by simp [heq])
    obtain ⟨hobjects, hprefixes⟩ := @insertObject_spec options store object hfresh
    have hassoc : seen ++ object :: rest = (seen ++ [object]) ++ rest := by simp
    have hnext : (insertObject options store object).sortedObjects =
        storedObjects options (seen ++ [object]) := by
      rw [hobjects, hstore, storedObjects_append]
    obtain ⟨hrest, hrestPrefixes⟩ := ih (hassoc ▸ hkeys) hnext
    refine ⟨by rw [hassoc]; exact hrest, ?_⟩
    intro name
    have hparents : parentPrefixes options (object :: rest) =
        parentPrefixes options [object] ++ parentPrefixes options rest :=
      parentPrefixes_append [object] rest
    rw [List.foldl_cons, hrestPrefixes, hprefixes, hparents, List.mem_append]
    tauto

/-- The snapshot holds what the filters ask for, however S3 cuts its entries into pages. -/
theorem scanSnapshot_spec {pages : List (List Entry)} {seen : List Entry} {store : SnapshotStore}
    (hkeys : ((contents (seen ++ pages.flatten)).map S3Object.key).Nodup)
    (hobjects : store.sortedObjects = storedObjects options (contents seen))
    (hprefixes : ∀ name, name ∈ store.sortedPrefixes ↔
      name ∈ candidatePrefixes options seen ∧ options.matchesQuery name = true) :
    (pages.foldl (snapshotPage options) store).sortedObjects =
        storedObjects options (contents (seen ++ pages.flatten)) ∧
      ∀ name, name ∈ (pages.foldl (snapshotPage options) store).sortedPrefixes ↔
        name ∈ candidatePrefixes options (seen ++ pages.flatten) ∧ options.matchesQuery name = true := by
  induction pages generalizing seen store with
  | nil =>
    rw [List.flatten_nil, List.append_nil]
    exact ⟨hobjects, hprefixes⟩
  | cons page rest ih =>
    have hassoc : seen ++ (page :: rest).flatten = (seen ++ page) ++ rest.flatten := by simp
    rw [hassoc] at hkeys ⊢
    rw [List.foldl_cons]
    have hpageKeys : ((contents seen ++ contents page).map S3Object.key).Nodup := by
      rw [contents_append, contents_append, List.map_append] at hkeys
      exact hkeys.of_append_left
    obtain ⟨hstored, hparents⟩ := foldl_insertObject hpageKeys hobjects
    apply ih hkeys
    · unfold snapshotPage
      dsimp only
      split
      · rw [hstored, contents_append]
      · rw [(insertMatching_spec _ _).1, hstored, contents_append]
    · intro name
      rw [candidatePrefixes_append, List.mem_append, or_and_right, ← hprefixes name]
      unfold snapshotPage
      dsimp only
      have hskipped : options.itemType = .file ∨ options.recursive = false →
          ∀ objects, parentPrefixes options objects = [] := by
        intro hnone objects
        unfold parentPrefixes recursivePrefixes
        rcases hnone with hnone | hnone <;> simp [hnone]
      split
      · rename_i hdirect
        rw [hparents]
        unfold candidatePrefixes
        split
        · rename_i hfile
          rw [hskipped (Or.inl hfile)]
        · rename_i hfile
          rw [if_pos (by simpa [hfile] using hdirect)]
      · rename_i hcommon
        obtain ⟨hrecursive, hfile⟩ : options.recursive = false ∧ options.itemType ≠ .file := by
          simpa using hcommon
        rw [(insertMatching_spec _ _).2, hparents, hskipped (Or.inr hrecursive)]
        unfold candidatePrefixes
        rw [if_neg hfile, if_neg (by simp [hrecursive])]
        simp

theorem nodup_keys_contents {delimiter : Bool} {pre : String} {bucket : List S3Object}
    (hbucket : (bucket.map S3Object.key).Nodup) :
    ((contents (s3Entries delimiter pre bucket)).map S3Object.key).Nodup := by
  have hentries : ∀ objects : List S3Object,
      (contents (objects.map (entryOf delimiter pre))).Sublist objects := by
    intro objects
    induction objects with
    | nil => exact List.Sublist.refl _
    | cons object rest ih =>
      have hcons : contents ((object :: rest).map (entryOf delimiter pre)) =
          contents [entryOf delimiter pre object] ++ contents (rest.map (entryOf delimiter pre)) := by
        rw [List.map_cons, ← List.singleton_append, contents_append]
      rw [hcons]
      unfold entryOf
      split
      · exact ih.cons object
      · exact ih.cons_cons object
  have hlisted := hentries (bucket.filter fun object => pre.toList.isPrefixOf object.key.toList)
  have hsub : (contents (s3Entries delimiter pre bucket)).Sublist bucket :=
    ((List.dedup_sublist _).filterMap _).trans (hlisted.trans List.filter_sublist)
  exact (hsub.map _).nodup hbucket

/-- Where the folders of every page fit, following the tokens gives what the snapshot holds. -/
theorem filtered_listing_complete (options : ScanOptions) (bucket : List S3Object)
    (hbucket : (bucket.map S3Object.key).Pairwise (· < ·)) (s : Following)
    (h : Reached (step options) (fun s label => fits options s label = true) (first options bucket) s)
    (hfinished : s.phase = .finished) (pages : List (List Entry))
    (hpages : pages.flatten = s3Entries (!options.recursive) options.pre bucket) :
    s.objects = (scanSnapshot options pages).sortedObjects ∧ (s.objects.map BrowserObject.key).Nodup ∧
      ∀ name, name ∈ s.prefixes ↔ name ∈ (scanSnapshot options pages).sortedPrefixes := by
  have hinv : Inv options (s3Entries (!options.recursive) options.pre bucket) s :=
    h.invariant (inv_first options bucket) fun _ _ _ hinv hok hs => step_inv hinv hok hs
  obtain ⟨⟨consumed, hrest, hobjects, hprefixes⟩, -, -, hend⟩ := hinv
  have hkeys := @nodup_keys_contents (!options.recursive) options.pre bucket (hbucket.imp ne_of_lt)
  rw [hend hfinished, List.append_nil] at hrest
  rw [hfinished] at hobjects hprefixes
  simp only [Phase.listing, List.append_nil] at hobjects hprefixes
  subst hrest
  have hsnapshot := @scanSnapshot_spec options pages [] {} (by simpa [hpages] using hkeys) rfl
    (by intro name; unfold candidatePrefixes; split <;> simp [parentPrefixes, contents, commonPrefixes])
  rw [List.nil_append, hpages] at hsnapshot
  refine ⟨hobjects.trans hsnapshot.1.symm, ?_, fun name => (hprefixes name).trans (hsnapshot.2 name).symm⟩
  rw [hobjects]
  unfold storedObjects
  rw [List.map_map]
  exact (List.filter_sublist.map S3Object.key).nodup hkeys

/-- Everything matches, in a recursive listing of at most `maxKeys` items a response. -/
def recursiveOptions (maxKeys : ℕ) (h : 0 < maxKeys) : ScanOptions where
  pre := ""
  maxKeys := maxKeys
  itemType := .all
  storageClass := none
  recursive := true
  matchesQuery := fun _ => true
  cleanEtag := id
  maxKeys_pos := h

def plainObject (key : String) : S3Object := ⟨key, 1, none, none, none, none⟩

theorem filtered_listing_complete_folder : ∃ s,
    Reached (step (recursiveOptions 2 (by decide)))
        (fun s label => fits (recursiveOptions 2 (by decide)) s label = true)
        (first (recursiveOptions 2 (by decide)) [plainObject "a/b"]) s ∧
      s.objects = (scanSnapshot (recursiveOptions 2 (by decide))
        [[.object (plainObject "a/b")]]).sortedObjects ∧ s.prefixes = ["a/"] := by
  have hrun : (afterOk (step (recursiveOptions 2 (by decide))) (fits (recursiveOptions 2 (by decide)))
      (first (recursiveOptions 2 (by decide)) [plainObject "a/b"]) [.page 1, .follow]).any (fun s =>
        s.phase = .finished ∧ s.prefixes = ["a/"]) = true := by
    decide +kernel
  obtain ⟨s, hs, hfinal⟩ := (Option.any_eq_true _ _).mp hrun
  obtain ⟨hfinished, hprefixes⟩ := of_decide_eq_true hfinal
  have hreach := Reached.init.afterOk hs
  exact ⟨s, hreach, (filtered_listing_complete (recursiveOptions 2 (by decide)) [plainObject "a/b"]
    (by simp) s hreach hfinished [[.object (plainObject "a/b")]] (by decide +kernel)).1, hprefixes⟩

/-- One object fills a response of one item, and its folder is never returned. -/
theorem filtered_listing_not_complete :
    ¬∀ (options : ScanOptions) (bucket : List S3Object),
      (bucket.map S3Object.key).Pairwise (· < ·) → ∀ s, Reachable options bucket s →
      s.phase = .finished → ∀ pages : List (List Entry),
      pages.flatten = s3Entries (!options.recursive) options.pre bucket →
      s.objects = (scanSnapshot options pages).sortedObjects ∧
        (s.objects.map BrowserObject.key).Nodup ∧
        ∀ name, name ∈ s.prefixes ↔ name ∈ (scanSnapshot options pages).sortedPrefixes := by
  intro h
  have hrun : (after (step (recursiveOptions 1 (by decide)))
      (first (recursiveOptions 1 (by decide)) [plainObject "a/b"]) [.page 1, .follow]).any (fun s =>
        s.phase = .finished ∧ s.prefixes = []) = true := by
    decide +kernel
  obtain ⟨s, hs, hfinal⟩ := (Option.any_eq_true _ _).mp hrun
  obtain ⟨hfinished, hprefixes⟩ := of_decide_eq_true hfinal
  have hsame := (h (recursiveOptions 1 (by decide)) [plainObject "a/b"] (by simp) s
    (Reached.init.after hs) hfinished [[.object (plainObject "a/b")]] (by decide +kernel)).2.2 "a/"
  rw [hprefixes] at hsame
  have hstored : "a/" ∈ (scanSnapshot (recursiveOptions 1 (by decide))
      [[.object (plainObject "a/b")]]).sortedPrefixes := by
    decide +kernel
  exact absurd (hsame.mpr hstored) List.not_mem_nil

end Filtered
end BucketReef

import Mathlib.Data.List.Dedup
import Mathlib.Order.Basic

/-!
# Deleting a batch of entries

`delete_objects_count` and what it rests on: the failures that a `DeleteObjects` response reports for the
requested entries, the single deletions that take over when the response cannot be parsed, and the error
that carries what was deleted before it.
-/

namespace BucketReef
namespace Purge

/-! ## Responses -/

/-- A requested entry. -/
structure Item where
  key : String
  versionId : Option String
  deriving DecidableEq, Repr

/-- A parsed value, as far as the code looks into it. -/
inductive Value
  | none
  | string (value : String)
  /-- Any other value, with its text; a value that counts as false has none. -/
  | other (text : String)
  deriving DecidableEq, Repr

/-- An element of `Errors`. -/
inductive ErrorEntry
  | dict (key versionId code message : Value)
  | other
  deriving DecidableEq, Repr

/-- The response of `DeleteObjects`. -/
inductive Response
  | notDict
  | withoutErrors
  | errorsNotList
  | errors (entries : List ErrorEntry)
  deriving DecidableEq, Repr

structure ObjectDeletionFailure where
  key : String
  versionId : Option String
  message : String
  deriving DecidableEq, Repr

/-- How messages are made fit for a log: `sanitized_error_log_detail`. -/
abbrev Sanitize := String → String

/-- The versions requested for a key, as a set. -/
def requestedVersions (items : List Item) (key : String) : List (Option String) :=
  ((items.filter fun item => item.key = key).map Item.versionId).dedup

/-- `_delete_error_identity`; `none` where the response is invalid. -/
def deleteErrorIdentity (items : List Item) : ErrorEntry → Option Item
  | .dict (.string key) versionId _ _ =>
    let versions := requestedVersions items key
    if versions = [] then none
    else
      match versionId with
      | .none =>
        match versions with
        | [version] => some ⟨key, version⟩
        | _ => none
      | .string version => if some version ∈ versions then some ⟨key, some version⟩ else none
      | .other _ => none
  | _ => none

/-- `str(value or default)`. -/
def Value.text (value : Value) (default : String) : String :=
  match value with
  | .none => default
  | .string text | .other text => if text = "" then default else text

def deletionFailure (sanitize : Sanitize) (item : Item) : ErrorEntry → ObjectDeletionFailure
  | .dict _ _ code message =>
    let code := code.text "Error"
    let message := message.text ""
    ⟨item.key, item.versionId, sanitize (if message = "" then code else s!"{code}: {message}")⟩
  | .other => ⟨item.key, item.versionId, sanitize "Error"⟩

/-- The dictionary of failures; the first error of an entry counts. -/
def collectFailures (sanitize : Sanitize) (items : List Item) :
    List ErrorEntry → List (Item × ObjectDeletionFailure) →
      Option (List (Item × ObjectDeletionFailure))
  | [], failures => some failures
  | error :: rest, failures =>
    match deleteErrorIdentity items error with
    | none => none
    | some item =>
      if failures.any fun entry => entry.1 = item then collectFailures sanitize items rest failures
      else collectFailures sanitize items rest (failures ++ [(item, deletionFailure sanitize item error)])

/-- `parse_delete_objects_failures`; `none` where it raises for an invalid response. -/
def parseDeleteObjectsFailures (sanitize : Sanitize) (items : List Item) :
    Response → Option (List ObjectDeletionFailure)
  | .notDict | .errorsNotList => none
  | .withoutErrors => some []
  | .errors entries =>
    (collectFailures sanitize items entries []).map fun failures =>
      items.filterMap fun item => (failures.find? fun entry => entry.1 = item).map Prod.snd

/-! ## Deleting -/

/-- How a deletion of a batch ends when it does not return a count. -/
inductive BatchError
  /-- `DeleteObjectsError`. -/
  | deleteObjects (deletedCount : ℕ) (failures : List ObjectDeletionFailure)
  | raised (message : String)
  deriving DecidableEq, Repr

/-- What `delete_object` does for one entry. -/
inductive ItemAnswer
  | deleted
  /-- A `ClientError` with its code and its formatted message. -/
  | clientError (code message : String)
  /-- A `BotoCoreError` or a `ResponseParserError`. -/
  | transportError (message : String)
  /-- Any other exception. -/
  | raised (message : String)
  deriving DecidableEq, Repr

/-- What `delete_objects` does for a chunk. -/
inductive ChunkAnswer
  | response (response : Response)
  /-- A `ResponseParserError`. -/
  | unparsable
  | raised (message : String)
  deriving DecidableEq, Repr

/-- The answers of S3 to a chunk and, one by one, to its entries. -/
structure Answers where
  chunk : ChunkAnswer
  item : ℕ → ItemAnswer

/-- The entry is gone. -/
def ItemAnswer.accepts : ItemAnswer → Bool
  | .deleted => true
  | .clientError code _ => code ∈ ["nosuchkey", "nosuchversion", "notfound"]
  | _ => false

/-- The failure of a single deletion, which names no empty version. -/
def Item.failure (item : Item) (message : String) : ObjectDeletionFailure :=
  ⟨item.key, item.versionId.filter (· ≠ ""), message⟩

/-- The failures of the loop of `_delete_objects_individually` from the `n`-th entry on; an error stands
for an exception it does not catch. -/
def individualFailures (answer : ℕ → ItemAnswer) : ℕ → List Item →
    Except String (List ObjectDeletionFailure)
  | _, [] => .ok []
  | n, item :: rest =>
    match answer n with
    | .deleted => individualFailures answer (n + 1) rest
    | .clientError code message =>
      if code ∈ ["nosuchkey", "nosuchversion", "notfound"] then individualFailures answer (n + 1) rest
      else (individualFailures answer (n + 1) rest).map (item.failure message :: ·)
    | .transportError message =>
      (individualFailures answer (n + 1) rest).map (item.failure message :: ·)
    | .raised message => .error message

def deleteObjectsIndividually (answer : ℕ → ItemAnswer) (items : List Item) : Except BatchError ℕ :=
  match individualFailures answer 0 items with
  | .error message => .error (.raised message)
  | .ok [] => .ok items.length
  | .ok failures => .error (.deleteObjects (items.length - failures.length) failures)

def deleteObjectsChunk (sanitize : Sanitize) (answers : Answers) (items : List Item) :
    Except BatchError ℕ :=
  match answers.chunk with
  | .unparsable => deleteObjectsIndividually answers.item items
  | .raised message => .error (.raised message)
  | .response response =>
    match parseDeleteObjectsFailures sanitize items response with
    | none => .error (.raised "Invalid DeleteObjects response")
    | some [] => .ok items.length
    | some failures => .error (.deleteObjects (items.length - failures.length) failures)

def chunkLimit : ℕ := 1000

/-- A chunk after `deleted` entries of earlier ones. -/
def addChunk (deleted : ℕ) : Except BatchError ℕ → Except BatchError ℕ
  | .ok count => .ok (deleted + count)
  | .error (.deleteObjects count failures) => .error (.deleteObjects (count + deleted) failures)
  | .error (.raised message) => .error (.raised message)

/-- The loop of `delete_objects_count`: the collected chunk, the number of chunks sent and the entries
deleted so far. -/
def countLoop (sanitize : Sanitize) (answers : ℕ → Answers) :
    List Item → List Item → ℕ → ℕ → Except BatchError ℕ
  | [], chunk, sent, deleted =>
    if chunk = [] then .ok deleted
    else addChunk deleted (deleteObjectsChunk sanitize (answers sent) chunk)
  | item :: rest, chunk, sent, deleted =>
    if (chunk ++ [item]).length = chunkLimit then
      match addChunk deleted (deleteObjectsChunk sanitize (answers sent) (chunk ++ [item])) with
      | .ok deleted => countLoop sanitize answers rest [] (sent + 1) deleted
      | .error error => .error error
    else countLoop sanitize answers rest (chunk ++ [item]) sent deleted

def deleteObjectsCount (sanitize : Sanitize) (answers : ℕ → Answers) (items : List Item) :
    Except BatchError ℕ :=
  countLoop sanitize answers items [] 0 0

/-! ## Accounting -/

/-- The response of S3 reports no error for the entry, under its key and its version or its key alone. -/
def Response.accepts (item : Item) : Response → Prop
  | .notDict | .errorsNotList => False
  | .withoutErrors => True
  | .errors entries => ∀ key versionId code message, .dict key versionId code message ∈ entries →
      key = .string item.key → versionId ≠ .none ∧ ∀ version, versionId = .string version →
        item.versionId ≠ some version

/-- S3 acknowledged the deletion of the `n`-th entry of a chunk. -/
def Answers.accepts (individual : Bool) (answers : Answers) (n : ℕ) (item : Item) : Prop :=
  if individual then (answers.item n).accepts = true
  else
    match answers.chunk with
    | .response response => response.accepts item
    | .unparsable => (answers.item n).accepts = true
    | .raised _ => False

/-- Every entry is either counted as deleted or reported as a failure. -/
def Accounted (items : List Item) : Except BatchError ℕ → Prop
  | .ok count => count = items.length
  | .error (.deleteObjects count failures) => failures ≠ [] ∧ count + failures.length = items.length
  | .error (.raised _) => True

theorem individualFailures_length {answer : ℕ → ItemAnswer} {n : ℕ} {items : List Item}
    {failures : List ObjectDeletionFailure} (h : individualFailures answer n items = .ok failures) :
    failures.length ≤ items.length := by
  induction items generalizing n failures with
  | nil =>
    cases h
    exact Nat.le_refl 0
  | cons item rest ih =>
    have hskip : individualFailures answer (n + 1) rest = .ok failures →
        failures.length ≤ (item :: rest).length := by
      intro hrest
      exact Nat.le_succ_of_le (ih hrest)
    have hfail : ∀ message, (individualFailures answer (n + 1) rest).map
        (item.failure message :: ·) = .ok failures →
        failures.length ≤ (item :: rest).length := by
      intro message hrest
      cases hlater : individualFailures answer (n + 1) rest with
      | error error =>
        rw [hlater] at hrest
        cases hrest
      | ok later =>
        rw [hlater] at hrest
        cases hrest
        exact Nat.succ_le_succ (ih hlater)
    rw [individualFailures] at h
    split at h
    · exact hskip h
    · split at h
      · exact hskip h
      · exact hfail _ h
    · exact hfail _ h
    · cases h

theorem accepts_of_individualFailures {answer : ℕ → ItemAnswer} {n : ℕ} {items : List Item}
    (h : individualFailures answer n items = .ok []) :
    ∀ i item, items[i]? = some item → (answer (n + i)).accepts = true := by
  induction items generalizing n with
  | nil =>
    intro i item hitem
    simp at hitem
  | cons head rest ih =>
    have hfail : ∀ message, (individualFailures answer (n + 1) rest).map
        (head.failure message :: ·) ≠ .ok [] := by
      intro message hrest
      cases hlater : individualFailures answer (n + 1) rest with
      | error error =>
        rw [hlater] at hrest
        cases hrest
      | ok later =>
        rw [hlater] at hrest
        cases hrest
    have hhead : (answer n).accepts = true ∧ individualFailures answer (n + 1) rest = .ok [] := by
      rw [individualFailures] at h
      split at h
      · rename_i hanswer
        exact ⟨by rw [hanswer]; rfl, h⟩
      · rename_i code message hanswer
        split at h
        · rename_i hcode
          exact ⟨by rw [hanswer]; exact decide_eq_true hcode, h⟩
        · exact absurd h (hfail _)
      · exact absurd h (hfail _)
      · cases h
    intro i item hitem
    cases i with
    | zero => exact hhead.1
    | succ i =>
      rw [List.getElem?_cons_succ] at hitem
      have hlater := ih hhead.2 i item hitem
      rwa [Nat.add_assoc, Nat.add_comm 1] at hlater

theorem accepts_individually {answer : ℕ → ItemAnswer} {items : List Item} {count : ℕ}
    (h : deleteObjectsIndividually answer items = .ok count) :
    ∀ i item, items[i]? = some item → (answer i).accepts = true := by
  unfold deleteObjectsIndividually at h
  split at h
  · cases h
  · rename_i hnone
    intro i item hitem
    have haccepts := accepts_of_individualFailures hnone i item hitem
    rwa [Nat.zero_add] at haccepts
  · cases h

theorem accounted_individually (answer : ℕ → ItemAnswer) (items : List Item) :
    Accounted items (deleteObjectsIndividually answer items) := by
  unfold deleteObjectsIndividually
  split
  · trivial
  · rfl
  · rename_i failures hne hfailures
    have hle := individualFailures_length hfailures
    refine ⟨?_, Nat.sub_add_cancel hle⟩
    rintro rfl
    exact hne rfl

theorem accounted_chunk (sanitize : Sanitize) (answers : Answers) (items : List Item) :
    Accounted items (deleteObjectsChunk sanitize answers items) := by
  unfold deleteObjectsChunk
  split
  · exact accounted_individually answers.item items
  · trivial
  · split
    · trivial
    · rfl
    · rename_i response failures hne hfailures
      have hle : failures.length ≤ items.length := by
        unfold parseDeleteObjectsFailures at hfailures
        split at hfailures
        · cases hfailures
        · cases hfailures
        · cases hfailures
          exact Nat.zero_le _
        · obtain ⟨known, -, rfl⟩ := Option.map_eq_some_iff.mp hfailures
          exact List.length_filterMap_le _ _
      refine ⟨?_, Nat.sub_add_cancel hle⟩
      rintro rfl
      exact hne rfl

/-! ## Accepted entries -/

/-- Every reported error names a requested entry that the dictionary holds. -/
theorem collectFailures_covers {sanitize : Sanitize} {items : List Item} {entries : List ErrorEntry}
    {known failures : List (Item × ObjectDeletionFailure)}
    (h : collectFailures sanitize items entries known = some failures) :
    (∀ entry ∈ known, entry ∈ failures) ∧
      ∀ error ∈ entries, ∃ item, deleteErrorIdentity items error = some item ∧
        ∃ entry ∈ failures, entry.1 = item := by
  induction entries generalizing known with
  | nil =>
    cases h
    exact ⟨fun _ hentry => hentry, fun _ herror => by cases herror⟩
  | cons error rest ih =>
    rw [collectFailures] at h
    split at h
    · cases h
    · rename_i item hitem
      split at h
      · rename_i hknown
        obtain ⟨hkept, hrest⟩ := ih h
        refine ⟨hkept, ?_⟩
        intro reported hreported
        rcases List.mem_cons.mp hreported with rfl | hreported
        · obtain ⟨entry, hentry, heq⟩ := List.any_eq_true.mp hknown
          exact ⟨item, hitem, entry, hkept entry hentry, of_decide_eq_true heq⟩
        · exact hrest reported hreported
      · obtain ⟨hkept, hrest⟩ := ih h
        refine ⟨fun entry hentry => hkept entry (List.mem_append_left _ hentry), ?_⟩
        intro reported hreported
        rcases List.mem_cons.mp hreported with rfl | hreported
        · exact ⟨item, hitem, _, hkept _ (List.mem_append_right _ (List.mem_singleton.mpr rfl)), rfl⟩
        · exact hrest reported hreported

theorem mem_requestedVersions {items : List Item} {item : Item} (h : item ∈ items) :
    item.versionId ∈ requestedVersions items item.key := by
  unfold requestedVersions
  rw [List.mem_dedup]
  exact List.mem_map_of_mem (List.mem_filter.mpr ⟨h, decide_eq_true rfl⟩)

/-- The identity of an error that names an entry is that entry. -/
theorem identity_of_names {items : List Item} {item named : Item} (hin : item ∈ items)
    {versionId code message : Value}
    (h : deleteErrorIdentity items (.dict (.string item.key) versionId code message) = some named)
    (hversion : versionId = .none ∨ ∃ version, versionId = .string version ∧
      item.versionId = some version) : named = item := by
  have hmem := mem_requestedVersions hin
  unfold deleteErrorIdentity at h
  dsimp only at h
  rw [if_neg (List.ne_nil_of_mem hmem)] at h
  rcases hversion with rfl | ⟨version, rfl, hitem⟩
  · dsimp only at h
    split at h
    · rename_i only honly
      rw [honly, List.mem_singleton] at hmem
      cases h
      rw [← hmem]
    · cases h
  · dsimp only at h
    split at h
    · cases h
      rw [← hitem]
    · cases h

theorem accepts_of_no_failures {sanitize : Sanitize} {items : List Item} {response : Response}
    (h : parseDeleteObjectsFailures sanitize items response = some []) :
    ∀ item ∈ items, response.accepts item := by
  intro item hin
  unfold parseDeleteObjectsFailures at h
  split at h
  · cases h
  · cases h
  · trivial
  · rename_i entries
    obtain ⟨failures, hfailures, hnone⟩ := Option.map_eq_some_iff.mp h
    have hcovers := (collectFailures_covers hfailures).2
    -- an error that names the entry would be among the failures
    have hfree : ∀ entry ∈ failures, entry.1 ≠ item := by
      intro entry hentry heq
      have hfind := List.filterMap_eq_nil_iff.mp hnone item hin
      rw [Option.map_eq_none_iff, List.find?_eq_none] at hfind
      exact hfind entry hentry (decide_eq_true heq)
    intro key versionId code message herror hkey
    subst hkey
    obtain ⟨named, hnamed, entry, hentry, heq⟩ := hcovers _ herror
    constructor
    · rintro rfl
      rw [identity_of_names hin hnamed (Or.inl rfl)] at heq
      exact hfree entry hentry heq
    · rintro version rfl hitem
      rw [identity_of_names hin hnamed (Or.inr ⟨version, rfl, hitem⟩)] at heq
      exact hfree entry hentry heq

/-- A batch without an error was accepted entry by entry. -/
theorem accepts_of_ok {sanitize : Sanitize} {answers : Answers} {items : List Item} {count : ℕ}
    (h : deleteObjectsChunk sanitize answers items = .ok count) :
    ∀ i item, items[i]? = some item → answers.accepts false i item := by
  intro i item hitem
  unfold Answers.accepts
  rw [if_neg Bool.false_ne_true]
  unfold deleteObjectsChunk at h
  split at h
  · rename_i hchunk
    rw [hchunk]
    exact accepts_individually h i item hitem
  · cases h
  · rename_i response hchunk
    rw [hchunk]
    split at h
    · cases h
    · rename_i hnone
      exact accepts_of_no_failures hnone item (List.mem_of_getElem? hitem)
    · cases h

/-- Batches of the purge are single chunks. -/
theorem countLoop_short {sanitize : Sanitize} {answers : ℕ → Answers} {items chunk : List Item}
    (hne : chunk ++ items ≠ []) (hshort : chunk.length + items.length ≤ chunkLimit) :
    countLoop sanitize answers items chunk 0 0 =
      addChunk 0 (deleteObjectsChunk sanitize (answers 0) (chunk ++ items)) := by
  induction items generalizing chunk with
  | nil =>
    rw [List.append_nil] at hne ⊢
    rw [countLoop, if_neg hne]
  | cons item rest ih =>
    rw [List.length_cons] at hshort
    rw [countLoop]
    split
    · rename_i hfull
      rw [List.length_append, List.length_singleton] at hfull
      have hrest : rest = [] := by
        rw [← List.length_eq_zero_iff]
        omega
      subst hrest
      split
      · rename_i deleted hdeleted
        rw [countLoop, if_pos rfl, hdeleted]
      · rename_i error herror
        exact herror.symm
    · rw [ih (by simp) (by simp; omega), List.append_assoc, List.singleton_append]

theorem addChunk_zero (result : Except BatchError ℕ) : addChunk 0 result = result := by
  unfold addChunk
  split <;> simp

theorem deleteObjectsCount_short (sanitize : Sanitize) (answers : ℕ → Answers) {items : List Item}
    (hne : items ≠ []) (hshort : items.length ≤ chunkLimit) :
    deleteObjectsCount sanitize answers items = deleteObjectsChunk sanitize (answers 0) items := by
  unfold deleteObjectsCount
  rw [countLoop_short (by simpa using hne) (by simpa using hshort), addChunk_zero, List.nil_append]

end Purge
end BucketReef

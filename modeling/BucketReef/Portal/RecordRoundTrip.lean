import BucketReef.Portal.RecordParts

/-!
# Reading an access record back

A line in the standard layout is read back as the record it was written from when the first token that
names an operation is the operation and no bracket stands before the time, and, apostrophes outside
quotation marks, absent request ids and slashes at the ends of a key aside, only then.
-/

namespace BucketReef
namespace AccessRecords

open Texts Texts.ShellWords Scheduling

variable {Time : Type} (lib : Library Time)

/-! ## What an entry reports -/

/-- The fields of a record that an entry reports. -/
structure Reported (Time : Type) where
  bucketName : Text
  timestamp : Time
  operation : Text
  objectKey : Option Text
  requester : Option Text
  clientIp : Option Text
  requestId : Option Text
  statusCode : Option ℤ
  errorCode : Option Text
  bytesSent : Option ℤ
  objectSize : Option ℤ
  requestUri : Option Text
  userAgent : Option Text
  authType : Option Text

def Entry.reported (entry : Entry Time) : Reported Time where
  bucketName := entry.bucketName
  timestamp := entry.timestamp
  operation := entry.operation
  objectKey := entry.objectKey
  requester := entry.requester
  clientIp := entry.clientIp
  requestId := entry.requestId
  statusCode := entry.statusCode
  errorCode := entry.errorCode
  bytesSent := entry.bytesSent
  objectSize := entry.objectSize
  requestUri := entry.requestUri
  userAgent := entry.userAgent
  authType := entry.authType

namespace Record

variable (r : Record Time)

/-- The fields as the record has them, the object key decoded. -/
def reported : Reported Time where
  bucketName := r.bucket.text
  timestamp := r.time
  operation := r.operation.text
  objectKey := r.key.map fun key => Percent.unquote key.text
  requester := r.requester.map Word.text
  clientIp := r.clientIp.map Word.text
  requestId := r.requestId.map Word.text
  statusCode := r.status.map fun n => (n : ℤ)
  errorCode := r.error.map Word.text
  bytesSent := r.bytesSent.map fun n => (n : ℤ)
  objectSize := r.objectSize.map fun n => (n : ℤ)
  requestUri := r.requestUri.map Quote.text
  userAgent := r.userAgent.map Quote.text
  authType := r.authType.map Word.text

/-- The line of the record is parsed, and the entry reports the fields of the record. -/
def ReadsBack (logObjectKey : Text) (spaceByBucket : Text → Option StorageSpace) : Prop :=
  ∃ entry, parseStandardAccessLogLine lib (r.render lib) logObjectKey spaceByBucket = some entry ∧
    entry.reported = r.reported

/-! ## Where the operation is -/

/-- The first token that names an operation is the operation, and the request URI is the only token
that may look like a request. -/
structure Located : Prop where
  operation : isOperation lib r.operation.text = true
  clientIp : isOperation lib (shown r.clientIp) = false
  requester : isOperation lib (shown r.requester) = false
  requestId : isOperation lib (shown r.requestId) = false
  request : isHttpRequest lib (quoteText r.requestUri) = true ∨
    isHttpRequest lib (quoteText r.referrer) = false ∧
      isHttpRequest lib (quoteText r.userAgent) = false

/-- The tokens after the request URI. -/
def rest : List Text := r.tokens.drop 6

theorem tokens_eq : r.tokens =
    shown r.clientIp :: shown r.requester :: shown r.requestId :: r.operation.text :: shown r.key ::
      quoteText r.requestUri :: r.rest := rfl

/-- A request has a blank in it. -/
theorem not_isHttpRequest_of_solid {text : Text} (h : Solid text) : isHttpRequest lib text = false := by
  rw [Bool.eq_false_iff]
  intro hrequest
  obtain ⟨method, -, hmatch⟩ := List.any_eq_true.mp hrequest
  have hprefix : (method ++ " ").toList <+: text := by
    rw [← List.isPrefixOf_iff_prefix]
    exact (Bool.and_eq_true_iff.mp hmatch).1
  have hblank : ' ' ∈ text := hprefix.subset (by simp)
  exact absurd (h.2 ' ' hblank).1 (by decide)

theorem isHttpRequest_rest {n : ℕ} {token : Text} (h : r.rest[n]? = some token)
    (hrequest : isHttpRequest lib token = true) :
    token = quoteText r.referrer ∨ token = quoteText r.userAgent := by
  have hmem := List.mem_of_getElem? h
  have hsolid : ∀ text, Solid text → token ≠ text := by
    rintro text hsolid rfl
    rw [not_isHttpRequest_of_solid lib hsolid] at hrequest
    exact Bool.false_ne_true hrequest
  have hmore : token ∉ r.more.map shown := by
    intro hin
    obtain ⟨word, -, rfl⟩ := List.mem_map.mp hin
    exact hsolid _ (shown_solid word) rfl
  simp only [rest, tokens, List.cons_append, List.drop_succ_cons, List.drop_zero, List.mem_cons,
    List.nil_append, hmore, hsolid _ (shown_solid _), hsolid _ (number_solid _), false_or,
    or_false] at hmem
  exact hmem

theorem locate_of_located (h : r.Located lib) :
    locateTokens lib r.tokens = some ⟨r.tokens, 3, 5⟩ := by
  have hop : r.tokens.findIdx? (isOperation lib) = some 3 := by
    rw [tokens_eq]
    simp [List.findIdx?_cons, h.clientIp, h.requester, h.requestId, h.operation]
  have hlength : ¬(3 < 2 ∨ r.tokens.length ≤ 3 + 2) := by
    rw [tokens_eq]
    simp only [List.length_cons]
    omega
  have hkey := not_isHttpRequest_of_solid lib (shown_solid r.key)
  have hdrop : r.tokens.drop (3 + 1) = shown r.key :: quoteText r.requestUri :: r.rest := rfl
  unfold locateTokens
  rw [hop, Option.bind_some, if_neg hlength, hdrop, List.findIdx?_cons, hkey, List.findIdx?_cons]
  by_cases huri : isHttpRequest lib (quoteText r.requestUri) = true
  · simp [huri]
  · have hnone : r.rest.findIdx? (isHttpRequest lib) = none := by
      rw [List.findIdx?_eq_none_iff]
      intro token htoken
      obtain ⟨n, hn⟩ := List.getElem?_of_mem htoken
      obtain ⟨hreferrer, hagent⟩ := h.request.resolve_left huri
      by_contra hrequest
      rw [Bool.not_eq_false] at hrequest
      rcases r.isHttpRequest_rest lib hn hrequest with rfl | rfl
      · exact Bool.false_ne_true (hreferrer.symm.trans hrequest)
      · exact Bool.false_ne_true (hagent.symm.trans hrequest)
    simp [huri, hnone]

theorem isOperation_dash : isOperation lib dash = false := by
  have hupper : upper lib dash = dash := by
    show [('-' : Char)].flatMap lib.upperChar = _
    rw [List.flatMap_singleton, lib.upper_ascii '-' (by decide)]
    rfl
  unfold isOperation
  rw [hupper]
  decide

/-- The operation, the request id and the request URI are read back only from their own tokens. -/
theorem located_of_locate {found : StandardAccessLogTokens}
    (hfound : locateTokens lib r.tokens = some found)
    (hoperation : found.operation = r.operation.text)
    (hid : AccessRecords.requestId found = r.requestId.map Word.text)
    (huri : dashToNone found.values[found.requestUriIndex]? = r.requestUri.map Quote.text) :
    r.Located lib := by
  obtain ⟨j, hj, hplaced⟩ := Option.bind_eq_some_iff.mp hfound
  obtain ⟨hjlength, hjop, hbefore⟩ := List.findIdx?_eq_some_iff_getElem.mp hj
  have hge : 2 ≤ j := by
    by_contra hlt
    rw [if_pos (Or.inl (by omega))] at hplaced
    exact Option.some_ne_none _ hplaced.symm
  have hbounds : ¬(j < 2 ∨ r.tokens.length ≤ j + 2) := fun hout => by
    rw [if_pos hout] at hplaced
    exact Option.some_ne_none _ hplaced.symm
  rw [if_neg hbounds] at hplaced
  obtain rfl := Option.some.inj hplaced
  have hname : isOperation lib r.operation.text = true := by
    rw [← hoperation]
    show isOperation lib (r.tokens.getD j []) = true
    rw [List.getD_eq_getElem?_getD, List.getElem?_eq_getElem hjlength]
    exact hjop
  have hle : j ≤ 3 := by
    by_contra hlt
    exact hbefore 3 (by omega) hname
  have hthree : j = 3 := by
    by_contra hne
    obtain rfl : j = 2 := by omega
    -- nothing stands between the requester and the operation
    have hnone : r.requestId = none := by
      have hempty : (none : Option Text) = r.requestId.map Word.text := hid
      match hrid : r.requestId with
      | none => rfl
      | some word => rw [hrid] at hempty; exact absurd hempty (Option.some_ne_none _).symm
    have hdash : shown r.requestId = dash := by rw [hnone]; rfl
    have hjtoken : isOperation lib (shown r.requestId) = true := hjop
    rw [hdash, isOperation_dash] at hjtoken
    exact Bool.false_ne_true hjtoken
  subst hthree
  refine ⟨hname, Bool.eq_false_iff.mpr (hbefore 0 (by omega)),
    Bool.eq_false_iff.mpr (hbefore 1 (by omega)), Bool.eq_false_iff.mpr (hbefore 2 (by omega)), ?_⟩
  match hrequest : (r.tokens.drop (3 + 1)).findIdx? (isHttpRequest lib) with
  | none =>
    rw [List.findIdx?_eq_none_iff] at hrequest
    exact .inr ⟨hrequest _ (by simp [tokens]), hrequest _ (by simp [tokens])⟩
  | some n =>
    obtain ⟨hn, hmatch, -⟩ := List.findIdx?_eq_some_iff_getElem.mp hrequest
    rw [List.getElem_drop] at hmatch
    have hindex : 3 + 1 + n < r.tokens.length := by
      rw [List.length_drop] at hn
      omega
    simp only [hrequest] at huri
    rw [List.getElem?_eq_getElem hindex] at huri
    have hne : r.tokens[3 + 1 + n] ≠ dash := by
      intro hdash
      rw [hdash, not_isHttpRequest_of_solid lib dash_solid] at hmatch
      exact Bool.false_ne_true hmatch
    rw [dashToNone_of_ne hne] at huri
    obtain ⟨quote, hquote, htext⟩ := Option.map_eq_some_iff.mp huri.symm
    refine .inl ?_
    rw [hquote]
    show isHttpRequest lib quote.text = true
    rw [htext]
    exact hmatch

/-! ## What is read -/

/-- A number that is not too long to be read. -/
def legible (n : Option ℕ) : Option ℤ :=
  n.bind fun n => if (Nat.toDigits 10 n).length ≤ maxDigits then some (n : ℤ) else none

/-- What the entry reports when the operation is where it should be. -/
def seen : Reported Time :=
  { r.reported with
    objectKey := r.key.map fun key => Percent.unquote (trim Percent.isSlash key.text)
    requestId := some (shown r.requestId)
    statusCode := legible r.status
    bytesSent := legible r.bytesSent
    objectSize := legible r.objectSize }

theorem objectKey_tokens : standardAccessLogObjectKey ⟨r.tokens, 3, 5⟩ =
    r.key.map fun key => Percent.unquote (trim Percent.isSlash key.text) := by
  have hslice : (r.tokens.take 5).drop (3 + 1) = [shown r.key] := rfl
  unfold standardAccessLogObjectKey
  dsimp only
  rw [hslice, List.map_singleton, dashToNone_shown]
  match hkey : r.key with
  | none => rfl
  | some key =>
    simp [key.solid.1]

theorem requestId_tokens :
    AccessRecords.requestId ⟨r.tokens, 3, 5⟩ = some (shown r.requestId) := by
  have hsolid := shown_solid r.requestId
  have hslice : (r.tokens.take 3).drop 2 = [shown r.requestId] := rfl
  have hjoin : strip (List.intercalate [' '] [shown r.requestId]) = shown r.requestId := by
    rw [List.intercalate_singleton, strip_solid hsolid]
  unfold AccessRecords.requestId
  dsimp only
  rw [hslice, hjoin, if_neg hsolid.1]

theorem reported_entryOf (line logObjectKey : Text) (space : StorageSpace) :
    (entryOf lib line logObjectKey r.bucket.text space r.time ⟨r.tokens, 3, 5⟩).reported = r.seen := by
  have hstatus : safeInt lib (some (number r.status)) = legible r.status := safeInt_number lib _
  have hbytes : safeInt lib (some (number r.bytesSent)) = legible r.bytesSent := safeInt_number lib _
  have hsize : safeInt lib (some (number r.objectSize)) = legible r.objectSize := safeInt_number lib _
  have huri := dashToNone_quoteText r.requestUri
  have hagent := dashToNone_quoteText r.userAgent
  have hkey := r.objectKey_tokens
  have hid := r.requestId_tokens
  unfold Entry.reported entryOf seen reported
  dsimp only
  rw [hkey, hid, ← hstatus, ← hbytes, ← hsize, ← huri, ← hagent, ← dashToNone_shown r.requester,
    ← dashToNone_shown r.clientIp, ← dashToNone_shown r.error, ← dashToNone_shown r.authType]
  rfl

theorem legible_eq_iff (n : Option ℕ) :
    legible n = n.map (fun n => (n : ℤ)) ↔ ∀ m, n = some m → (Nat.toDigits 10 m).length ≤ maxDigits := by
  match n with
  | none => simp [legible]
  | some n =>
    unfold legible
    by_cases h : (Nat.toDigits 10 n).length ≤ maxDigits
    · simp [h]
    · simp [h]

/-- The parser keeps the dash of an absent request id, and trims an object key of its slashes. -/
structure Untouched : Prop where
  requestId : r.requestId ≠ none
  key : ∀ key, r.key = some key → trim Percent.isSlash key.text = key.text

/-- No number is too long to be read. -/
structure Short : Prop where
  status : ∀ n, r.status = some n → (Nat.toDigits 10 n).length ≤ maxDigits
  bytesSent : ∀ n, r.bytesSent = some n → (Nat.toDigits 10 n).length ≤ maxDigits
  objectSize : ∀ n, r.objectSize = some n → (Nat.toDigits 10 n).length ≤ maxDigits

theorem shown_eq_iff (word : Option Word) : some (shown word) = word.map Word.text ↔ word ≠ none := by
  match word with
  | none => simp
  | some word => simp [shown]

theorem key_eq_iff (key : Option Word) :
    (key.map fun key => Percent.unquote (trim Percent.isSlash key.text)) =
        key.map (fun key => Percent.unquote key.text) ↔
      ∀ word, key = some word → trim Percent.isSlash word.text = word.text := by
  match key with
  | none => simp
  | some key =>
    rw [Option.map_some, Option.map_some, Option.some.injEq, Percent.unquote_trim_eq_iff]
    simp

theorem seen_eq_reported_iff : r.seen = r.reported ↔ r.Untouched ∧ r.Short := by
  constructor
  · intro h
    exact ⟨⟨(shown_eq_iff _).mp (congrArg Reported.requestId h),
        (key_eq_iff _).mp (congrArg Reported.objectKey h)⟩,
      ⟨(legible_eq_iff _).mp (congrArg Reported.statusCode h),
        (legible_eq_iff _).mp (congrArg Reported.bytesSent h),
        (legible_eq_iff _).mp (congrArg Reported.objectSize h)⟩⟩
  · rintro ⟨huntouched, hshort⟩
    have hid := (shown_eq_iff _).mpr huntouched.requestId
    have hkey := (key_eq_iff _).mpr huntouched.key
    have hstatus := (legible_eq_iff _).mpr hshort.status
    have hbytes := (legible_eq_iff _).mpr hshort.bytesSent
    have hsize := (legible_eq_iff _).mpr hshort.objectSize
    unfold seen reported
    dsimp only
    rw [hid, hkey, hstatus, hbytes, hsize]

/-! ## The round trip -/

/-- No bracket stands before the time, the operation is where the parser finds it, and no number is too
long. -/
structure Conforms : Prop where
  bracketless : '[' ∉ r.head ∧ ']' ∉ r.head
  located : r.Located lib
  short : r.Short

section RoundTrip

variable {lib r} {logObjectKey : Text} {spaceByBucket : Text → Option StorageSpace}

theorem Conforms.readsBack (h : r.Conforms lib) (hcalm : r.Calm) (huntouched : r.Untouched)
    (hknown : spaceByBucket r.bucket.text ≠ none) : r.ReadsBack lib logObjectKey spaceByBucket := by
  obtain ⟨space, hspace⟩ := Option.ne_none_iff_exists'.mp hknown
  refine ⟨entryOf lib (r.render lib) logObjectKey r.bucket.text space r.time ⟨r.tokens, 3, 5⟩, ?_, ?_⟩
  · unfold parseStandardAccessLogLine
    rw [r.bucket_render lib h.bracketless.1, r.timestamp_render lib h.bracketless.1,
      r.tokens_render lib h.bracketless.2 hcalm, r.locate_of_located lib h.located]
    simp [hspace]
  · rw [reported_entryOf, r.seen_eq_reported_iff]
    exact ⟨huntouched, h.short⟩

/-- A bracket before the time hides the bucket. -/
theorem bucket_of_bracket (h : '[' ∈ r.head) :
    standardAccessLogBucket (r.render lib) ≠ some r.bucket.text := by
  by_cases howner : '[' ∈ shown r.owner
  · obtain ⟨a, b, heq, ha⟩ := List.eq_append_cons_of_mem howner
    have hspace : ∀ c ∈ a, isSpace c = false := fun c hc =>
      ((shown_solid r.owner).2 c (heq ▸ List.mem_append_left _ hc)).1
    have hrender : ∃ rest, r.render lib = a ++ '[' :: rest :=
      ⟨b ++ ' ' :: (r.bucket.text ++ ' ' :: '[' :: (lib.strftime r.time ++ ']' :: ' ' :: line r.fields)),
        by simp [render, head, heq]⟩
    obtain ⟨rest, hrender⟩ := hrender
    have hstrip : strip a = a := trim_eq_self (fun c hc => hspace c (List.mem_of_mem_head? hc))
      fun c hc => hspace c (List.mem_of_getLast? hc)
    unfold standardAccessLogBucket
    rw [hrender, find_append_cons ha, Option.bind_some, List.take_left, hstrip,
      words_of_no_space hspace]
    split <;> simp
  · have hbucket : '[' ∈ r.bucket.text := by
      unfold head at h
      rw [List.mem_append, List.mem_cons] at h
      exact (h.resolve_left howner).resolve_left (by decide)
    obtain ⟨a, b, heq, ha⟩ := List.eq_append_cons_of_mem hbucket
    have hspace : ∀ c ∈ a, isSpace c = false := fun c hc =>
      (r.bucket.solid.2 c (heq ▸ List.mem_append_left _ hc)).1
    have hfree : '[' ∉ shown r.owner ++ ' ' :: a := by
      rw [List.mem_append, List.mem_cons, not_or, not_or]
      exact ⟨howner, by decide, ha⟩
    have hrender : ∃ rest, r.render lib = (shown r.owner ++ ' ' :: a) ++ '[' :: rest :=
      ⟨b ++ ' ' :: '[' :: (lib.strftime r.time ++ ']' :: ' ' :: line r.fields),
        by simp [render, head, heq]⟩
    obtain ⟨rest, hrender⟩ := hrender
    unfold standardAccessLogBucket
    rw [hrender, find_append_cons hfree, Option.bind_some, List.take_left,
      words_strip_cons (shown_solid r.owner) hspace]
    by_cases hnil : a = []
    · simp [hnil]
    · rw [if_neg hnil, heq]
      intro hsame
      have hlength := congrArg List.length (Option.some.inj hsame)
      simp only [List.length_append, List.length_cons] at hlength
      omega

theorem bracketless_of_readsBack (h : r.ReadsBack lib logObjectKey spaceByBucket) : '[' ∉ r.head := by
  intro hbracket
  obtain ⟨entry, hparse, hreported⟩ := h
  unfold parseStandardAccessLogLine at hparse
  simp only [Option.bind_eq_bind] at hparse
  obtain ⟨bucketName, hbucket, hparse⟩ := Option.bind_eq_some_iff.mp hparse
  obtain ⟨space, -, hparse⟩ := Option.bind_eq_some_iff.mp hparse
  obtain ⟨timestamp, -, hparse⟩ := Option.bind_eq_some_iff.mp hparse
  obtain ⟨found, -, hparse⟩ := Option.bind_eq_some_iff.mp hparse
  obtain rfl := Option.some.inj hparse
  have hname : bucketName = r.bucket.text := congrArg Reported.bucketName hreported
  rw [hname] at hbucket
  exact bucket_of_bracket hbracket hbucket

theorem conforms_of_readsBack (hcalm : r.Calm) (hclosed : ']' ∉ r.head)
    (h : r.ReadsBack lib logObjectKey spaceByBucket) : r.Conforms lib ∧ r.Untouched := by
  have hopen := bracketless_of_readsBack h
  obtain ⟨entry, hparse, hreported⟩ := h
  unfold parseStandardAccessLogLine at hparse
  rw [r.bucket_render lib hopen, r.timestamp_render lib hopen,
    r.tokens_render lib hclosed hcalm] at hparse
  simp only [Option.bind_eq_bind, Option.bind_some] at hparse
  obtain ⟨space, hspace, hparse⟩ := Option.bind_eq_some_iff.mp hparse
  obtain ⟨found, hfound, hparse⟩ := Option.bind_eq_some_iff.mp hparse
  obtain rfl := Option.some.inj hparse
  have hlocated := r.located_of_locate lib hfound (congrArg Reported.operation hreported)
    (congrArg Reported.requestId hreported) (congrArg Reported.requestUri hreported)
  rw [r.locate_of_located lib hlocated] at hfound
  obtain rfl := Option.some.inj hfound
  rw [reported_entryOf, r.seen_eq_reported_iff] at hreported
  exact ⟨⟨⟨hopen, hclosed⟩, hlocated, hreported.2⟩, hreported.1⟩

/-- A record for a known bucket, with no apostrophe outside quotation marks, a request id and a key
without slashes at its ends, is read back when it conforms; without a closing bracket before the time
it is read back only then. -/
theorem access_record_round_trip (hknown : spaceByBucket r.bucket.text ≠ none) (hcalm : r.Calm)
    (huntouched : r.Untouched) :
    (r.Conforms lib → r.ReadsBack lib logObjectKey spaceByBucket) ∧
      (']' ∉ r.head → r.ReadsBack lib logObjectKey spaceByBucket → r.Conforms lib) :=
  ⟨fun h => h.readsBack hcalm huntouched hknown,
    fun hclosed h => (conforms_of_readsBack hcalm hclosed h).1⟩

end RoundTrip

end Record

/-! ## One upload -/

def uploadTime : Text := "08/Jul/2026:10:30:00 +0000".toList

/-- The library on ASCII text and one point in time. -/
def asciiLibrary : Library Unit where
  upperChar c := [c.toUpper]
  decimal c := if c.isDigit then some (c.toNat - 48) else none
  strptime text := if text = uploadTime then some () else none
  strftime _ := uploadTime
  sha1 _ := "e853571e79ac47ef".toList
  upper_ascii _ _ := rfl
  decimal_ascii c hc := if_pos hc
  strptime_strftime _ := if_pos rfl
  strftime_closed _ := by decide

def word (s : String) (hne : s.toList ≠ []) (hspace : s.toList.all (fun c => !isSpace c) = true)
    (h : s.toList.all (fun c => c != quotation && c != backslash) = true) (hdash : s.toList ≠ dash) :
    Word :=
  ⟨s.toList, solid_of_all hne hspace h, hdash⟩

def upload (operation : Word) : Record Unit where
  owner := some (word "owner" (by decide) (by decide) (by decide) (by decide))
  bucket := word "research-data" (by decide) (by decide) (by decide) (by decide)
  time := ()
  clientIp := some (word "10.0.0.5" (by decide) (by decide) (by decide) (by decide))
  requester := some (word "external" (by decide) (by decide) (by decide) (by decide))
  requestId := some (word "req-1" (by decide) (by decide) (by decide) (by decide))
  operation := operation
  key := some (word "reports/external.csv" (by decide) (by decide) (by decide) (by decide))
  requestUri := some ⟨"PUT /research-data HTTP/1.1".toList, plain_of_all (by decide), by decide⟩
  status := some 200
  error := none
  bytesSent := some 512
  objectSize := some 1024
  totalTime := none
  turnAroundTime := some (word "3" (by decide) (by decide) (by decide) (by decide))
  referrer := none
  userAgent := some ⟨"aws-cli/2".toList, plain_of_all (by decide), by decide⟩
  versionId := none
  hostId := none
  signatureVersion := some (word "SigV4" (by decide) (by decide) (by decide) (by decide))
  cipherSuite := some (word "TLS_AES" (by decide) (by decide) (by decide) (by decide))
  authType := some (word "AuthHeader" (by decide) (by decide) (by decide) (by decide))
  more := [none]
  quotedDash := false

def putObject : Word := word "REST.PUT.OBJECT" (by decide) (by decide) (by decide) (by decide)

def expireObject : Word := word "S3.EXPIRE.OBJECT" (by decide) (by decide) (by decide) (by decide)

def researchSpaces (bucketName : Text) : Option StorageSpace :=
  if bucketName = "research-data".toList then some ⟨"space-1", "Research Data"⟩ else none

theorem putObject_calm : (upload putObject).Calm := by rw [Record.calm_iff]; decide

theorem expireObject_calm : (upload expireObject).Calm := by rw [Record.calm_iff]; decide

theorem upload_conforms : (upload putObject).Conforms asciiLibrary where
  bracketless := by decide
  located := ⟨by decide, by decide, by decide, by decide, .inl (by decide)⟩
  short := by
    refine ⟨fun n hn => ?_, fun n hn => ?_, fun n hn => ?_⟩
    all_goals
      obtain rfl := Option.some.inj hn
      decide

theorem upload_untouched (operation : Word) : (upload operation).Untouched where
  requestId := Option.some_ne_none _
  key key hkey := by
    obtain rfl := Option.some.inj hkey
    decide

def logObjectKey : Text := "portal-server-access/research-data/2026-07-08-10-30-00.log".toList

/-- An upload is read back. -/
theorem access_record_round_trip_upload :
    (upload putObject).ReadsBack asciiLibrary logObjectKey researchSpaces :=
  (Record.access_record_round_trip (by decide) putObject_calm (upload_untouched _)).1 upload_conforms

/-- A record of an operation of the storage service itself is not. -/
theorem expiration_is_not_read_back :
    researchSpaces (upload expireObject).bucket.text ≠ none ∧
      ¬(upload expireObject).ReadsBack asciiLibrary logObjectKey researchSpaces := by
  refine ⟨by decide, fun h => ?_⟩
  have hconforms := Record.conforms_of_readsBack expireObject_calm (by decide) h
  exact absurd hconforms.1.located.operation (by decide)

end AccessRecords
end BucketReef

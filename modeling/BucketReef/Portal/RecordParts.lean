import BucketReef.Portal.AccessRecordLayout

/-!
# The parts of an access record read back

What the parser makes of each part of a line in the standard layout: a single field, the bucket and
the time before the fields, and the tokens of the fields.
-/

namespace BucketReef
namespace AccessRecords

open Texts Texts.ShellWords Scheduling

variable {Time : Type} (lib : Library Time)

/-! ## Single fields -/

theorem strip_solid {text : Text} (h : Solid text) : strip text = text :=
  trim_eq_self (fun c hc => (h.2 c (List.mem_of_mem_head? hc)).1)
    fun c hc => (h.2 c (List.mem_of_getLast? hc)).1

theorem dashToNone_of_ne {text : Text} (h : text ≠ dash) : dashToNone (some text) = some text := by
  simp [dashToNone, h]

@[simp] theorem dashToNone_dash : dashToNone (some dash) = none := rfl

@[simp] theorem dashToNone_shown (word : Option Word) :
    dashToNone (some (shown word)) = word.map Word.text := by
  match word with
  | none => rfl
  | some word => exact dashToNone_of_ne word.present

/-- The token of a quoted field. -/
def quoteText (quote : Option Quote) : Text := (quote.map Quote.text).getD dash

@[simp] theorem dashToNone_quoteText (quote : Option Quote) :
    dashToNone (some (quoteText quote)) = quote.map Quote.text := by
  match quote with
  | none => rfl
  | some quote => exact dashToNone_of_ne quote.present

theorem readDigits_digits {text : Text} (hne : text ≠ []) (h : ∀ c ∈ text, c.isDigit = true) :
    readDigits lib text = some (text.map fun c => c.toNat - 48) := by
  induction text with
  | nil => exact absurd rfl hne
  | cons c text ih =>
    have hc := lib.decimal_ascii c (h c List.mem_cons_self)
    match text with
    | [] => simp [readDigits, hc]
    | d :: text =>
      have hd : d ≠ '_' := ne_of_isDigit (h d (by simp)) (by decide)
      have hrest := ih (List.cons_ne_nil d text) fun e he => h e (List.mem_cons_of_mem c he)
      rw [readDigits.eq_4 lib c (d :: text) (by simp) (by intro text' heq; simp_all)]
      rw [hc, hrest]
      rfl

theorem signed_digits {text : Text} (hne : text ≠ []) (h : ∀ c ∈ text, c.isDigit = true) :
    signed text = (1, text) := by
  obtain ⟨c, rest, rfl⟩ := List.exists_cons_of_ne_nil hne
  have hminus : c ≠ '-' := ne_of_isDigit (h c List.mem_cons_self) (by decide)
  have hplus : c ≠ '+' := ne_of_isDigit (h c List.mem_cons_self) (by decide)
  unfold signed
  split
  · next body heq => exact absurd (List.cons.inj heq).1 hminus
  · next body heq => exact absurd (List.cons.inj heq).1 hplus
  · rfl

/-- A written number is read back unless it has too many digits. -/
theorem int_toDigits (n : ℕ) :
    int lib (Nat.toDigits 10 n) =
      if (Nat.toDigits 10 n).length ≤ maxDigits then some (n : ℤ) else none := by
  have hsolid : Solid (Nat.toDigits 10 n) := number_solid (some n)
  have hdigits : ∀ c ∈ Nat.toDigits 10 n, c.isDigit = true := fun c hc => isDigit_of_mem hc
  have hvalue := Nat.ofDigitChars_ten_toDigits (n := n)
  rw [Nat.ofDigitChars_eq_foldl] at hvalue
  have hread := readDigits_digits lib hsolid.1 hdigits
  unfold int
  rw [strip_solid hsolid, signed_digits hsolid.1 hdigits]
  dsimp only
  rw [hread, Option.bind_some, List.length_map, List.foldl_map, Int.one_mul]
  have hzero : '0'.toNat = 48 := rfl
  rw [hzero] at hvalue
  rw [hvalue]

@[simp] theorem safeInt_number (n : Option ℕ) :
    safeInt lib (some (number n)) = n.bind fun n =>
      if (Nat.toDigits 10 n).length ≤ maxDigits then some (n : ℤ) else none := by
  match n with
  | none => rfl
  | some n =>
    show (dashToNone (some (Nat.toDigits 10 n))).bind (int lib) = _
    rw [dashToNone_of_ne (dash_not_digits n)]
    exact int_toDigits lib n

/-! ## The bucket, the time and the tokens -/

theorem find_append_cons {c : Char} {text : Text} (h : c ∉ text) (rest : Text) :
    find c (text ++ c :: rest) = some text.length :=
  findIdx?_append_cons h rest

theorem words_of_no_space {text : Text} (h : ∀ c ∈ text, isSpace c = false) :
    words text = if text = [] then [] else [text] := by
  unfold words
  rw [List.splitOnP_eq_singleton h]
  by_cases hnil : text = []
  · simp [hnil]
  · simp [hnil]

/-- A solid text and what follows it after a blank. -/
theorem words_strip_cons {text rest : Text} (htext : Solid text)
    (hrest : ∀ c ∈ rest, isSpace c = false) :
    words (strip (text ++ ' ' :: rest)) = text :: if rest = [] then [] else [rest] := by
  have hhead : ∀ c ∈ text.head?, isSpace c = false :=
    fun c hc => (htext.2 c (List.mem_of_mem_head? hc)).1
  have hone : words text = [text] := by
    rw [words_of_no_space fun c hc => (htext.2 c hc).1, if_neg htext.1]
  by_cases hnil : rest = []
  · subst hnil
    have htrim : strip (text ++ [' ']) = text := by
      unfold strip
      rw [trim_concat_of_pos (by decide) htext.1 hhead]
      exact strip_solid htext
    rw [htrim, hone, if_pos rfl]
  · have htrim : strip (text ++ ' ' :: rest) = text ++ ' ' :: rest := by
      refine trim_eq_self (fun c hc => hhead c ?_) fun c hc => hrest c ?_
      · rwa [List.head?_append_of_ne_nil _ htext.1] at hc
      · rw [List.getLast?_append_of_ne_nil _ (List.cons_ne_nil _ _), List.getLast?_cons] at hc
        rw [List.getLast?_eq_getLast_of_ne_nil hnil] at hc
        exact List.mem_of_getLast? (by rw [List.getLast?_eq_getLast_of_ne_nil hnil]; exact hc)
    have hsplit : words (text ++ ' ' :: rest) = words text ++ words rest := by
      unfold words
      rw [List.splitOnP_append_cons _ _ (by decide), List.filter_append]
    rw [htrim, hsplit, hone, words_of_no_space hrest]
    rfl

namespace Record

variable (r : Record Time)

/-- The tokens of the fields. -/
def tokens : List Text :=
  [shown r.clientIp, shown r.requester, shown r.requestId, r.operation.text, shown r.key,
    quoteText r.requestUri, number r.status, shown r.error, number r.bytesSent, number r.objectSize,
    shown r.totalTime, shown r.turnAroundTime, quoteText r.referrer, quoteText r.userAgent,
    shown r.versionId, shown r.hostId, shown r.signatureVersion, shown r.cipherSuite,
    shown r.authType] ++ r.more.map shown

theorem enclosed_text (quote : Option Quote) : (r.enclosed quote).text = quoteText quote := by
  match quote with
  | some quote => rfl
  | none =>
    unfold enclosed
    dsimp only
    split <;> rfl

theorem map_text_fields : r.fields.map Cell.text = r.tokens := by
  unfold fields tokens
  rw [List.map_append, List.map_map]
  simp only [List.map_cons, List.map_nil, enclosed_text]
  rfl

theorem render_eq : r.render lib =
    (r.head ++ [' ']) ++ '[' :: (lib.strftime r.time ++ ']' :: ' ' :: line r.fields) := by
  rw [List.append_assoc]
  rfl

theorem bucket_render (h : '[' ∉ r.head) : standardAccessLogBucket (r.render lib) = some r.bucket.text := by
  have hhead : '[' ∉ r.head ++ [' '] := by
    rw [List.mem_append, not_or]
    exact ⟨h, by decide⟩
  unfold standardAccessLogBucket
  rw [render_eq, find_append_cons hhead, Option.bind_some, List.take_left]
  have htrim : strip (r.head ++ [' ']) = strip r.head := by
    have hsolid := shown_solid r.owner
    refine trim_concat_of_pos (by decide) (fun hnil => ?_) fun c hc => ?_
    · exact hsolid.1 (List.append_eq_nil_iff.mp hnil).1
    · unfold head at hc
      rw [List.head?_append_of_ne_nil _ hsolid.1] at hc
      exact (hsolid.2 c (List.mem_of_mem_head? hc)).1
  rw [htrim]
  unfold head
  rw [words_strip_cons (shown_solid r.owner) fun c hc => (r.bucket.solid.2 c hc).1,
    if_neg r.bucket.solid.1]
  rfl

theorem timestamp_render (h : '[' ∉ r.head) :
    standardAccessLogTimestamp lib (r.render lib) = some r.time := by
  have hhead : '[' ∉ r.head ++ [' '] := by
    rw [List.mem_append, not_or]
    exact ⟨h, by decide⟩
  have hdrop : (r.render lib).drop ((r.head ++ [' ']).length + 1) =
      lib.strftime r.time ++ ']' :: ' ' :: line r.fields := by
    rw [render_eq, ← List.drop_drop, List.drop_left]
    rfl
  unfold standardAccessLogTimestamp
  rw [render_eq, find_append_cons hhead, Option.bind_some, ← render_eq, hdrop,
    find_append_cons (lib.strftime_closed r.time), Option.bind_some, List.take_left,
    lib.strptime_strftime]

theorem tokens_render (h : ']' ∉ r.head) (hcalm : r.Calm) :
    parseStandardAccessLogTokens lib (r.render lib) = locateTokens lib r.tokens := by
  have heq : r.render lib =
      (r.head ++ ' ' :: '[' :: lib.strftime r.time) ++ ']' :: ' ' :: line r.fields := by
    simp [render]
  have hclosed : ']' ∉ r.head ++ ' ' :: '[' :: lib.strftime r.time := by
    simp only [List.mem_append, List.mem_cons, not_or]
    exact ⟨h, by decide, by decide, lib.strftime_closed r.time⟩
  unfold parseStandardAccessLogTokens
  rw [heq, find_append_cons hclosed]
  dsimp only
  rw [← List.drop_drop, List.drop_left]
  show (split (strip (' ' :: line r.fields))).bind _ = _
  rw [r.strip_fields, split_line (r.fields_plain hcalm), Option.bind_some, map_text_fields]

end Record

end AccessRecords
end BucketReef

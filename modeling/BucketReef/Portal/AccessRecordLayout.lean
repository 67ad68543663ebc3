import BucketReef.Portal.AccessRecords

/-!
# The standard layout of an access record

A record of the server access log and the line it is written as: the owner, the bucket, the time in
brackets, and the other fields, some of them between quotation marks. An absent field is a dash.
-/

namespace BucketReef
namespace AccessRecords

open Texts Texts.ShellWords Scheduling

/-! ## Fields -/

/-- A text that stands in a line without quotation marks. -/
def Solid (text : Text) : Prop :=
  text ≠ [] ∧ ∀ c ∈ text, isSpace c = false ∧ c ≠ quotation ∧ c ≠ backslash

theorem plain_of_all {text : Text} (h : text.all (fun c => c != quotation && c != backslash) = true) :
    ∀ c ∈ text, c ≠ quotation ∧ c ≠ backslash := by
  simpa using h

theorem solid_of_all {text : Text} (hne : text ≠ [])
    (hspace : text.all (fun c => !isSpace c) = true)
    (h : text.all (fun c => c != quotation && c != backslash) = true) : Solid text := by
  refine ⟨hne, fun c hc => ⟨?_, plain_of_all h c hc⟩⟩
  simpa using List.all_eq_true.mp hspace c hc

/-- The value of a field that is not quoted. -/
structure Word where
  text : Text
  solid : Solid text
  present : text ≠ dash

/-- The value of a field between quotation marks. -/
structure Quote where
  text : Text
  plain : ∀ c ∈ text, c ≠ quotation ∧ c ≠ backslash
  present : text ≠ dash

def shown (word : Option Word) : Text := (word.map Word.text).getD dash

def number (n : Option ℕ) : Text := (n.map (Nat.toDigits 10)).getD dash

theorem dash_solid : Solid dash := by
  refine ⟨by decide, fun c hc => ?_⟩
  obtain rfl := List.mem_singleton.mp hc
  decide

theorem shown_solid (word : Option Word) : Solid (shown word) := by
  match word with
  | none => exact dash_solid
  | some word => exact word.solid

theorem isDigit_bounds {c : Char} (h : c.isDigit = true) : 48 ≤ c.toNat ∧ c.toNat ≤ 57 := by
  simp only [Char.isDigit, Bool.and_eq_true, decide_eq_true_eq, ge_iff_le] at h
  exact ⟨h.1, h.2⟩

theorem isSpace_of_isDigit {c : Char} (h : c.isDigit = true) : isSpace c = false := by
  have hbounds := isDigit_bounds h
  simp only [isSpace, decide_eq_false_iff_not]
  omega

theorem ne_of_isDigit {c d : Char} (h : c.isDigit = true) (hd : d.isDigit = false) : c ≠ d := by
  rintro rfl
  rw [h] at hd
  exact Bool.true_eq_false_eq_False.elim hd

theorem isDigit_of_mem {n : ℕ} {c : Char} (h : c ∈ Nat.toDigits 10 n) : c.isDigit = true :=
  Nat.isDigit_of_mem_toDigits (by decide) (by decide) h

theorem number_solid (n : Option ℕ) : Solid (number n) := by
  match n with
  | none => exact dash_solid
  | some n =>
    refine ⟨Nat.toDigits_ne_nil, fun c hc => ?_⟩
    have hdigit := isDigit_of_mem hc
    exact ⟨isSpace_of_isDigit hdigit, ne_of_isDigit hdigit (by decide), ne_of_isDigit hdigit (by decide)⟩

theorem dash_not_digits (n : ℕ) : Nat.toDigits 10 n ≠ dash := by
  intro h
  have hdash : '-' ∈ Nat.toDigits 10 n := by rw [h]; exact List.mem_singleton.mpr rfl
  exact ne_of_isDigit (isDigit_of_mem hdash) (d := '-') (by decide) rfl

/-! ## Records -/

/-- An access record; the object key is percent-encoded. -/
structure Record (Time : Type) where
  owner : Option Word
  bucket : Word
  time : Time
  clientIp : Option Word
  requester : Option Word
  requestId : Option Word
  operation : Word
  key : Option Word
  requestUri : Option Quote
  status : Option ℕ
  error : Option Word
  bytesSent : Option ℕ
  objectSize : Option ℕ
  totalTime : Option Word
  turnAroundTime : Option Word
  referrer : Option Quote
  userAgent : Option Quote
  versionId : Option Word
  hostId : Option Word
  signatureVersion : Option Word
  cipherSuite : Option Word
  authType : Option Word
  /-- The fields that later versions of the layout add. -/
  more : List (Option Word)
  /-- Whether the dash of an absent field is quoted where a value would be. -/
  quotedDash : Bool

namespace Record

variable {Time : Type} (r : Record Time)

def enclosed (quote : Option Quote) : Cell :=
  match quote with
  | some quote => .enclosed quote.text
  | none => if r.quotedDash then .enclosed dash else .bare dash

/-- The fields after the time. -/
def fields : List Cell :=
  [.bare (shown r.clientIp), .bare (shown r.requester), .bare (shown r.requestId),
    .bare r.operation.text, .bare (shown r.key), r.enclosed r.requestUri, .bare (number r.status),
    .bare (shown r.error), .bare (number r.bytesSent), .bare (number r.objectSize),
    .bare (shown r.totalTime), .bare (shown r.turnAroundTime), r.enclosed r.referrer,
    r.enclosed r.userAgent, .bare (shown r.versionId), .bare (shown r.hostId),
    .bare (shown r.signatureVersion), .bare (shown r.cipherSuite), .bare (shown r.authType)] ++
  r.more.map fun word => .bare (shown word)

def head : Text := shown r.owner ++ ' ' :: r.bucket.text

/-- The line of the record. -/
def render (lib : Library Time) : Text :=
  r.head ++ ' ' :: '[' :: (lib.strftime r.time ++ ']' :: ' ' :: line r.fields)

/-- No field outside quotation marks has an apostrophe. -/
def Calm : Prop := ∀ text, Cell.bare text ∈ r.fields → apostrophe ∉ text

theorem calm_iff :
    r.Calm ↔ ∀ field ∈ r.fields, field = .enclosed field.text ∨ apostrophe ∉ field.text := by
  refine ⟨fun h field hfield => ?_, fun h text htext => ?_⟩
  · match field with
    | .bare text => exact .inr (h text hfield)
    | .enclosed text => exact .inl rfl
  · exact (h _ htext).resolve_left Cell.noConfusion

/-- A field as the layout has it, apostrophes aside. -/
def Fits : Cell → Prop
  | .bare text => Solid text
  | .enclosed text => ∀ c ∈ text, c ≠ quotation ∧ c ≠ backslash

theorem enclosed_fits (quote : Option Quote) : Fits (r.enclosed quote) := by
  match quote with
  | some quote => exact quote.plain
  | none =>
    unfold enclosed
    dsimp only
    split
    · exact fun c hc => (dash_solid.2 c hc).2
    · exact dash_solid

theorem fields_fit : ∀ field ∈ r.fields, Fits field := by
  unfold fields
  simp only [List.forall_mem_append, List.forall_mem_cons, List.forall_mem_map, List.not_mem_nil,
    false_implies, implies_true, and_true]
  exact ⟨⟨shown_solid _, shown_solid _, shown_solid _, r.operation.solid, shown_solid _,
    r.enclosed_fits _, number_solid _, shown_solid _, number_solid _, number_solid _, shown_solid _,
    shown_solid _, r.enclosed_fits _, r.enclosed_fits _, shown_solid _, shown_solid _, shown_solid _,
    shown_solid _, shown_solid _⟩, fun word _ => shown_solid word⟩

theorem isBlank_of_not_isSpace {c : Char} (h : isSpace c = false) : isBlank c = false := by
  have hne : ∀ d : Char, isSpace d = true → c ≠ d := by
    rintro d hd rfl
    rw [h] at hd
    exact Bool.false_ne_true hd
  simp [isBlank, hne ' ' (by decide), hne '\t' (by decide), hne '\r' (by decide),
    hne '\n' (by decide)]

/-- Without apostrophes every field is read back by the lexer. -/
theorem fields_plain (hcalm : r.Calm) : ∀ field ∈ r.fields, field.Plain := by
  intro field hfield
  have hfits := r.fields_fit field hfield
  match field with
  | .enclosed text => exact hfits
  | .bare text =>
    refine ⟨hfits.1, fun c hc => ?_⟩
    obtain ⟨hspace, hquote, hback⟩ := hfits.2 c hc
    have hapostrophe : c ≠ apostrophe := fun h => hcalm text hfield (h ▸ hc)
    exact ⟨isBlank_of_not_isSpace hspace, by simp [isQuote, hapostrophe, hquote], hback⟩

/-- A field starts and ends with characters that are not blank. -/
theorem raw_ends {field : Cell} (h : Fits field) :
    field.raw ≠ [] ∧ (∀ c ∈ field.raw.head?, isSpace c = false) ∧
      ∀ c ∈ field.raw.getLast?, isSpace c = false := by
  match field with
  | .bare text =>
    exact ⟨h.1, fun c hc => (h.2 c (List.mem_of_mem_head? hc)).1,
      fun c hc => (h.2 c (List.mem_of_getLast? hc)).1⟩
  | .enclosed text =>
    refine ⟨List.cons_ne_nil _ _, fun c hc => ?_, fun c hc => ?_⟩
    · obtain rfl : quotation = c := by simpa [Cell.raw] using hc
      decide
    · obtain rfl : quotation = c := by
        simpa [Cell.raw, List.getLast?_cons, List.getLast?_append] using hc
      decide

theorem line_ends {fields : List Cell} (h : ∀ field ∈ fields, Fits field) :
    (∀ c ∈ (line fields).head?, isSpace c = false) ∧
      ∀ c ∈ (line fields).getLast?, isSpace c = false := by
  induction fields with
  | nil => exact ⟨fun c hc => by simp [line] at hc, fun c hc => by simp [line] at hc⟩
  | cons field fields ih =>
    obtain ⟨hraw, hhead, hlast⟩ := raw_ends (h field List.mem_cons_self)
    by_cases hfields : fields = []
    · subst hfields
      exact ⟨hhead, hlast⟩
    · obtain ⟨-, ihlast⟩ := ih fun f hf => h f (List.mem_cons_of_mem field hf)
      rw [line_cons field hfields]
      refine ⟨fun c hc => hhead c ?_, fun c hc => ihlast c ?_⟩
      · rwa [List.head?_append_of_ne_nil _ hraw] at hc
      · have hne : line fields ≠ [] := by
          obtain ⟨next, rest, rfl⟩ := List.exists_cons_of_ne_nil hfields
          have hnext := (raw_ends (h next (by simp))).1
          match rest with
          | [] => exact hnext
          | other :: rest => exact fun hnil => hnext (List.append_eq_nil_iff.mp hnil).1
        rw [List.getLast?_append_of_ne_nil _ (List.cons_ne_nil _ _), List.getLast?_cons] at hc
        rw [List.getLast?_eq_getLast_of_ne_nil hne] at hc ⊢
        exact hc

/-- The blank after the time is trimmed, the fields are not. -/
theorem strip_fields : strip (' ' :: line r.fields) = line r.fields := by
  obtain ⟨hhead, hlast⟩ := line_ends r.fields_fit
  unfold strip
  rw [trim_cons_of_pos (by decide), trim_eq_self hhead hlast]

end Record

end AccessRecords
end BucketReef

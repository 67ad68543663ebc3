import Mathlib.Data.List.DropRight

/-!
# Shell words

A text cut into words as a POSIX shell cuts it: blanks separate, quotes group, a backslash escapes.
A line of fields is read back when none of them holds a backslash, a quotation mark or, outside
quotation marks, a blank or an apostrophe.
-/

namespace Texts

def apostrophe : Char := Char.ofNat 39

def quotation : Char := Char.ofNat 34

def backslash : Char := Char.ofNat 92

namespace ShellWords

/-- Blanks between words. -/
def isBlank (c : Char) : Bool := c = ' ' ∨ c = '\t' ∨ c = '\r' ∨ c = '\n'

def isQuote (c : Char) : Bool := c = apostrophe ∨ c = quotation

/-- Where the lexer stands; after an escaped character it goes back to the quotes it was in. -/
inductive Mode
  | blank
  | word
  | quoted (quote : Char)
  | escaped (back : Option Char)
  deriving DecidableEq, Repr

/-- The words of a text, `word` being what has been read of the one under way; `none` when the text
ends inside quotes or after a backslash. -/
def splitFrom : List Char → Mode → List Char → Option (List (List Char))
  | [], .blank, _ => some []
  | [], .word, word => some [word]
  | [], .quoted _, _ => none
  | [], .escaped _, _ => none
  | c :: text, .blank, _ =>
    if isBlank c then splitFrom text .blank []
    else if c = backslash then splitFrom text (.escaped none) []
    else if isQuote c then splitFrom text (.quoted c) []
    else splitFrom text .word [c]
  | c :: text, .word, word =>
    if isBlank c then (splitFrom text .blank []).map (word :: ·)
    else if isQuote c then splitFrom text (.quoted c) word
    else if c = backslash then splitFrom text (.escaped none) word
    else splitFrom text .word (word ++ [c])
  | c :: text, .quoted quote, word =>
    if c = quote then splitFrom text .word word
    else if c = backslash ∧ quote = quotation then splitFrom text (.escaped (some quote)) word
    else splitFrom text (.quoted quote) (word ++ [c])
  | c :: text, .escaped none, word => splitFrom text .word (word ++ [c])
  | c :: text, .escaped (some quote), word =>
    -- between quotation marks a backslash before any other character stands for itself
    if c = backslash ∨ c = quote then splitFrom text (.quoted quote) (word ++ [c])
    else splitFrom text (.quoted quote) (word ++ [backslash, c])

def split (text : List Char) : Option (List (List Char)) := splitFrom text .blank []

/-! ## Lines of fields -/

/-- A field of a line, as it is or between quotation marks. -/
inductive Cell
  | bare (text : List Char)
  | enclosed (text : List Char)
  deriving DecidableEq, Repr

namespace Cell

def text : Cell → List Char
  | bare text => text
  | enclosed text => text

def raw : Cell → List Char
  | bare text => text
  | enclosed text => quotation :: text ++ [quotation]

/-- The field is read back as one word. -/
def Plain : Cell → Prop
  | bare text => text ≠ [] ∧ ∀ c ∈ text, isBlank c = false ∧ isQuote c = false ∧ c ≠ backslash
  | enclosed text => ∀ c ∈ text, c ≠ quotation ∧ c ≠ backslash

end Cell

/-- The fields, one blank between two of them. -/
def line : List Cell → List Char
  | [] => []
  | [field] => field.raw
  | field :: fields => field.raw ++ ' ' :: line fields

@[simp] theorem line_singleton (field : Cell) : line [field] = field.raw := rfl

theorem line_cons (field : Cell) {fields : List Cell} (h : fields ≠ []) :
    line (field :: fields) = field.raw ++ ' ' :: line fields := by
  obtain ⟨next, rest, rfl⟩ := List.exists_cons_of_ne_nil h
  rfl

theorem splitFrom_word {text : List Char}
    (h : ∀ c ∈ text, isBlank c = false ∧ isQuote c = false ∧ c ≠ backslash) (rest : List Char) :
    ∀ word, splitFrom (text ++ rest) .word word = splitFrom rest .word (word ++ text) := by
  induction text with
  | nil => intro word; rw [List.append_nil, List.nil_append]
  | cons c text ih =>
    intro word
    obtain ⟨hblank, hquote, hback⟩ := h c List.mem_cons_self
    have hrest := ih (fun d hd => h d (List.mem_cons_of_mem c hd)) (word ++ [c])
    simp only [List.cons_append, splitFrom, hblank, hquote, hback, if_false, Bool.false_eq_true]
    rw [hrest, List.append_assoc, List.singleton_append]

theorem splitFrom_quoted {text : List Char} (h : ∀ c ∈ text, c ≠ quotation ∧ c ≠ backslash)
    (rest : List Char) : ∀ word,
    splitFrom (text ++ rest) (.quoted quotation) word =
      splitFrom rest (.quoted quotation) (word ++ text) := by
  induction text with
  | nil => intro word; rw [List.append_nil, List.nil_append]
  | cons c text ih =>
    intro word
    obtain ⟨hquote, hback⟩ := h c List.mem_cons_self
    have hrest := ih (fun d hd => h d (List.mem_cons_of_mem c hd)) (word ++ [c])
    simp only [List.cons_append, splitFrom, hquote, hback, if_false, false_and]
    rw [hrest, List.append_assoc, List.singleton_append]

/-- A plain field becomes the word under way. -/
theorem splitFrom_field {field : Cell} (h : field.Plain) (rest : List Char) :
    splitFrom (field.raw ++ rest) .blank [] = splitFrom rest .word field.text := by
  match field with
  | .bare [] => exact absurd rfl h.1
  | .bare (c :: text) =>
    obtain ⟨hblank, hquote, hback⟩ := h.2 c List.mem_cons_self
    have hword := splitFrom_word (fun d hd => h.2 d (List.mem_cons_of_mem c hd)) rest [c]
    show splitFrom (c :: (text ++ rest)) .blank [] = _
    simp only [splitFrom, hblank, hquote, hback, if_false, Bool.false_eq_true]
    exact hword
  | .enclosed text =>
    have hopen : splitFrom (quotation :: (text ++ quotation :: rest)) .blank [] =
        splitFrom (text ++ quotation :: rest) (.quoted quotation) [] := rfl
    have hclose : splitFrom (quotation :: rest) (.quoted quotation) text =
        splitFrom rest .word text := rfl
    show splitFrom (quotation :: (text ++ [quotation] ++ rest)) .blank [] = _
    rw [List.append_assoc, List.singleton_append, hopen, splitFrom_quoted h, List.nil_append, hclose]
    rfl

/-- A line of plain fields is read back field by field. -/
theorem split_line {fields : List Cell} (h : ∀ field ∈ fields, field.Plain) :
    split (line fields) = some (fields.map Cell.text) := by
  induction fields with
  | nil => rfl
  | cons field fields ih =>
    have hfield := splitFrom_field (h field List.mem_cons_self)
    by_cases hfields : fields = []
    · subst hfields
      have hend := hfield []
      rw [List.append_nil] at hend
      exact hend
    · have hrest := ih fun f hf => h f (List.mem_cons_of_mem field hf)
      have hblank : splitFrom (' ' :: line fields) .word field.text =
          (split (line fields)).map (field.text :: ·) := rfl
      unfold split
      rw [line_cons field hfields, hfield, hblank, hrest]
      rfl

end ShellWords

/-! ## Trimming and cutting -/

variable {α : Type*}

/-- The list without the elements satisfying `p` at both ends. -/
def trim (p : α → Bool) (l : List α) : List α := (l.dropWhile p).rdropWhile p

theorem trim_eq_self {p : α → Bool} {l : List α} (hhead : ∀ a ∈ l.head?, p a = false)
    (hlast : ∀ a ∈ l.getLast?, p a = false) : trim p l = l := by
  have hdrop : l.dropWhile p = l := by
    cases l with
    | nil => rfl
    | cons a l => rw [List.dropWhile_cons, hhead a rfl, if_neg Bool.false_ne_true]
  unfold trim
  rw [hdrop]
  induction l using List.reverseRecOn with
  | nil => rfl
  | append_singleton l a =>
    rw [List.rdropWhile_concat_neg]
    rw [hlast a (by simp)]
    exact Bool.false_ne_true

theorem trim_cons_of_pos {p : α → Bool} {a : α} (h : p a = true) (l : List α) :
    trim p (a :: l) = trim p l := by
  unfold trim
  rw [List.dropWhile_cons, if_pos h]

theorem trim_concat_of_pos {p : α → Bool} {a : α} (h : p a = true) {l : List α} (hne : l ≠ [])
    (hhead : ∀ x ∈ l.head?, p x = false) : trim p (l ++ [a]) = trim p l := by
  obtain ⟨x, l, rfl⟩ := List.exists_cons_of_ne_nil hne
  have hx : ¬p x = true := by rw [hhead x rfl]; exact Bool.false_ne_true
  unfold trim
  rw [List.cons_append, List.dropWhile_cons, if_neg hx, List.dropWhile_cons, if_neg hx,
    ← List.cons_append, List.rdropWhile_concat_pos _ _ _ h]

theorem findIdx?_append_cons [DecidableEq α] {a : α} {l : List α} (h : a ∉ l) (l' : List α) :
    (l ++ a :: l').findIdx? (fun x => decide (x = a)) = some l.length := by
  induction l with
  | nil => simp [List.findIdx?_cons]
  | cons x l ih =>
    obtain ⟨hx, hl⟩ := not_or.mp (mt List.mem_cons.mpr h)
    rw [List.cons_append, List.findIdx?_cons, ih hl, decide_eq_false (Ne.symm hx)]
    rfl

end Texts

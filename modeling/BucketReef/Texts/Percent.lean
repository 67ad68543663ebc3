import BucketReef.Texts.ShellWords

/-!
# Percent encoding

Percent-encoded bytes are read as UTF-8, a malformed sequence as one replacement character. A slash
is a character of its own at either end of a text: decoding the text without the slashes there leaves
out as many characters.
-/

namespace Texts
namespace Percent

/-- A part of an encoded text: a byte, or a character outside ASCII, which stands for itself. -/
inductive Piece
  | byte (b : ℕ)
  | char (c : Char)
  deriving DecidableEq, Repr

def hexValue (c : Char) : Option ℕ :=
  if '0' ≤ c ∧ c ≤ '9' then some (c.toNat - 48)
  else if 'a' ≤ c ∧ c ≤ 'f' then some (c.toNat - 87)
  else if 'A' ≤ c ∧ c ≤ 'F' then some (c.toNat - 55)
  else none

def literal (c : Char) : Piece := if c.toNat < 128 then .byte c.toNat else .char c

/-- The byte that a percent sign and two hexadecimal digits stand for. -/
def encodedByte (c high low : Char) : Option ℕ :=
  if c = '%' then do
    let h ← hexValue high
    let l ← hexValue low
    return 16 * h + l
  else none

/-- A percent sign that is not before two hexadecimal digits stands for itself. -/
def pieces : List Char → List Piece
  | [] => []
  | [c] => [literal c]
  | [c, d] => [literal c, literal d]
  | c :: high :: low :: text =>
    match encodedByte c high low with
    | some b => .byte b :: pieces text
    | none => literal c :: pieces (high :: low :: text)

/-- The decoder inside a sequence: how many bytes are still to come, the code point so far, and the
range of the next byte. -/
structure Decoder where
  needed : ℕ
  point : ℕ
  low : ℕ
  high : ℕ
  low_ge : 128 ≤ low

namespace Decoder

def start : Decoder := ⟨0, 0, 128, 191, by decide⟩

def replacement : Char := Char.ofNat 0xFFFD

/-- What the first byte of a sequence gives. -/
def first (b : ℕ) : List Char × Decoder :=
  if b < 128 then ([Char.ofNat b], start)
  else if 194 ≤ b ∧ b ≤ 223 then ([], ⟨1, b - 192, 128, 191, by decide⟩)
  else if 224 ≤ b ∧ b ≤ 239 then
    ([], ⟨2, b - 224, if b = 224 then 160 else 128, if b = 237 then 159 else 191, by split <;> omega⟩)
  else if 240 ≤ b ∧ b ≤ 244 then
    ([], ⟨3, b - 240, if b = 240 then 144 else 128, if b = 244 then 143 else 191, by split <;> omega⟩)
  else ([replacement], start)

/-- The next byte; one that does not continue the sequence ends it and is read anew. -/
def step (d : Decoder) (b : ℕ) : List Char × Decoder :=
  if d.needed = 0 then first b
  else if d.low ≤ b ∧ b ≤ d.high then
    let point := d.point * 64 + (b - 128)
    if d.needed = 1 then ([Char.ofNat point], start)
    else ([], ⟨d.needed - 1, point, 128, 191, by decide⟩)
  else (replacement :: (first b).1, (first b).2)

/-- What is left of a sequence that ends early. -/
def flush (d : Decoder) : List Char := if d.needed = 0 then [] else [replacement]

/-- A character outside ASCII ends the sequence before it. -/
def decode : Decoder → List Piece → List Char
  | d, [] => d.flush
  | d, .byte b :: rest => (d.step b).1 ++ decode (d.step b).2 rest
  | d, .char c :: rest => d.flush ++ c :: decode start rest

/-- A slash is never part of a sequence. -/
theorem step_slash (d : Decoder) : d.step 47 = (d.flush ++ ['/'], start) := by
  unfold step flush
  by_cases h : d.needed = 0
  · rw [if_pos h, if_pos h]; rfl
  · have hlow : ¬(d.low ≤ 47 ∧ 47 ≤ d.high) := fun hin => by have := d.low_ge; omega
    rw [if_neg h, if_neg h, if_neg hlow]
    rfl

theorem decode_concat_slash (rest : List Piece) :
    ∀ d : Decoder, d.decode (rest ++ [.byte 47]) = d.decode rest ++ ['/'] := by
  induction rest with
  | nil =>
    intro d
    show (d.step 47).1 ++ decode (d.step 47).2 [] = d.flush ++ ['/']
    rw [step_slash]
    exact List.append_nil _
  | cons piece rest ih =>
    intro d
    match piece with
    | .byte b =>
      show (d.step b).1 ++ decode (d.step b).2 (rest ++ [.byte 47]) = _
      rw [ih, ← List.append_assoc]
      rfl
    | .char c =>
      show d.flush ++ c :: decode start (rest ++ [.byte 47]) = _
      rw [ih]
      simp [decode]

theorem decode_slash (rest : List Piece) : start.decode (.byte 47 :: rest) = '/' :: start.decode rest :=
  rfl

end Decoder

theorem encodedByte_slash_low (c high : Char) : encodedByte c high '/' = none := by
  have hslash : hexValue '/' = none := by decide
  unfold encodedByte
  split
  · rw [hslash]
    cases hexValue high <;> rfl
  · rfl

theorem pieces_slash (text : List Char) : pieces ('/' :: text) = .byte 47 :: pieces text := by
  match text with
  | [] => rfl
  | [c] => rfl
  | c :: d :: text => rfl

/-- Two characters and a slash never stand for a byte. -/
theorem pieces_slash_third (c d : Char) : pieces [c, d, '/'] = [literal c, literal d, .byte 47] := by
  rw [pieces, encodedByte_slash_low]
  rfl

theorem pieces_concat_slash (text : List Char) :
    pieces (text ++ ['/']) = pieces text ++ [.byte 47] := by
  fun_induction pieces text with
  | case1 => rfl
  | case2 c => rfl
  | case3 c d => exact pieces_slash_third c d
  | case4 c high low text b hb ih =>
    show pieces (c :: high :: low :: (text ++ ['/'])) = _
    rw [pieces, hb]
    show _ :: pieces (text ++ ['/']) = _
    rw [ih]
    rfl
  | case5 c high low text hb ih =>
    show pieces (c :: high :: low :: (text ++ ['/'])) = _
    rw [pieces, hb]
    show _ :: pieces (high :: low :: text ++ ['/']) = _
    rw [ih]
    rfl

/-- The decoded text; one without a percent sign is left as it is. -/
def unquote (text : List Char) : List Char :=
  if '%' ∈ text then Decoder.start.decode (pieces text) else text

theorem unquote_slash (text : List Char) : unquote ('/' :: text) = '/' :: unquote text := by
  have hmem : '%' ∈ '/' :: text ↔ '%' ∈ text := by
    rw [List.mem_cons, or_iff_right (show ¬('%' = '/') by decide)]
  unfold unquote
  by_cases h : '%' ∈ text
  · rw [if_pos (hmem.mpr h), if_pos h, pieces_slash, Decoder.decode_slash]
  · rw [if_neg (mt hmem.mp h), if_neg h]

theorem unquote_concat_slash (text : List Char) : unquote (text ++ ['/']) = unquote text ++ ['/'] := by
  have hmem : '%' ∈ text ++ ['/'] ↔ '%' ∈ text := by
    rw [List.mem_append, List.mem_singleton, or_iff_left (show ¬('%' = '/') by decide)]
  unfold unquote
  by_cases h : '%' ∈ text
  · rw [if_pos (hmem.mpr h), if_pos h, pieces_concat_slash, Decoder.decode_concat_slash]
  · rw [if_neg (mt hmem.mp h), if_neg h]

/-- A slash. -/
def isSlash (c : Char) : Bool := c = '/'

theorem length_unquote_dropWhile (text : List Char) :
    (unquote text).length + (text.dropWhile isSlash).length =
      text.length + (unquote (text.dropWhile isSlash)).length := by
  induction text with
  | nil => rfl
  | cons c text ih =>
    by_cases h : c = '/'
    · subst h
      rw [List.dropWhile_cons_of_pos (by decide), unquote_slash, List.length_cons, List.length_cons]
      omega
    · rw [List.dropWhile_cons_of_neg (by simp [isSlash, h]), Nat.add_comm]

theorem length_unquote_rdropWhile (text : List Char) :
    (unquote text).length + (text.rdropWhile isSlash).length =
      text.length + (unquote (text.rdropWhile isSlash)).length := by
  induction text using List.reverseRecOn with
  | nil => rfl
  | append_singleton text c ih =>
    by_cases h : c = '/'
    · subst h
      rw [List.rdropWhile_concat_pos _ _ _ (by decide), unquote_concat_slash, List.length_append,
        List.length_append]
      omega
    · rw [List.rdropWhile_concat_neg _ _ _ (by simp [isSlash, h]), Nat.add_comm]

/-- Trimmed of its slashes a text decodes to the same only when it had none at either end. -/
theorem unquote_trim_eq_iff (text : List Char) :
    unquote (trim isSlash text) = unquote text ↔ trim isSlash text = text := by
  refine ⟨fun h => ?_, fun h => by rw [h]⟩
  have hfront := length_unquote_dropWhile text
  have hback := length_unquote_rdropWhile (text.dropWhile isSlash)
  have hlength := congrArg List.length h
  have hsub : (trim isSlash text).Sublist text :=
    (List.rdropWhile_prefix _ _).sublist.trans (List.dropWhile_suffix _).sublist
  refine hsub.eq_of_length ?_
  unfold trim at hlength ⊢
  omega

end Percent
end Texts

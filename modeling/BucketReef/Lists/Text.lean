import Mathlib.Data.List.Basic
import Mathlib.Data.String.Basic

/-!
# Text

Case folding and trimming of ASCII text, patterns with one wildcard, and lists whose repeated values
are dropped.
-/

namespace BucketReef
namespace Text

def lower (s : String) : String := String.ofList (s.toList.map Char.toLower)

def upper (s : String) : String := String.ofList (s.toList.map Char.toUpper)

/-- Without the blanks at both ends. -/
def strip (s : String) : String :=
  String.ofList ((s.toList.dropWhile Char.isWhitespace).reverse.dropWhile Char.isWhitespace).reverse

/-- The pattern's first `*` stands for any text; a pattern without one is the text itself. -/
def wildcardMatch (pattern value : String) : Bool :=
  let pre := pattern.toList.takeWhile (· ≠ '*')
  match pattern.toList.dropWhile (· ≠ '*') with
  | [] => pattern = value
  | _ :: post =>
    pre.isPrefixOf value.toList && post.isSuffixOf value.toList &&
      pre.length + post.length ≤ value.length

/-- Every text matches itself. -/
theorem wildcardMatch_self (s : String) : wildcardMatch s s = true := by
  have hsplit := List.takeWhile_append_dropWhile (p := (· ≠ '*')) (l := s.toList)
  unfold wildcardMatch
  dsimp only
  split
  · simp
  · next c post hpost =>
    rw [hpost] at hsplit
    have hlength := congrArg List.length hsplit
    simp only [List.length_append, List.length_cons, String.length_toList] at hlength
    simp only [Bool.and_eq_true, List.isPrefixOf_iff_prefix, List.isSuffixOf_iff_suffix,
      decide_eq_true_eq]
    refine ⟨⟨⟨c :: post, hsplit⟩, ⟨s.toList.takeWhile (· ≠ '*') ++ [c], ?_⟩⟩, by omega⟩
    rw [List.append_assoc, List.singleton_append, hsplit]

/-- The wildcard alone is matched by every text. -/
theorem wildcardMatch_star (s : String) : wildcardMatch "*" s = true := by
  simp [wildcardMatch]

/-- The values in the order of their first occurrences. -/
def orderedUnique (values : List String) : List String := values.eraseDups

@[simp] theorem mem_orderedUnique {values : List String} {x : String} :
    x ∈ orderedUnique values ↔ x ∈ values :=
  List.mem_eraseDups

/-- The order in which a set of strings is enumerated. -/
structure SetOrder where
  list : List String → List String
  mem_list : ∀ values x, x ∈ list values ↔ x ∈ values

theorem any_of_subset {l l' : List String} {p : String → Bool} (h : ∀ x ∈ l, x ∈ l')
    (hany : l.any p = true) : l'.any p = true := by
  obtain ⟨x, hx, hp⟩ := List.any_eq_true.mp hany
  exact List.any_eq_true.mpr ⟨x, h x hx, hp⟩

end Text
end BucketReef

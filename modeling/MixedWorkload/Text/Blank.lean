/-!
# White space

The blank characters are those with the Unicode property `White_Space`. Texts are
trimmed of them at both ends by `MixedWorkload.Text.trim`, which is idempotent and
leaves a text alone whose first and last characters are not blank.
-/

namespace MixedWorkload.Text

/-- The ranges of characters with the property `White_Space`. -/
def blankRanges : List (Nat × Nat) :=
  [(0x9, 0xD), (0x20, 0x20), (0x85, 0x85), (0xA0, 0xA0), (0x1680, 0x1680),
   (0x2000, 0x200A), (0x2028, 0x2029), (0x202F, 0x202F), (0x205F, 0x205F),
   (0x3000, 0x3000)]

/-- Whether a code point lies in one of the ranges, ends included. -/
def inRanges (ranges : List (Nat × Nat)) (n : Nat) : Bool :=
  ranges.any fun range => decide (range.1 ≤ n ∧ n ≤ range.2)

/-- Whether a character is white space. -/
def isBlank (c : Char) : Bool :=
  inRanges blankRanges c.toNat

/-- A list without the leading and trailing elements of a class. -/
def trimBy {α : Type} (blank : α → Bool) (xs : List α) : List α :=
  ((xs.dropWhile blank).reverse.dropWhile blank).reverse

/-- A text without the blank characters at its ends. -/
def trim (cs : List Char) : List Char :=
  trimBy isBlank cs

end MixedWorkload.Text

/-!
# Reading escapes

Formats with quoted texts write some characters by their number, in hexadecimal digits.
What is common to the readers of such formats stands here: the value of the digits, the
character of a code point, and the shape of a reader's result, the text it has read and
what follows it.
-/

namespace MixedWorkload.Text

/-- The value of a hexadecimal digit. -/
def hexDigit? (c : Char) : Option Nat :=
  if '0' ≤ c ∧ c ≤ '9' then some (c.toNat - '0'.toNat)
  else if 'a' ≤ c ∧ c ≤ 'f' then some (c.toNat - 'a'.toNat + 10)
  else if 'A' ≤ c ∧ c ≤ 'F' then some (c.toNat - 'A'.toNat + 10)
  else none

/-- The value of a list of hexadecimal digits. -/
def hexValue? (cs : List Char) : Option Nat :=
  cs.foldlM (fun n c => (hexDigit? c).map (16 * n + ·)) 0

/-- The character of a code point, if it is one. -/
def charOf? (n : Nat) : Option Char :=
  if n.isValidChar then some (Char.ofNat n) else none

/-- A character in front of a text that was read. -/
def addChar (c : Char) (read : List Char × List Char) : List Char × List Char :=
  (c :: read.1, read.2)

end MixedWorkload.Text

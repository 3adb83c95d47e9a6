import MixedWorkload.Text.Combining
import MixedWorkload.Text.Unprintable

/-!
# Quoting a text in a message

Messages show the text they complain about between quotation marks, with a backslash
escape for whatever would not survive being looked at: the quotation mark and the
backslash, the four control characters that have a letter, and by number everything
that is unprintable or would attach to the character before it.
-/

namespace MixedWorkload.Text

/-- The code point of a character in lower-case hexadecimal digits. -/
def hexadecimal (c : Char) : List Char :=
  Nat.toDigits 16 c.toNat

/-- The characters that show `c` between quotation marks. -/
def escape (c : Char) : List Char :=
  if c = Char.ofNat 0 then ['\\', '0']
  else if c = '\t' then ['\\', 't']
  else if c = '\r' then ['\\', 'r']
  else if c = '\n' then ['\\', 'n']
  else if c = '"' ∨ c = '\\' then ['\\', c]
  else if isCombining c || isUnprintable c then ['\\', 'u', '\x7b'] ++ hexadecimal c ++ ['\x7d']
  else [c]

/-- A text between quotation marks. -/
def quoted (s : String) : String :=
  String.ofList (['"'] ++ s.toList.flatMap escape ++ ['"'])

end MixedWorkload.Text

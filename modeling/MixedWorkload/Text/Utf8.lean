/-!
# UTF-8

Turning bytes into text. `MixedWorkload.Text.Utf8.decode` reads one character after
another and gives the text, or else the length of the longest prefix that consists of
whole characters.

Only the shortest form of a character is accepted, and no surrogate: the ranges for the
second byte depend on the first, as in the table of well-formed sequences of the
Unicode standard.
-/

namespace MixedWorkload.Text.Utf8

/-- Whether a byte lies in a range, ends included. -/
def within (low high byte : UInt8) : Bool :=
  decide (low ≤ byte ∧ byte ≤ high)

/-- Whether a byte continues a character. -/
def isTail (byte : UInt8) : Bool :=
  within 0x80 0xBF byte

/-- The six bits that a continuation byte adds. -/
def tailBits (byte : UInt8) : Nat :=
  byte.toNat % 64

/-- The range of the second byte after a first byte that starts a longer character. -/
def secondRange (first : UInt8) : UInt8 × UInt8 :=
  if first = 0xE0 then (0xA0, 0xBF)
  else if first = 0xED then (0x80, 0x9F)
  else if first = 0xF0 then (0x90, 0xBF)
  else if first = 0xF4 then (0x80, 0x8F)
  else (0x80, 0xBF)

/-- Whether a byte may follow the first byte of a longer character. -/
def isSecond (first second : UInt8) : Bool :=
  within (secondRange first).1 (secondRange first).2 second

/-- The character at the start of a list of bytes and the number of bytes it takes. -/
def first? : List UInt8 → Option (Char × Nat)
  | a :: rest =>
    if a < 0x80 then some (Char.ofNat a.toNat, 1)
    else if within 0xC2 0xDF a then match rest with
      | b :: _ => if isTail b then some (Char.ofNat (a.toNat % 32 * 64 + tailBits b), 2) else none
      | [] => none
    else if within 0xE0 0xEF a then match rest with
      | b :: c :: _ =>
        if isSecond a b && isTail c then
          some (Char.ofNat ((a.toNat % 16 * 64 + tailBits b) * 64 + tailBits c), 3)
        else none
      | _ => none
    else if within 0xF0 0xF4 a then match rest with
      | b :: c :: d :: _ =>
        if isSecond a b && isTail c && isTail d then
          some (Char.ofNat
            (((a.toNat % 8 * 64 + tailBits b) * 64 + tailBits c) * 64 + tailBits d), 4)
        else none
      | _ => none
    else none
  | [] => none

/-- A byte sequence that is no text. -/
structure Invalid where
  /-- The number of bytes before the first one that starts no character. -/
  validUpTo : Nat
  deriving DecidableEq, Repr

/-- The characters of the bytes that remain, of which `skip` belong to a character
already read; `position` counts the bytes before the character being looked for. -/
def decodeFrom (position : Nat) : Nat → List UInt8 → Except Invalid (List Char)
  | _, [] => .ok []
  | skip + 1, _ :: bytes => decodeFrom position skip bytes
  | 0, byte :: bytes => match first? (byte :: bytes) with
    | none => .error ⟨position⟩
    | some (c, size) => (decodeFrom (position + size) (size - 1) bytes).map (c :: ·)

/-- The text that a list of bytes encodes. -/
def decode (bytes : List UInt8) : Except Invalid (List Char) :=
  decodeFrom 0 0 bytes

/-- The bytes that encode a text. -/
def encode (s : String) : List UInt8 :=
  s.toUTF8.toList

end MixedWorkload.Text.Utf8

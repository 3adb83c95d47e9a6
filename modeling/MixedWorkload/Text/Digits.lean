import MixedWorkload.Powers

/-!
# Digits and integers

Reading integers written in decimal digits. `MixedWorkload.Text.Digits.value` is the
number that a list of digits denotes; the readers built on it accept an optional sign
and nothing else around the digits, and refuse what does not fit the width asked for.

Digits are the ten ASCII ones. No other script's digits denote a number in the inputs
this library reads.
-/

namespace MixedWorkload.Text

open scoped Powers

namespace Digits

/-- The number a digit denotes. -/
def digit (c : Char) : Nat :=
  c.toNat - '0'.toNat

/-- The number a list of digits denotes, most significant first. -/
def value (ds : List Char) : Nat :=
  ds.foldl (fun n c => 10 * n + digit c) 0

/-- The leading digits of a text, and what follows them. -/
def leading (cs : List Char) : List Char × List Char :=
  (cs.takeWhile Char.isDigit, cs.dropWhile Char.isDigit)

/-- The number denoted by a text that consists of digits, at least one. -/
def read? (cs : List Char) : Option Nat :=
  if !cs.isEmpty && cs.all Char.isDigit then some (value cs) else none

end Digits

/-- A sign at the start of a text: whether it is a minus, and what follows it. -/
def splitSign : List Char → Bool × List Char
  | '-' :: cs => (true, cs)
  | '+' :: cs => (false, cs)
  | cs => (false, cs)

/-- A number below `2 ^ 32`, with an optional plus sign. -/
def readUInt32? (cs : List Char) : Option UInt32 :=
  let digits := match cs with
    | '+' :: ds => ds
    | ds => ds
  (Digits.read? digits).bind fun n =>
    if n < 2 ^ (32 : Nat) then some (UInt32.ofNat n) else none

/-- A number from `-2 ^ 63` to `2 ^ 63 - 1`, with an optional sign. -/
def readInt64? (cs : List Char) : Option Int64 :=
  let (negative, digits) := splitSign cs
  (Digits.read? digits).bind fun n =>
    if negative then if n ≤ 2 ^ (63 : Nat) then some (Int64.ofInt (-(n : Int))) else none
    else if n < 2 ^ (63 : Nat) then some (Int64.ofInt n) else none

end MixedWorkload.Text

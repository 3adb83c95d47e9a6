import MixedWorkload.Binary64.Nearest
import MixedWorkload.Decimal.Shortest
import MixedWorkload.Powers

/-!
# Writing doubles in decimal

Every output of this library prints the shortest digits that read back, and each lays
them out in a way of its own. `MixedWorkload.Decimal.Style` holds what differs: from
which magnitudes on the notation becomes scientific, whether a whole number keeps a
fractional part, how a positive exponent is marked, and which of two equally near
decimals is printed. The outputs define their styles where they are written, so this
module knows none of them.

`MixedWorkload.Decimal.fixed` is the other layout, a given number of places whatever
the magnitude.
-/

namespace MixedWorkload.Decimal

open scoped Powers

/-- How a double is laid out. -/
structure Style where
  /-- A number whose leading exponent is below this is written scientifically. -/
  scientificBelow : Option Int
  /-- A number whose leading exponent is at least this is written scientifically. -/
  scientificFrom : Option Int
  /-- What follows a whole number in positional notation. -/
  wholeSuffix : String
  /-- What stands before a positive exponent. -/
  exponentPlus : String
  /-- Which of two equally near decimals is printed. -/
  tie : Tie

/-- The text of a number that is none. -/
def notANumberText : String := "NaN"

/-- The text of an infinity, without its sign. -/
def infinityText : String := "inf"

/-- A minus sign for a negative number. -/
def signText (negative : Bool) : String :=
  if negative then "-" else ""

/-- Positional notation: all digits, with zeros up to the point and a point where digits
follow it. -/
def positional (wholeSuffix : String) (d : Decimal) : String :=
  let digits := d.digits
  if 0 ≤ d.exponent then
    String.ofList (digits ++ List.replicate d.exponent.toNat '0') ++ wholeSuffix
  else
    let places := (-d.exponent).toNat
    let padded := List.replicate (places + 1 - digits.length) '0' ++ digits
    String.ofList (padded.take (padded.length - places)) ++ "." ++
      String.ofList (padded.drop (padded.length - places))

/-- Scientific notation: the leading digit, the others after a point, and the exponent. -/
def scientific (exponentPlus : String) (d : Decimal) : String :=
  let exponent := d.leadingExponent
  let mantissa := match d.digits with
    | first :: second :: rest => String.ofList (first :: '.' :: second :: rest)
    | digits => String.ofList digits
  mantissa ++ "e" ++ (if 0 ≤ exponent then exponentPlus else "") ++ toString exponent

namespace Style

variable (style : Style)

/-- Whether a number with this leading exponent is written scientifically. -/
def isScientific (exponent : Int) : Bool :=
  style.scientificBelow.any (exponent < ·) || style.scientificFrom.any (· ≤ exponent)

/-- A positive decimal number in this style. -/
def layOut (d : Decimal) : String :=
  if style.isScientific d.leadingExponent then scientific style.exponentPlus d
  else positional style.wholeSuffix d

/-- A double in this style. -/
def render (x : Float) : String :=
  match Binary64.Parts.ofFloat x with
  | .notANumber => notANumberText
  | .infinite negative => signText negative ++ infinityText
  | .finite negative significand scale =>
    signText negative ++
      if significand = 0 then "0" ++ style.wholeSuffix
      else style.layOut (shortest style.tie significand scale)

end Style

/-- A double with a fixed number of places, a half going to the even last digit. -/
def fixed (places : Nat) (x : Float) : String :=
  match Binary64.Parts.ofFloat x with
  | .notANumber => notANumberText
  | .infinite negative => signText negative ++ infinityText
  | .finite negative significand scale =>
    let (num, den) := Binary64.inUnits (significand * 10 ^ places) 1
      (-((scale : Int) + Binary64.leastExponent))
    signText negative ++ positional "" ⟨Binary64.divideToEven num den, -(places : Int)⟩

end MixedWorkload.Decimal

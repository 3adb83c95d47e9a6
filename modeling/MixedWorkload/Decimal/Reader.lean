import MixedWorkload.Binary64.Nearest
import MixedWorkload.Decimal.Basic
import MixedWorkload.Text.Digits

/-!
# Reading doubles

A number is written as an optional sign, digits with at most one point among or around
them, and an optional exponent; or as one of the names of infinity and of no number.
`MixedWorkload.Decimal.readFloat?` accepts exactly these, with nothing around them, and
gives the double nearest to the number that was written.
-/

namespace MixedWorkload.Decimal

open Text

/-- The exponent that a text denotes: none when it is empty, else a letter, an optional
sign and digits. -/
def readExponent? : List Char → Option Int
  | [] => some 0
  | c :: cs =>
    if c = 'e' ∨ c = 'E' then
      let (negative, digits) := splitSign cs
      (Digits.read? digits).map fun n => if negative then -(n : Int) else n
    else none

/-- The decimal number that an unsigned text denotes. -/
def read? (cs : List Char) : Option Decimal :=
  let (whole, rest) := Digits.leading cs
  let (places, rest) := match rest with
    | '.' :: rest => Digits.leading rest
    | rest => ([], rest)
  if whole.isEmpty && places.isEmpty then none
  else (readExponent? rest).map fun exponent =>
    ⟨Digits.value (whole ++ places), exponent - places.length⟩

/-- A number of this leading exponent is above every finite double. -/
def beyondGreatest : Int := 310

/-- A number of this leading exponent is nearer to zero than to any other double. -/
def belowLeast : Int := -330

/-- The double nearest to a decimal number. The two shortcuts keep a huge exponent from
being expanded into digits. -/
def toFloat (d : Decimal) : Float :=
  if d.coefficient = 0 ∨ d.leadingExponent ≤ belowLeast then Binary64.ofMagnitude 0
  else if beyondGreatest ≤ d.leadingExponent then
    Binary64.ofMagnitude Binary64.infiniteMagnitude
  else Binary64.nearest d.fraction.1 d.fraction.2

/-- The values with a name, whose letters may be of either case. -/
def readName? (cs : List Char) : Option Float :=
  match String.ofList (cs.map Char.toLower) with
  | "nan" => some (0.0 / 0.0)
  | "inf" | "infinity" => some (1.0 / 0.0)
  | _ => none

/-- The double that a text denotes. -/
def readFloat? (cs : List Char) : Option Float :=
  let (negative, unsigned) := splitSign cs
  (readName? unsigned <|> (read? unsigned).map toFloat).map (Binary64.withSign negative)

end MixedWorkload.Decimal

import MixedWorkload.Powers

/-!
# Double-precision values as exact binary fractions

A finite double is an integer of at most fifty-three bits times a power of two no
smaller than `2 ^ -1074`. Everything this library prints or reads in decimal goes
through that description, because it turns questions about rounding into questions
about natural numbers.

`MixedWorkload.Binary64.Parts.ofFloat` takes a double apart, and
`MixedWorkload.Binary64.ofMagnitude` puts one together from the *magnitude* of its
bit pattern, the sixty-three bits below the sign. Magnitudes are worth a name: they
count the non-negative doubles in increasing order, so that `m * 2 ^ (e - 1074)` with
`m < 2 ^ 53` has the magnitude `e * 2 ^ 52 + m`, whether it is normal (`2 ^ 52 ≤ m`)
or subnormal (`e = 0`).
-/

namespace MixedWorkload.Binary64

open scoped Powers

/-- The number of significand values below the leading one, `2 ^ 52`. -/
def fractions : Nat := 2 ^ (52 : Nat)

/-- The bit that holds the sign, as a number. -/
def signPlace : Nat := 2 ^ (63 : Nat)

/-- The magnitude of an infinity: an exponent field of all ones and no fraction. -/
def infiniteMagnitude : Nat := 2047 * fractions

/-- Every finite double is a multiple of `2 ^ -1074`, the least subnormal. -/
def leastExponent : Int := -1074

/-- What a double stands for. -/
inductive Parts
  /-- No number. -/
  | notANumber
  /-- An infinity and its sign. -/
  | infinite (negative : Bool)
  /-- The number `significand * 2 ^ (scale - 1074)` and its sign, which a zero has too. -/
  | finite (negative : Bool) (significand scale : Nat)
  deriving DecidableEq, Repr

/-- The value of a double, read off its sign, its exponent field and its fraction. -/
def Parts.ofFloat (x : Float) : Parts :=
  let bits := x.toBits.toNat
  let negative := decide (signPlace ≤ bits)
  let magnitude := bits % signPlace
  if infiniteMagnitude < magnitude then .notANumber
  else if magnitude = infiniteMagnitude then .infinite negative
  else
    let field := magnitude / fractions
    let fraction := magnitude % fractions
    if field = 0 then .finite negative fraction 0
    else .finite negative (fraction + fractions) (field - 1)

/-- The non-negative double with a given place in the order of magnitudes. -/
def ofMagnitude (magnitude : Nat) : Float :=
  Float.ofBits (UInt64.ofNat magnitude)

/-- A magnitude with a sign. -/
def withSign (negative : Bool) (x : Float) : Float :=
  if negative then -x else x

end MixedWorkload.Binary64

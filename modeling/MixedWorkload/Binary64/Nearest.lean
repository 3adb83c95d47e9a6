import MixedWorkload.Binary64.Basic
import MixedWorkload.Powers

/-!
# The double nearest to a fraction

`MixedWorkload.Binary64.nearest` rounds a non-negative fraction of natural numbers to
a double, to the even significand when the fraction lies half-way between two, and to
infinity when it lies beyond the greatest finite one. All of it is exact arithmetic on
natural numbers, so that no intermediate rounding can disturb the last bit.

The only rounding step is `MixedWorkload.Binary64.divideToEven`, the quotient of two
natural numbers rounded to nearest. The rest chooses the scale at which to divide: the
one that leaves a quotient of fifty-three bits, or the least scale there is.
-/

namespace MixedWorkload.Binary64

open scoped Powers

/-- The integer nearest to `num / den`, the even one of two that are equally near. -/
def divideToEven (num den : Nat) : Nat :=
  let quotient := num / den
  let remainder := num % den
  if den < 2 * remainder ∨ (2 * remainder = den ∧ quotient % 2 = 1) then quotient + 1
  else quotient

/-- The fraction `num / den` measured in units of `2 ^ exponent`, again as a fraction. -/
def inUnits (num den : Nat) (exponent : Int) : Nat × Nat :=
  (num * 2 ^ (-exponent).toNat, den * 2 ^ exponent.toNat)

/-- The exponent of the unit in the last place of a double near `num / den`. -/
def unitExponent (num den : Nat) : Int :=
  let guess := max ((num.log2 : Int) - (den.log2 : Int) - 53) leastExponent
  let (n, d) := inUnits num den guess
  if 2 * fractions ≤ n / d then guess + 1 else guess

/-- The magnitude of the double nearest to `num / den`, where `den` is positive. -/
def nearestMagnitude (num den : Nat) : Nat :=
  if num = 0 then 0
  else
    let exponent := unitExponent num den
    let (n, d) := inUnits num den exponent
    min ((exponent - leastExponent).toNat * fractions + divideToEven n d) infiniteMagnitude

/-- The double nearest to the fraction `num / den`, where `den` is positive. -/
def nearest (num den : Nat) : Float :=
  ofMagnitude (nearestMagnitude num den)

end MixedWorkload.Binary64

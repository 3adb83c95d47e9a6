import MixedWorkload.Powers

/-!
# Decimal numbers

A decimal number is an integer coefficient and a power of ten. This is the form in
which numbers are read and written: the printer of `MixedWorkload.Decimal.Style`
lays one out as text, and the reader of `MixedWorkload.Decimal.Reader` finds one in a
text and rounds it to a double.
-/

namespace MixedWorkload

/-- The number `coefficient * 10 ^ exponent`. -/
structure Decimal where
  /-- The significant digits, as one number. -/
  coefficient : Nat
  /-- The power of ten that scales them. -/
  exponent : Int
  deriving DecidableEq, Repr

namespace Decimal

open scoped Powers

/-- The digits of the coefficient, most significant first. -/
def digits (d : Decimal) : List Char :=
  Nat.toDigits 10 d.coefficient

/-- The power of ten of the leading digit: `3` for `1234.5`. -/
def leadingExponent (d : Decimal) : Int :=
  d.exponent + d.digits.length - 1

/-- The number as a fraction of natural numbers, the second one positive. -/
def fraction (d : Decimal) : Nat × Nat :=
  (d.coefficient * 10 ^ d.exponent.toNat, 10 ^ (-d.exponent).toNat)

end Decimal

end MixedWorkload

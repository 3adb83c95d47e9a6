import MixedWorkload.Binary64.Basic
import MixedWorkload.Decimal.Basic
import MixedWorkload.Powers

/-!
# The shortest decimal that reads back

A positive double `m * 2 ^ q` is the nearest double to every real number of an
interval around it: half a unit in the last place on either side, or a quarter below
when the double is the first of its binade. The ends belong to the interval exactly
when `m` is even, since a reader rounds half-way cases to even.

`MixedWorkload.Decimal.shortest` finds the decimal with the fewest digits in that
interval, and among those the one nearest to the double. It walks the decimal grids,
the multiples of `10 ^ k`, from a coarse one to finer ones, and stops at the first
grid on which one of the two neighbours of the double lies in the interval. On a
grid that is fine enough the double itself is such a neighbour, so the walk has a
last step, and it is always within reach.

Two neighbours may be equally near. Formats differ on which one they print, so
`MixedWorkload.Decimal.Tie` is a parameter.
-/

namespace MixedWorkload.Decimal

open scoped Powers

/-- Which of two equally near decimals is printed. -/
inductive Tie
  /-- The one with an even last digit. -/
  | toEven
  /-- The one farther from zero. -/
  | awayFromZero
  deriving DecidableEq, Repr

/-- A positive double with the interval of reals that round to it, all measured in
quarters of the unit in its last place: the value is `middle * 2 ^ unit`. -/
structure Interval where
  /-- The lower end. -/
  low : Nat
  /-- The double itself. -/
  middle : Nat
  /-- The upper end. -/
  high : Nat
  /-- The power of two that is the unit of measure. -/
  unit : Int
  /-- Whether the ends belong to the interval. -/
  closed : Bool
  deriving Repr

/-- The interval of the double `significand * 2 ^ (scale - 1074)`. -/
def Interval.around (significand scale : Nat) : Interval where
  low := 4 * significand - (if significand = Binary64.fractions ∧ 0 < scale then 1 else 2)
  middle := 4 * significand
  high := 4 * significand + 2
  unit := (scale : Int) + Binary64.leastExponent - 2
  closed := decide (significand % 2 = 0)

namespace Interval

variable (r : Interval)

/-- Numerator and denominator of the unit of measure over the grid's step `10 ^ k`. -/
def perStep (k : Int) : Nat × Nat :=
  (2 ^ r.unit.toNat * 10 ^ (-k).toNat, 2 ^ (-r.unit).toNat * 10 ^ k.toNat)

/-- Whether the multiple `c * 10 ^ k` lies in the interval. -/
def contains (c : Nat) (k : Int) : Bool :=
  let (num, den) := r.perStep k
  if r.closed then decide (r.low * num ≤ c * den ∧ c * den ≤ r.high * num)
  else decide (r.low * num < c * den ∧ c * den < r.high * num)

/-- The multiple of `10 ^ k` next below the double, or the double itself. -/
def below (k : Int) : Nat :=
  let (num, den) := r.perStep k
  r.middle * num / den

/-- The nearer to the double of `c` and `c + 1`, its two neighbours on the grid `10 ^ k`. -/
def nearer (tie : Tie) (c : Nat) (k : Int) : Nat :=
  let (num, den) := r.perStep k
  match compare (2 * (r.middle * num)) ((2 * c + 1) * den) with
  | .lt => c
  | .gt => c + 1
  | .eq => match tie with
    | .awayFromZero => c + 1
    | .toEven => if c % 2 = 0 then c else c + 1

/-- The neighbour on the grid `10 ^ k` that is printed, if one lies in the interval. -/
def hit? (tie : Tie) (k : Int) : Option Nat :=
  let c := r.below k
  match decide (0 < c) && r.contains c k, r.contains (c + 1) k with
  | true, true => some (r.nearer tie c k)
  | true, false => some c
  | false, true => some (c + 1)
  | false, false => none

/-- The first hit on the grids from `10 ^ k` down, `steps` grids above one that holds
the double itself. -/
def search (tie : Tie) (k : Int) : Nat → Decimal
  | 0 => ⟨r.below k, k⟩
  | steps + 1 => match r.hit? tie k with
    | some c => ⟨c, k⟩
    | none => search tie (k - 1) steps

/-- A grid whose step is above the interval: `2 ^ n` is below the power of ten with
exponent `n * 0.30103`, rounded up, and `0.30103` is just above the logarithm of two. -/
def coarsest : Int :=
  ((r.high.log2 : Int) + 1 + r.unit) * 30103 / 100000 + 2

/-- A grid that holds the double: `2 ^ -n` is a multiple of `10 ^ -n`. -/
def finest : Int :=
  min r.unit 0

end Interval

/-- The decimal with the fewest digits among those nearer to the positive double
`significand * 2 ^ (scale - 1074)` than to any other, and the nearest of these. -/
def shortest (tie : Tie) (significand scale : Nat) : Decimal :=
  let r := Interval.around significand scale
  r.search tie r.coarsest (r.coarsest - r.finest).toNat

end MixedWorkload.Decimal

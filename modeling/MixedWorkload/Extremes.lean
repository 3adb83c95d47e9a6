/-!
# Least and greatest of a list of doubles

Extremes are taken over whatever numbers a list holds: a value that is no number is
passed over. `MixedWorkload.least` starts from infinity and `MixedWorkload.greatest` from
minus infinity, so a list without a number has these as its extremes, and the distance
between them is then negative or no number, never a length.
-/

namespace MixedWorkload

/-- The positive infinity. -/
def infinity : Float := 1.0 / 0.0

/-- The smaller of two values. If one is no number it is the other, and of two equal
values it is the second, which can be told only from the sign of a zero. -/
def lesser (x y : Float) : Float :=
  if y.isNaN || x < y then x else y

/-- The larger of two values. If one is no number it is the other, and of two equal
values it is the second, which can be told only from the sign of a zero. -/
def greater (x y : Float) : Float :=
  if y.isNaN || y < x then x else y

/-- The least number of a list. -/
def least (xs : List Float) : Float :=
  xs.foldl lesser infinity

/-- The greatest number of a list. -/
def greatest (xs : List Float) : Float :=
  xs.foldl greater (-infinity)

/-- The distance between the least and the greatest number of a list. -/
def span (xs : List Float) : Float :=
  greatest xs - least xs

end MixedWorkload

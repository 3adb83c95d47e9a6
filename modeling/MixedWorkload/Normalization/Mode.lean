import MixedWorkload.Config.Basic
import MixedWorkload.Decimal.Reader
import MixedWorkload.Text.Blank

/-!
# How latencies are rescaled

A latency is corrected for the growth of the database in one of two ways. The
*subtractive* mode takes off what the growth since the start of the run has added. The
*divisive* mode divides by the size of the database, which is the scale factor it started
with plus its growth, and so makes runs on databases of different size comparable.

A `MixedWorkload.ScaleFactor` is a positive finite number, by construction.
-/

namespace MixedWorkload

/-- The size of the database at the start of a run. -/
structure ScaleFactor where
  /-- The size. -/
  value : Float
  /-- A size is a positive finite number. -/
  isPositive : Config.isPositive value = true

namespace ScaleFactor

/-- The scale factor of a given size. -/
def ofFloat (x : Float) : Except Error ScaleFactor :=
  if h : Config.isPositive x = true then .ok ⟨x, h⟩ else .error (.config (.scaleFactor x))

/-- The scale factor that a text denotes, blanks around it ignored. -/
def ofText (s : String) : Except Error ScaleFactor :=
  match Decimal.readFloat? (Text.trim s.toList) with
  | some x => ofFloat x
  | none => .error (.config (.scaleFactorText s))

/-- The scale factor as it stands in a sentence. -/
def text (s : ScaleFactor) : String :=
  Error.number.render s.value

end ScaleFactor

/-- How latencies are rescaled. -/
inductive NormalizationMode
  /-- By taking off the growth, and lifting what falls below zero. -/
  | subtractive
  /-- By dividing by the size of the database. -/
  | divisive (scaleFactor : ScaleFactor)

namespace NormalizationMode

/-- A scale factor calls for the divisive mode. -/
def ofScaleFactor? : Option ScaleFactor → NormalizationMode
  | none => .subtractive
  | some s => .divisive s

/-- The scale factor of a mode that has one. -/
def scaleFactor? : NormalizationMode → Option ScaleFactor
  | .subtractive => none
  | .divisive s => some s

end NormalizationMode

end MixedWorkload

import MixedWorkload.Error

/-!
# The settings of an analysis

A configuration says which transactions are analytical, which one is NewOrder, and how
wide a throughput bin is. `MixedWorkload.Config.validate` checks what the rest of the
library relies on: the range is not empty, NewOrder lies outside it, and the width is a
positive finite number.

Settings come in layers. A `MixedWorkload.Config.Layer` holds the settings that one
source has an opinion on, and `MixedWorkload.Config.Layer.over` lays it over a
configuration: what the layer sets replaces what was there, and the rest shows through.
-/

namespace MixedWorkload

/-- The settings of an analysis. -/
structure Config where
  /-- The type counted as NewOrder. -/
  newOrderId : TransactionType
  /-- The analytical types. -/
  range : AnalyticalRange
  /-- The width of a throughput bin in seconds. -/
  binWidth : Float

namespace Config

/-- The settings of the benchmark as it is usually run. -/
def standard : Config := ⟨2, .standard, 5.0⟩

instance : Inhabited Config := ⟨standard⟩

/-- Whether a double is a positive finite number. -/
def isPositive (x : Float) : Bool :=
  x.isFinite && !(x ≤ 0.0)

/-- The first thing that is wrong with the settings, if any is. -/
def fault? (c : Config) : Option ConfigFault :=
  if c.range.upper < c.range.lower then some (.emptyRange c.range)
  else if c.range.contains c.newOrderId then some (.analyticalNewOrder c.newOrderId c.range)
  else if !isPositive c.binWidth then some (.binWidth c.binWidth)
  else none

/-- The settings again, or the first thing that is wrong with them. -/
def validate (c : Config) : Except Error Config :=
  match c.fault? with
  | some fault => .error (.config fault)
  | none => .ok c

/-- The settings that one source gives. -/
structure Layer where
  /-- The type counted as NewOrder, if given. -/
  newOrderId : Option TransactionType
  /-- The least analytical type, if given. -/
  lower : Option TransactionType
  /-- The greatest analytical type, if given. -/
  upper : Option TransactionType
  /-- The width of a throughput bin, if given. -/
  binWidth : Option Float

/-- The configuration with the settings of a layer in place of its own. -/
def Layer.over (l : Layer) (c : Config) : Config where
  newOrderId := l.newOrderId.getD c.newOrderId
  range := ⟨l.lower.getD c.range.lower, l.upper.getD c.range.upper⟩
  binWidth := l.binWidth.getD c.binWidth

end Config

end MixedWorkload

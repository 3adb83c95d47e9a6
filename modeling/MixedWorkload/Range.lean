/-!
# Transaction types and the analytical range

The workload mixes two kinds of transactions, told apart by a number. The analytical
queries are those whose number lies in a range; among the others one type, NewOrder,
drives the growth of the database and is the unit of transactional throughput.

Inside the range a query is known by its position. `MixedWorkload.AnalyticalRange.indexOf`
counts positions from zero and `MixedWorkload.AnalyticalRange.queryNumber` from one, so
that the least analytical type is query `Q1`. Positions are computed in the arithmetic
of the type numbers, thirty-two bits wide. It wraps only for the range of all types,
which leaves no type for NewOrder.
-/

namespace MixedWorkload

/-- The number of a kind of transaction. -/
abbrev TransactionType := UInt32

/-- An inclusive range of transaction types. -/
structure AnalyticalRange where
  /-- The least analytical type. -/
  lower : TransactionType
  /-- The greatest analytical type. -/
  upper : TransactionType
  deriving DecidableEq, Repr

namespace AnalyticalRange

/-- The range of the benchmark's own twenty-two queries. -/
def standard : AnalyticalRange := ⟨7, 28⟩

instance : Inhabited AnalyticalRange := ⟨standard⟩

variable (r : AnalyticalRange)

/-- Whether a type is analytical. -/
def contains (t : TransactionType) : Bool :=
  decide (r.lower ≤ t ∧ t ≤ r.upper)

/-- The number of types in the range. -/
def queryCount : Nat :=
  if r.upper < r.lower then 0 else (r.upper - r.lower + 1).toNat

/-- The position of an analytical type, counted from zero. -/
def indexOf (t : TransactionType) : Option Nat :=
  if r.contains t then some (t - r.lower).toNat else none

/-- The position of an analytical type, counted from one. -/
def queryNumber (t : TransactionType) : Option UInt32 :=
  (r.indexOf t).map fun index => UInt32.ofNat index + 1

end AnalyticalRange

end MixedWorkload

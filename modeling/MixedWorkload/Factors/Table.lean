import MixedWorkload.Factors.Override

/-!
# The table of normalization factors

Each analytical query has a factor, the seconds that its latency grows by for every
NewOrder transaction before it. `MixedWorkload.FactorTable.resolve` makes the table for a
range of queries from an override or, without one, from the built-in factors. It accepts
a table only if it has one factor for each query and every factor is finite and not
negative; so the correction that the factors describe never lengthens a latency.
-/

namespace MixedWorkload

/-- The factors of the queries in a range, in the order of their types. -/
structure FactorTable where
  /-- The analytical types. -/
  range : AnalyticalRange
  /-- One factor for each of them. -/
  factors : List Float

namespace FactorTable

/-- The built-in factors of the twenty-two queries, in seconds per NewOrder. -/
def builtIn : List Float :=
  [1.82e-5, 2.10e-6, 9.40e-6, 1.16e-5, 7.30e-6, 6.20e-6, 8.10e-6, 9.90e-6, 1.37e-5,
   1.04e-5, 1.30e-6, 7.70e-6, 4.60e-6, 5.80e-6, 6.90e-6, 3.20e-6, 5.10e-6, 1.55e-5,
   6.40e-6, 3.90e-6, 1.21e-5, 2.40e-6]

/-- The built-in table. -/
def reference : FactorTable := ⟨.standard, builtIn⟩

/-- The table that corrects nothing. -/
def zeros (range : AnalyticalRange) : FactorTable :=
  ⟨range, List.replicate range.queryCount 0.0⟩

variable (t : FactorTable)

/-- The factor of a type, zero for one that has none. -/
def factorFor (type : TransactionType) : Float :=
  ((t.range.indexOf type).bind fun index => t.factors[index]?).getD 0.0

/-- The number of factors. -/
def length : Nat :=
  t.factors.length

/-- Whether there is no factor. -/
def isEmpty : Bool :=
  t.factors.isEmpty

/-! ### Making a table -/

/-- Whether a factor is acceptable. -/
def isFactor (x : Float) : Bool :=
  x.isFinite && !(x < 0.0)

/-- The first factor that is not acceptable and its query, where the first factor belongs
to the query `query`. -/
def firstFault? (query : Nat) : List Float → Option ConfigFault
  | [] => none
  | x :: xs => if isFactor x then firstFault? (query + 1) xs else some (.factor query x)

/-- The factor under an offset. -/
def lookUp (entries : List (UInt32 × Float)) (offset : Nat) : Except Error Float :=
  match entries.find? fun entry => entry.1.toNat == offset with
  | some entry => .ok entry.2
  | none => .error (.config (.missingFactor offset))

/-- The factors under a number of offsets from a first one on. The first that is missing
ends the search, however many there are to come. -/
def lookUpFrom (entries : List (UInt32 × Float)) (offset : Nat) :
    (queries : Nat) → Except Error (List Float)
  | 0 => .ok []
  | queries + 1 => do
    let factor ← lookUp entries offset
    let factors ← lookUpFrom entries (offset + 1) queries
    return factor :: factors

/-- One factor for each of a number of queries, not yet looked at. -/
def choose (queries : Nat) : FactorOverride → Except Error (List Float)
  | .none =>
    if queries = builtIn.length then .ok builtIn
    else .error (.config (.builtInFactorCount builtIn.length queries))
  | .sequence factors =>
    if factors.length = queries then .ok factors
    else .error (.config (.factorCount queries factors.length))
  | .mapping entries =>
    match entries.find? fun entry => entry.1 == 0 || decide (queries < entry.1.toNat) with
    | some entry => .error (.config (.offsetOutside entry.1 queries))
    | none => lookUpFrom entries 1 queries

/-- The table for a range of queries. -/
def resolve (override : FactorOverride) (range : AnalyticalRange) :
    Except Error FactorTable := do
  let factors ← choose range.queryCount override
  match firstFault? 1 factors with
  | some fault => .error (.config fault)
  | none => return ⟨range, factors⟩

end FactorTable

end MixedWorkload

import MixedWorkload.Metrics
import MixedWorkload.Proofs.Extremes

/-!
# The metrics of a list of records

The library computes its metrics in stages, and each stage hands the next one what it
derived. Here they are defined from the list of records alone, the way one would explain
them: each analytical record has a value, its latency corrected by the number of NewOrders
at or above its place in the log; the mean of a query is the mean of its values; and the
headline metrics are sums, products and quotients of these means and of counts of records.

`MixedWorkload.Scheme` holds what the definition depends on besides the records, and
`MixedWorkload.Scheme.metrics` is the definition. It is given the list of the analytical
types that occur, which `MixedWorkload.Scheme.IsTypeList` describes and which is determined
by that (`MixedWorkload.Scheme.IsTypeList.unique`).

Sums and products are those of doubles, so their order is part of the definition: values
are added in the order of the log and means in the order of the types.
-/

namespace MixedWorkload

/-- **Ascending types are determined by which ones they are.** -/
theorem eq_of_ascending {types types' : List TransactionType} (h : types.Pairwise (· < ·))
    (h' : types'.Pairwise (· < ·)) (hmem : ∀ t, t ∈ types ↔ t ∈ types') : types = types' := by
  have hnodup {l : List TransactionType} (hl : l.Pairwise (· < ·)) : l.Nodup :=
    hl.imp UInt32.ne_of_lt
  have hperm : types.Perm types' :=
    (List.perm_ext_iff_of_nodup (hnodup h) (hnodup h')).mpr hmem
  refine hperm.eq_of_pairwise (fun a b _ _ hab hba => ?_) h h'
  exact absurd (UInt32.lt_trans hab hba) (UInt32.lt_irrefl a)

/-- What the metrics of a list of records depend on. -/
structure Scheme where
  /-- The analytical types and their factors. -/
  table : FactorTable
  /-- How latencies are rescaled. -/
  mode : NormalizationMode
  /-- The type that counts as NewOrder. -/
  newOrderId : TransactionType

namespace Scheme

variable (σ : Scheme) (rs : List TimingRecord)

/-! ### Corrected values -/

/-- A type is analytical if it lies in the range, both ends included. -/
def IsAnalytical (t : TransactionType) : Prop :=
  σ.table.range.lower ≤ t ∧ t ≤ σ.table.range.upper

instance : DecidablePred σ.IsAnalytical :=
  fun _ => inferInstanceAs (Decidable (_ ∧ _))

/-- The factor of an analytical type, which stands at its place in the range. -/
def factor (t : TransactionType) : Float :=
  σ.table.factors.getD (t.toNat - σ.table.range.lower.toNat) 0.0

/-- The number of NewOrders at or above a place in the log. -/
def newOrdersThrough (i : ℕ) : ℕ :=
  (rs.take (i + 1)).countP fun r => r.type == σ.newOrderId

/-- The records, each with the number of NewOrders at or above it. -/
def counted : List (TimingRecord × ℕ) :=
  rs.mapIdx fun i r => (r, σ.newOrdersThrough rs i)

/-- The analytical records among them. -/
def queries : List (TimingRecord × ℕ) :=
  (σ.counted rs).filter fun p => σ.IsAnalytical p.1.type

/-- The latency of an analytical record without the growth of the database. -/
def rescaled (p : TimingRecord × ℕ) : Float :=
  match σ.mode with
  | .subtractive => p.1.latency - σ.factor p.1.type * p.2.toFloat
  | .divisive s => p.1.latency / (s.value + σ.factor p.1.type * p.2.toFloat)

/-- What all values are reduced by: in the subtractive mode the least of them, if it is
negative. -/
def shift? : Option Float :=
  match σ.mode with
  | .subtractive => (leastNumber? ((σ.queries rs).map σ.rescaled)).filter (· < 0.0)
  | .divisive _ => none

/-- **The corrected latency** of an analytical record. -/
def value (p : TimingRecord × ℕ) : Float :=
  match σ.shift? rs with
  | some low => σ.rescaled p - low
  | none => σ.rescaled p

/-! ### Means -/

/-- The corrected latencies of one type, in the order of the log. -/
def valuesOf (t : TransactionType) : List Float :=
  ((σ.queries rs).filter fun p => p.1.type == t).map (σ.value rs)

/-- **The mean latency** of one type. -/
def meanOf (t : TransactionType) : Float :=
  (σ.valuesOf rs t).foldl (· + ·) 0.0 / (rs.countP fun r => r.type == t).toFloat

/-- A list of types is that of the analytical types that occur, each of them once and in
ascending order. -/
structure IsTypeList (types : List TransactionType) : Prop where
  /-- The types ascend. -/
  ascending : types.Pairwise (· < ·)
  /-- They are the analytical ones that occur. -/
  mem_iff : ∀ t, t ∈ types ↔ σ.IsAnalytical t ∧ ∃ r ∈ rs, r.type = t

/-! ### The metrics -/

/-- The time between the least and the greatest start, zero if no start is a number. -/
def duration : Float :=
  match leastNumber? (rs.map TimingRecord.start), greatestNumber? (rs.map TimingRecord.start) with
  | some first, some last => last - first
  | _, _ => 0.0

/-- NewOrders per minute, zero without a positive duration. -/
def throughput : Float :=
  if 0.0 < duration rs then
    (rs.countP fun r => r.type == σ.newOrderId).toFloat / duration rs * 60.0
  else 0.0

/-- The number of different workers that executed an analytical record. -/
def workers : ℕ :=
  ((rs.filter fun r => σ.IsAnalytical r.type).map TimingRecord.worker).toFinset.card

/-- The sum of the mean latencies. Adding to the negative zero changes nothing, so the sum
starts there. -/
def setTime (types : List TransactionType) : Float :=
  (types.map (σ.meanOf rs)).foldl (· + ·) (-0.0)

/-- Queries per hour, by the number of all types in the range. -/
def perHour (types : List TransactionType) : Float :=
  3600.0 / σ.setTime rs types *
    (σ.table.range.upper.toNat - σ.table.range.lower.toNat + 1).toFloat

/-- **The metrics of a list of records**, by a given power function. -/
def metrics (power : Float → Float → Float) (types : List TransactionType) : Metrics where
  transactionalThroughput := σ.throughput rs
  geometricMeanLatency :=
    power ((types.map (σ.meanOf rs)).foldl (· * ·) 1.0) (1.0 / types.length.toFloat)
  querySetTime := σ.setTime rs types
  queriesPerHour := σ.perHour rs types
  effectiveQueriesPerHour := σ.perHour rs types * (σ.workers rs).toFloat

/-! ### The definition is one -/

variable {σ rs}

/-- **There is one list of types only.** -/
theorem IsTypeList.unique {types types' : List TransactionType} (h : σ.IsTypeList rs types)
    (h' : σ.IsTypeList rs types') : types = types' :=
  eq_of_ascending h.ascending h'.ascending fun t => (h.mem_iff t).trans (h'.mem_iff t).symm

end Scheme

end MixedWorkload

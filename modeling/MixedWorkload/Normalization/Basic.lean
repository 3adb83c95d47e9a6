import MixedWorkload.Factors.Table
import MixedWorkload.Log.Basic
import MixedWorkload.Normalization.Mode

/-!
# Normalized logs

Analytical queries slow down as the transactional load grows the database. Normalization
corrects the latency of each of them by the factor of its query, weighted with the number
of NewOrder transactions up to it.

The pass keeps the log as it is and adds to every record what it derived:
`MixedWorkload.annotate` walks down the log with the running count of NewOrders. In the
subtractive mode a correction may overshoot, and `MixedWorkload.liftAll` then raises *all*
analytical latencies by the same amount, the one that brings the least of them to zero.
The order between latencies, of one query or of different ones, stays as it was.
-/

namespace MixedWorkload

/-- A record with what normalization derives for it. -/
structure NormalizedRecord where
  /-- The record itself. -/
  record : TimingRecord
  /-- The number of NewOrders up to and including this record. -/
  newOrders : Nat
  /-- The corrected latency, or the latency itself if the record is not analytical. -/
  latency : Float
  /-- Whether the record is an analytical query. -/
  analytical : Bool

/-- A log with what normalization derives for each record. -/
structure NormalizedLog where
  /-- The records in the order of the log. -/
  records : List NormalizedRecord
  /-- The types that count as analytical. -/
  range : AnalyticalRange
  /-- The type that counts as NewOrder. -/
  newOrderId : TransactionType
  /-- How latencies were rescaled. -/
  mode : NormalizationMode
  /-- The amount by which the analytical latencies were raised. -/
  correction : Float

namespace NormalizedLog

variable (log : NormalizedLog)

/-- The analytical records in the order of the log. -/
def analytical : List NormalizedRecord :=
  log.records.filter NormalizedRecord.analytical

/-- The number of records. -/
def length : Nat :=
  log.records.length

/-- Whether there is no record. -/
def isEmpty : Bool :=
  log.records.isEmpty

/-- The start times in the order of the log. -/
def starts : List Float :=
  log.records.map fun r => r.record.start

/-- The NewOrder records in the order of the log. -/
def newOrders : List NormalizedRecord :=
  log.records.filter fun r => r.record.type == log.newOrderId

end NormalizedLog

/-! ### The pass over the log -/

/-- A latency corrected by a weight, the factor of its query times the NewOrders so far. -/
def NormalizationMode.rescale (mode : NormalizationMode) (latency weight : Float) : Float :=
  match mode with
  | .subtractive => latency - weight
  | .divisive s => latency / (s.value + weight)

section Pass

variable (table : FactorTable) (mode : NormalizationMode) (newOrderId : TransactionType)

/-- What normalization derives for one record, given the NewOrders up to it. -/
def normalizeRecord (newOrders : Nat) (r : TimingRecord) : NormalizedRecord :=
  let analytical := table.range.contains r.type
  ⟨r, newOrders,
    if analytical then
      mode.rescale r.latency (table.factorFor r.type * newOrders.toFloat)
    else r.latency,
    analytical⟩

/-- What normalization derives for the records of a log, before any lifting, given the
NewOrders above them. -/
def annotate (newOrders : Nat) : List TimingRecord → List NormalizedRecord
  | [] => []
  | r :: rs =>
    let newOrders := if r.type = newOrderId then newOrders + 1 else newOrders
    normalizeRecord table mode newOrders r :: annotate newOrders rs

end Pass

/-! ### Lifting -/

/-- The least latency of the analytical records in a list. -/
def leastLatency (rs : List NormalizedRecord) : Float :=
  least ((rs.filter NormalizedRecord.analytical).map NormalizedRecord.latency)

/-- The records with every analytical latency reduced by an amount. -/
def liftAll (amount : Float) (rs : List NormalizedRecord) : List NormalizedRecord :=
  rs.map fun r => if r.analytical then { r with latency := r.latency - amount } else r

/-- The records with their analytical latencies raised so that none is negative, and the
amount they were raised by. -/
def liftNegative (rs : List NormalizedRecord) : List NormalizedRecord × Float :=
  let low := leastLatency rs
  if low.isNaN || low ≥ 0.0 then (rs, 0.0) else (liftAll low rs, -low)

/-- The normalized log. -/
def TimingLog.normalize (log : TimingLog) (table : FactorTable) (mode : NormalizationMode)
    (newOrderId : TransactionType) : NormalizedLog :=
  let annotated := annotate table mode newOrderId 0 log.records
  let (records, correction) := match mode with
    | .subtractive => liftNegative annotated
    | .divisive _ => (annotated, 0.0)
  ⟨records, table.range, newOrderId, mode, correction⟩

end MixedWorkload

import MixedWorkload.Extremes
import MixedWorkload.Range

/-!
# Timing logs

A timing log is the list of the transactions that a benchmark run executed, in the order
in which the driver wrote them down. Order matters: how much the database has grown when
a query runs is told by the NewOrder transactions above it in the log.

Times are in seconds. Start times count from the earliest start of the log.
-/

namespace MixedWorkload

/-- The name of a worker. -/
abbrev WorkerId := String

/-- One executed transaction. -/
structure TimingRecord where
  /-- What was executed. -/
  type : TransactionType
  /-- When it started, in seconds from the start of the log. -/
  start : Float
  /-- How long it took, in seconds. -/
  latency : Float
  /-- Who executed it. -/
  worker : WorkerId
  /-- The phase of the run it belongs to. -/
  phase : Int64

/-- The executed transactions in the order of the log. -/
structure TimingLog where
  /-- The transactions. -/
  records : List TimingRecord

namespace TimingLog

variable (log : TimingLog)

/-- The number of records. -/
def length : Nat :=
  log.records.length

/-- Whether there is no record. -/
def isEmpty : Bool :=
  log.records.isEmpty

/-- The number of records of one type. -/
def countOf (t : TransactionType) : Nat :=
  log.records.countP fun r => r.type == t

/-- The start times in the order of the log. -/
def starts : List Float :=
  log.records.map TimingRecord.start

/-- The time between the first and the last start, zero for an empty log. -/
def duration : Float :=
  if log.isEmpty then 0.0 else span log.starts

end TimingLog

end MixedWorkload

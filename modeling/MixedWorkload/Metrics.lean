import MixedWorkload.Groups

/-!
# The headline metrics

Five numbers sum up a run: the throughput of NewOrder transactions, the geometric mean of
the queries' mean latencies, the time that one execution of every query takes, and how
many queries that makes in an hour, for one worker and for all of them.

The geometric mean is a root of a product. Roots of doubles come from the mathematical
library of the machine, about which nothing can be proved, so
`MixedWorkload.geometricMeanBy` takes the power function as a parameter and
`MixedWorkload.geometricMean` supplies the machine's.
-/

namespace MixedWorkload

/-- How mean latencies that are not positive are treated by the geometric mean. -/
inductive MeanPolicy
  /-- They are factors like all others, and a zero makes the mean zero. -/
  | permissive
  /-- They are refused. -/
  | strict
  deriving DecidableEq, Repr

/-- The five metrics of a run. -/
structure Metrics where
  /-- NewOrder transactions per minute. -/
  transactionalThroughput : Float
  /-- The geometric mean of the mean latencies of the queries. -/
  geometricMeanLatency : Float
  /-- The sum of the mean latencies of the queries. -/
  querySetTime : Float
  /-- Queries per hour when the query set runs back to back. -/
  queriesPerHour : Float
  /-- The same for all workers. -/
  effectiveQueriesPerHour : Float

/-! ### Throughput -/

/-- Whether a run time is a length that can be divided by. -/
def isRunTime (x : Float) : Bool :=
  !(x.isNaN || x ≤ 0.0)

/-- NewOrder transactions per minute, zero for a run without a measurable duration. -/
def NormalizedLog.throughput (log : NormalizedLog) : Float :=
  let runTime := span log.starts
  if isRunTime runTime then log.newOrders.length.toFloat / runTime * 60.0 else 0.0

/-! ### Means -/

/-- The product of a list in its order, starting from one. -/
def product (xs : List Float) : Float :=
  xs.foldl (· * ·) 1.0

/-- Whether a mean latency is positive. -/
def isPositiveMean (x : Float) : Bool :=
  !(x.isNaN || x ≤ 0.0)

/-- The first group whose mean latency is not positive. -/
def QueryGroups.firstNonPositive? (q : QueryGroups) : Option QueryGroup :=
  q.groups.find? fun g => !isPositiveMean g.meanLatency

/-- The geometric mean of the mean latencies, by a given power function. -/
def geometricMeanBy (power : Float → Float → Float) (policy : MeanPolicy)
    (q : QueryGroups) : Except Error Float :=
  let root := power (product q.meanLatencies) (1.0 / q.length.toFloat)
  if q.isEmpty then .error (.insufficientData .noGroups)
  else match policy, q.firstNonPositive? with
    | .strict, some g => .error (.domain (.meanLatency g.queryNumber g.type g.meanLatency))
    | _, _ => .ok root

/-- The geometric mean of the mean latencies. -/
def geometricMean (policy : MeanPolicy) (q : QueryGroups) : Except Error Float :=
  geometricMeanBy Float.pow policy q

/-- The time of one execution of every query, the sum of the mean latencies. The sum of
no summands is the negative zero, which is what adding changes nothing. -/
def querySetTime (q : QueryGroups) : Float :=
  q.meanLatencies.foldl (· + ·) (-0.0)

/-- The queries that fit into an hour if one execution of all of them takes a given time. -/
def queriesPerHour (querySetTime : Float) (queries : Nat) : Float :=
  60.0 * 60.0 / querySetTime * queries.toFloat

/-- The queries per hour of a number of workers. -/
def effectiveQueriesPerHour (queriesPerHour : Float) (workers : Nat) : Float :=
  queriesPerHour * workers.toFloat

/-! ### All of them -/

/-- The metrics of a normalized log and its groups, by a given power function. Queries per
hour count the full range of queries, whether or not each of them occurs. -/
def Metrics.computeBy (power : Float → Float → Float) (range : AnalyticalRange)
    (policy : MeanPolicy) (log : NormalizedLog) (q : QueryGroups) : Except Error Metrics := do
  let mean ← geometricMeanBy power policy q
  let setTime := MixedWorkload.querySetTime q
  let perHour := MixedWorkload.queriesPerHour setTime range.queryCount
  return {
    transactionalThroughput := log.throughput
    geometricMeanLatency := mean
    querySetTime := setTime
    queriesPerHour := perHour
    effectiveQueriesPerHour := MixedWorkload.effectiveQueriesPerHour perHour q.distinctWorkers }

/-- The metrics of a normalized log and its groups. -/
def Metrics.compute (range : AnalyticalRange) (policy : MeanPolicy) (log : NormalizedLog)
    (q : QueryGroups) : Except Error Metrics :=
  Metrics.computeBy Float.pow range policy log q

end MixedWorkload

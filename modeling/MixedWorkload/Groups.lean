import MixedWorkload.Error
import MixedWorkload.Keyed
import MixedWorkload.Normalization.Basic

/-!
# Query groups

The analytical records of a log, grouped by type. `MixedWorkload.QueryGroups.ofLog` goes
through them once and keeps an accumulator for every type that has occurred, in the ascending
order of the types; a record changes the accumulator of its type and no other one. In the end
each accumulator makes a group.

Since the types ascend, `MixedWorkload.QueryGroups.get?` can look a type up by halving.
-/

namespace MixedWorkload

/-- The executions of one analytical query. -/
structure QueryGroup where
  /-- The transaction type of the query. -/
  type : TransactionType
  /-- The number of the query, `1` for the least analytical type. -/
  queryNumber : UInt32
  /-- How often it was executed. -/
  count : Nat
  /-- The mean of its corrected latencies. -/
  meanLatency : Float
  /-- The least of its corrected latencies. -/
  minLatency : Float
  /-- The greatest of its corrected latencies. -/
  maxLatency : Float
  /-- The earliest of its starts. -/
  firstStart : Float
  /-- The latest of its starts. -/
  lastStart : Float
  /-- How many workers executed it. -/
  workerCount : Nat

/-- The groups of a log. -/
structure QueryGroups where
  /-- The groups in the ascending order of their types. -/
  groups : List QueryGroup
  /-- How many workers executed analytical queries. -/
  distinctWorkers : Nat

/-! ### Grouping -/

/-- What has been seen so far of the records of one type. -/
structure GroupAccumulator where
  /-- How many there were. -/
  count : Nat
  /-- The sum of their corrected latencies, in their order. -/
  latencySum : Float
  /-- The least corrected latency, if there was a record. -/
  minLatency : Float
  /-- The greatest corrected latency, if there was a record. -/
  maxLatency : Float
  /-- The earliest start, if there was a record. -/
  firstStart : Float
  /-- The latest start, if there was a record. -/
  lastStart : Float
  /-- The workers that executed them, each of them once. -/
  workers : List WorkerId

namespace GroupAccumulator

/-- No record has been seen. -/
def empty : GroupAccumulator := ⟨0, 0.0, 0.0, 0.0, 0.0, 0.0, []⟩

/-- One more record. The first one is least and greatest, whatever is there before it. -/
def push (a : GroupAccumulator) (latency start : Float) (worker : WorkerId) :
    GroupAccumulator where
  count := a.count + 1
  latencySum := a.latencySum + latency
  minLatency := if a.count = 0 then latency else lesser a.minLatency latency
  maxLatency := if a.count = 0 then latency else greater a.maxLatency latency
  firstStart := if a.count = 0 then start else lesser a.firstStart start
  lastStart := if a.count = 0 then start else greater a.lastStart start
  workers := a.workers.insert worker

/-- The group of a type from all of its records. -/
def group (range : AnalyticalRange) (type : TransactionType) (a : GroupAccumulator) :
    QueryGroup where
  type := type
  queryNumber := (range.queryNumber type).getD 0
  count := a.count
  meanLatency := a.latencySum / a.count.toFloat
  minLatency := a.minLatency
  maxLatency := a.maxLatency
  firstStart := a.firstStart
  lastStart := a.lastStart
  workerCount := a.workers.length

end GroupAccumulator

/-- What has been seen so far of the analytical records of a log. -/
structure Grouping where
  /-- The accumulators of the types that have occurred, in the ascending order of the types. -/
  byType : List (TransactionType × GroupAccumulator)
  /-- The workers that executed the records, each of them once. -/
  workers : List WorkerId

/-- One more record, which goes to the accumulator of its type. -/
def Grouping.push (g : Grouping) (r : NormalizedRecord) : Grouping where
  byType :=
    let seen := (g.byType.lookup r.record.type).getD .empty
    insertKeyed numberBefore r.record.type (seen.push r.latency r.record.start r.record.worker)
      g.byType
  workers := g.workers.insert r.record.worker

namespace QueryGroups

/-- The groups of a normalized log, which has to have an analytical record. -/
def ofLog (log : NormalizedLog) : Except Error QueryGroups :=
  let grouping := log.analytical.foldl Grouping.push ⟨[], []⟩
  if grouping.byType.isEmpty then .error (.insufficientData (.noAnalyticalQueries log.range))
  else .ok
    { groups := grouping.byType.map fun entry => entry.2.group log.range entry.1
      distinctWorkers := grouping.workers.length }

/-! ### Access -/

variable (q : QueryGroups)

/-- The number of groups. -/
def length : Nat :=
  q.groups.length

/-- Whether there is no group. -/
def isEmpty : Bool :=
  q.groups.isEmpty

/-- The mean latencies in the order of the groups. -/
def meanLatencies : List Float :=
  q.groups.map QueryGroup.meanLatency

/-- The group of a type among groups of ascending types, found by halving. The middle
group goes with the groups below it only if its own type is greater than the wanted one. -/
def search? (type : TransactionType) (groups : List QueryGroup) : Option QueryGroup :=
  if h : 1 < groups.length then
    have : groups.length / 2 < groups.length := by omega
    if type < groups[groups.length / 2].type then
      search? type (groups.take (groups.length - groups.length / 2))
    else search? type (groups.drop (groups.length / 2))
  else groups.head?.filter fun g => g.type == type
termination_by groups.length
decreasing_by
  · rw [List.length_take]; omega
  · rw [List.length_drop]; omega

/-- The group of a type. -/
def get? (type : TransactionType) : Option QueryGroup :=
  search? type q.groups

end QueryGroups

end MixedWorkload

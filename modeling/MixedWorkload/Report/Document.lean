import MixedWorkload.Json.Value
import MixedWorkload.Metrics

/-!
# The report for machines

The metrics of a run, its groups and how they were arrived at, as a JSON document. The
document names the time at which it was made and, if it is known, the file the log came
from; both are texts that are passed through.
-/

namespace MixedWorkload.Report

/-- The metrics as a JSON object. -/
def metricsJson (m : Metrics) : Json :=
  .object [
    ("transactional_throughput", .float m.transactionalThroughput),
    ("geometric_mean_latency", .float m.geometricMeanLatency),
    ("query_set_time", .float m.querySetTime),
    ("queries_per_hour", .float m.queriesPerHour),
    ("effective_queries_per_hour", .float m.effectiveQueriesPerHour)]

/-- A group as a JSON object. -/
def groupJson (g : QueryGroup) : Json :=
  .object [
    ("transaction_type", .natural g.type.toNat),
    ("query_number", .natural g.queryNumber.toNat),
    ("count", .natural g.count),
    ("mean_latency", .float g.meanLatency),
    ("min_latency", .float g.minLatency),
    ("max_latency", .float g.maxLatency),
    ("first_start", .float g.firstStart),
    ("last_start", .float g.lastStart),
    ("worker_count", .natural g.workerCount)]

/-- The groups as a JSON object. -/
def groupsJson (q : QueryGroups) : Json :=
  .object [
    ("groups", .list (q.groups.map groupJson)),
    ("distinct_workers", .natural q.distinctWorkers)]

/-- The mode of normalization as a JSON value. -/
def modeJson : NormalizationMode → Json
  | .subtractive => .text "Subtractive"
  | .divisive s => .object [("Divisive", .float s.value)]

/-- A text that need not be there. -/
def optionalJson : Option String → Json
  | none => .null
  | some s => .text s

/-- The document about a run. -/
def json (generatedAt : String) (source : Option String) (log : NormalizedLog)
    (q : QueryGroups) (m : Metrics) : Json :=
  .object [
    ("generated_at", .text generatedAt),
    ("source", optionalJson source),
    ("records", .natural log.length),
    ("mode", modeJson log.mode),
    ("correction", .float log.correction),
    ("metrics", metricsJson m),
    ("groups", groupsJson q)]

end MixedWorkload.Report

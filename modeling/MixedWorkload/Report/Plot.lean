import MixedWorkload.Csv.Writer
import MixedWorkload.Json.Value
import MixedWorkload.Throughput

/-!
# Data for plots

Two series are offered for plotting: the mean latency of each query, and the NewOrder
throughput over time. Each is written as a table, and both together as a JSON document.
-/

namespace MixedWorkload

/-- The mean latency of one query. -/
structure LatencyPoint where
  /-- The number of the query. -/
  queryNumber : UInt32
  /-- Its transaction type. -/
  type : TransactionType
  /-- The mean of its corrected latencies. -/
  meanLatency : Float

/-- The series for plotting. -/
structure PlotData where
  /-- The mean latency of each query. -/
  latencies : List LatencyPoint
  /-- The NewOrder throughput in each bin. -/
  throughput : List ThroughputPoint
  /-- The width of the bins. -/
  binWidth : Float

/-- The mean latencies of the groups. -/
def QueryGroups.latencySeries (q : QueryGroups) : List LatencyPoint :=
  q.groups.map fun g => ⟨g.queryNumber, g.type, g.meanLatency⟩

namespace PlotData

/-- The series of a log and its groups. -/
def build (log : NormalizedLog) (q : QueryGroups) (binWidth : Float) :
    Except Error PlotData :=
  (log.throughputSeries binWidth).map fun throughput =>
    ⟨q.latencySeries, throughput, binWidth⟩

variable (p : PlotData)

/-- The table of mean latencies. -/
def latencyTable : String :=
  Csv.table ["query_number", "transaction_type", "mean_latency"]
    (p.latencies.map fun point =>
      [toString point.queryNumber, toString point.type, Csv.number.render point.meanLatency])

/-- The table of throughput. -/
def throughputTable : String :=
  Csv.table ["bin_start", "transactions_per_second"]
    (p.throughput.map fun point =>
      [Csv.number.render point.binStart, Csv.number.render point.perSecond])

/-- Both series as a JSON document. -/
def json : Json :=
  .object [
    ("latencies", .list (p.latencies.map fun point => .object [
      ("query_number", .natural point.queryNumber.toNat),
      ("transaction_type", .natural point.type.toNat),
      ("mean_latency", .float point.meanLatency)])),
    ("throughput", .list (p.throughput.map fun point => .object [
      ("bin_start", .float point.binStart),
      ("transactions_per_second", .float point.perSecond)])),
    ("bin_secs", .float p.binWidth)]

/-- The tables to be written, by file name. -/
def tables : List (String × String) := [
  ("latencies.csv", p.latencyTable),
  ("throughput.csv", p.throughputTable)]

/-- The documents to be written, by file name. -/
def documents : List (String × String) := [
  ("plot_data.json", p.json.pretty ++ "\n")]

/-- The files to be written, by name, in the order in which they are written. -/
def files : List (String × String) :=
  p.tables ++ p.documents

end PlotData

end MixedWorkload

import MixedWorkload.Config.Environment
import MixedWorkload.Evaluation
import MixedWorkload.Factors.File

/-!
# What is reported along the way

Besides its result, an evaluation has things to tell: which overrides it found, how many
rows it read, that it had to lift latencies. Each of these is a `MixedWorkload.Event` with
a severity and a message.

Events never influence a result. They are functions of the inputs and results of a stage,
and so the stages themselves know nothing about them. A stage that fails has no events
after the failure.
-/

namespace MixedWorkload

/-- How much attention an event deserves. -/
inductive Severity
  /-- Something may be wrong with the run. -/
  | warn
  /-- A step that users care about. -/
  | info
  /-- A detail. -/
  | debug
  deriving DecidableEq, Repr

namespace Severity

/-- The name of a severity. -/
def name : Severity → String
  | .warn => "WARN"
  | .info => "INFO"
  | .debug => "DEBUG"

/-- The place of a severity, the most severe one first. -/
def rank : Severity → Nat
  | .warn => 0
  | .info => 1
  | .debug => 2

end Severity

/-- Something that is reported along the way. -/
inductive Event
  /-- An environment variable overrides a setting. -/
  | override (setting : Setting) (text : String)
  /-- The rows of a log were read. -/
  | rowsRead (rows : Nat)
  /-- A log was read from a file. -/
  | logLoaded (records : Nat) (path : String)
  /-- A factor file was read. -/
  | factorsRead (path : String)
  /-- The built-in factors are used. -/
  | builtInFactors
  /-- A log has phases. -/
  | phases (boundaries : Nat)
  /-- Analytical latencies were raised by an amount. -/
  | lifted (amount : Float)
  /-- A log was normalized. -/
  | normalized (records newOrders : Nat) (mode : NormalizationMode)
  /-- The analytical records were grouped. -/
  | grouped (queries workers : Nat)
  /-- The run has no duration to divide by. -/
  | noDuration
  /-- The product of the mean latencies is not positive. -/
  | nonPositiveProduct (product : Float)
  /-- The metrics were computed. -/
  | metricsComputed (metrics : Metrics)
  /-- A log was evaluated. -/
  | evaluated (records queries workers : Nat)
  /-- The data for plots was written. -/
  | plotWritten (directory : String)
  /-- The report for machines was written. -/
  | reportWritten (path : String)
  /-- A run has written the report for machines that it was asked for. -/
  | metricsWritten (path : String)
  /-- The data for plots could not be written. -/
  | plotSkipped (cause : Error)

namespace Event

/-- How much attention an event deserves. -/
def severity : Event → Severity
  | .noDuration => .warn
  | .nonPositiveProduct _ => .warn
  | .plotSkipped _ => .warn
  | .logLoaded _ _ => .info
  | .builtInFactors => .info
  | .lifted _ => .info
  | .evaluated _ _ _ => .info
  | .plotWritten _ => .info
  | .metricsWritten _ => .info
  | _ => .debug

/-- A mode of normalization, spelled out. -/
def modeText : NormalizationMode → String
  | .subtractive => "Subtractive"
  | .divisive s => "Divisive(ScaleFactor(" ++ Report.number.render s.value ++ "))"

/-- The metrics, spelled out. -/
def metricsText (m : Metrics) : String :=
  "MetricsResult \x7b transactional_throughput: " ++
    Report.number.render m.transactionalThroughput ++
    ", geometric_mean_latency: " ++ Report.number.render m.geometricMeanLatency ++
    ", query_set_time: " ++ Report.number.render m.querySetTime ++
    ", queries_per_hour: " ++ Report.number.render m.queriesPerHour ++
    ", effective_queries_per_hour: " ++ Report.number.render m.effectiveQueriesPerHour ++
    " \x7d"

/-- The event in words. -/
def message : Event → String
  | .override setting text =>
    "Applying environment override " ++ setting.variableName ++ "=" ++ text
  | .rowsRead rows => "Parsed " ++ toString rows ++ " rows"
  | .logLoaded records path => "Loaded " ++ toString records ++ " records from " ++ path
  | .factorsRead path => "Read normalization override from " ++ path
  | .builtInFactors => "Using built-in reference normalization factors"
  | .phases boundaries => "Log contains " ++ toString boundaries ++ " phase transitions"
  | .lifted amount =>
    "Shifting analytical latencies by " ++ Decimal.fixed 6 amount ++
      "s to remove negative values"
  | .normalized records newOrders mode =>
    "Normalized " ++ toString records ++ " records (" ++ toString newOrders ++
      " NewOrder, mode " ++ modeText mode ++ ")"
  | .grouped queries workers =>
    "Grouped analytical records into " ++ toString queries ++ " queries across " ++
      toString workers ++ " workers"
  | .noDuration =>
    "Run has no measurable duration; reporting zero transactional throughput"
  | .nonPositiveProduct product =>
    "Geometric mean product is " ++ Error.number.render product ++
      "; at least one query has a non-positive mean latency"
  | .metricsComputed metrics => "Computed metrics: " ++ metricsText metrics
  | .evaluated records queries workers =>
    "Evaluated " ++ toString records ++ " records: " ++ toString queries ++
      " analytical queries, " ++ toString workers ++ " workers"
  | .plotWritten directory => "Plot data written to " ++ directory
  | .reportWritten path => "JSON report written to " ++ path
  | .metricsWritten path => "Metrics written to " ++ path
  | .plotSkipped cause => "Skipping plot output: " ++ cause.message

/-- The events that are at least as severe as a limit. -/
def upTo (limit : Severity) (events : List Event) : List Event :=
  events.filter fun event => decide (event.severity.rank ≤ limit.rank)

end Event

/-! ### The events of the stages -/

/-- The events of a step that has them only if it succeeds. -/
def onSuccess {α : Type} (result : Except Error α) (events : α → List Event) : List Event :=
  match result with
  | .ok value => events value
  | .error _ => []

/-- The events of applying the environment to a configuration. -/
def Config.environmentEvents (env : Environment) : List Event :=
  (consulted env).map fun entry => .override entry.1 entry.2

/-- The events of reading a log. -/
def TimingLog.readEvents (file : List UInt8) : List Event :=
  onSuccess (TimingLog.read file) fun log => [.rowsRead log.length]

/-- The events of reading a log from a file of a given name. -/
def TimingLog.loadEvents (path : String) (file : List UInt8) : List Event :=
  onSuccess (TimingLog.read file) fun log => [.rowsRead log.length, .logLoaded log.length path]

/-- The events of reading a factor file. Its contents are known before its keys are
looked at. -/
def FactorOverride.fileEvents (path : String) (file : List UInt8) : List Event :=
  onSuccess (FactorDocument.ofFile (factorFormat path) file) fun _ => [.factorsRead path]

/-- The events of resolving factors. -/
def FactorTable.resolveEvents (factors : FactorOverride) (range : AnalyticalRange) :
    List Event :=
  match factors with
  | .none => onSuccess (choose range.queryCount factors) fun _ => [.builtInFactors]
  | _ => []

/-- The events of looking for the phases of a log. -/
def TimingLog.phaseEvents (log : TimingLog) : List Event :=
  if log.phaseBoundaries.isEmpty then [] else [.phases log.phaseBoundaries.length]

/-- The events of normalizing a log. -/
def NormalizedLog.events (log : NormalizedLog) : List Event :=
  (if log.correction > 0.0 then [.lifted log.correction] else []) ++
    [.normalized log.length log.newOrders.length log.mode]

/-- The events of computing the throughput of a log. -/
def NormalizedLog.throughputEvents (log : NormalizedLog) : List Event :=
  if isRunTime (span log.starts) then [] else [.noDuration]

/-- The events of grouping the analytical records of a log. -/
def QueryGroups.events (q : QueryGroups) : List Event :=
  [.grouped q.length q.distinctWorkers]

/-- The events of taking the geometric mean of groups. -/
def QueryGroups.meanEvents (policy : MeanPolicy) (q : QueryGroups) : List Event :=
  onSuccess (geometricMean policy q) fun _ =>
    let p := product q.meanLatencies
    if p ≤ 0.0 then [.nonPositiveProduct p] else []

/-- The events of computing the metrics of a log and its groups. -/
def Metrics.events (range : AnalyticalRange) (policy : MeanPolicy) (log : NormalizedLog)
    (q : QueryGroups) : List Event :=
  log.throughputEvents ++ q.meanEvents policy ++
    onSuccess (Metrics.compute range policy log q) fun metrics => [.metricsComputed metrics]

/-- The events of evaluating a log. -/
def Evaluation.events (log : TimingLog) (options : EvaluationOptions) : List Event :=
  onSuccess options.config.validate fun config =>
    FactorTable.resolveEvents options.factors config.range ++
      onSuccess (FactorTable.resolve options.factors config.range) fun table =>
        let normalized := log.normalize table options.mode config.newOrderId
        log.phaseEvents ++ normalized.events ++
          onSuccess (QueryGroups.ofLog normalized) fun groups =>
            groups.events ++ Metrics.events config.range options.policy normalized groups ++
              onSuccess (Evaluation.ofLog log options) fun e =>
                [.evaluated e.log.length e.groups.length e.groups.distinctWorkers]

end MixedWorkload

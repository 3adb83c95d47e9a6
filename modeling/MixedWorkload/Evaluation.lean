import MixedWorkload.Log.Phases
import MixedWorkload.Log.Reader
import MixedWorkload.Report.Document
import MixedWorkload.Report.Plot
import MixedWorkload.Report.Text

/-!
# The evaluation of a log

An evaluation takes a log through all stages. The settings are checked and the factors
resolved first; then the log is normalized, its analytical records are grouped, and the
metrics are computed. The first stage that fails is the failure of the whole.
-/

namespace MixedWorkload

/-- What shapes an evaluation besides the log. -/
structure EvaluationOptions where
  /-- The settings. -/
  config : Config
  /-- Factors in place of the built-in ones. -/
  factors : FactorOverride
  /-- The size of the database, if latencies are to be divided by it. -/
  scaleFactor : Option ScaleFactor
  /-- How mean latencies that are not positive are treated. -/
  policy : MeanPolicy

/-- The options of a run about which nothing is said. -/
def EvaluationOptions.standard : EvaluationOptions :=
  ⟨.standard, .none, none, .permissive⟩

/-- The mode of normalization. -/
def EvaluationOptions.mode (options : EvaluationOptions) : NormalizationMode :=
  .ofScaleFactor? options.scaleFactor

/-- Everything that is derived from a log. -/
structure Evaluation where
  /-- The normalized log. -/
  log : NormalizedLog
  /-- The groups of its analytical records. -/
  groups : QueryGroups
  /-- Its metrics. -/
  metrics : Metrics
  /-- Where its phases change. -/
  phaseBoundaries : List PhaseBoundary
  /-- The width of a throughput bin. -/
  binWidth : Float

namespace Evaluation

/-- The evaluation of a log, by a given power function. -/
def ofLogBy (power : Float → Float → Float) (log : TimingLog) (options : EvaluationOptions) :
    Except Error Evaluation := do
  let config ← options.config.validate
  let table ← FactorTable.resolve options.factors config.range
  let normalized := log.normalize table options.mode config.newOrderId
  let groups ← QueryGroups.ofLog normalized
  let metrics ← Metrics.computeBy power config.range options.policy normalized groups
  return ⟨normalized, groups, metrics, log.phaseBoundaries, config.binWidth⟩

/-- The evaluation of a log. -/
def ofLog (log : TimingLog) (options : EvaluationOptions) : Except Error Evaluation :=
  ofLogBy Float.pow log options

/-- The evaluation of the log in a file. -/
def ofFile (file : List UInt8) (options : EvaluationOptions) : Except Error Evaluation := do
  ofLog (← TimingLog.read file) options

variable (e : Evaluation)

/-- Whether latencies were divided by the size of the database. -/
def isDivisive : Bool :=
  e.log.mode.scaleFactor?.isSome

/-- The text report. The line about all workers is there in the divisive mode only. -/
def report : String :=
  Report.text e.metrics e.isDivisive

/-- The series for plotting. -/
def plotData : Except Error PlotData :=
  PlotData.build e.log e.groups e.binWidth

/-- The report for machines. -/
def jsonReport (generatedAt : String) (source : Option String) : String :=
  (Report.json generatedAt source e.log e.groups e.metrics).pretty

end Evaluation

end MixedWorkload

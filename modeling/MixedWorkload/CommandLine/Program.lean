import MixedWorkload.CommandLine.Arguments
import MixedWorkload.Events
import MixedWorkload.Files.Basic

/-!
# The program

The program reads its settings, the factors and the log, evaluates the log and prints the
report. Only then, and only if asked to, it writes the report for machines and the data
for plots.

Every failure up to the report ends the program with nothing printed and no file touched.
A report for machines that cannot be written is a failure as well, with the text report
printed already. Data for plots is a courtesy: whether it could be written is not held
against the run.

The file system is a parameter, `MixedWorkload.FileSystem`, and so is everything else that
a run finds around it, `MixedWorkload.CommandLine.Surroundings`. What is printed is part of
the result.
-/

namespace MixedWorkload.CommandLine

/-- What the program was doing when it failed. -/
inductive Activity
  /-- Reading the settings from a file. -/
  | readingConfig (path : String)
  /-- Reading settings from the environment. -/
  | readingEnvironment
  /-- Reading the factors. -/
  | readingFactors (path : String)
  /-- Evaluating the log. -/
  | evaluating (path : String)
  /-- Writing the report for machines. -/
  | writingReport (path : String)
  deriving DecidableEq, Repr

/-- The words for an activity that failed. -/
def Activity.message : Activity → String
  | .readingConfig path => "Could not load configuration from " ++ path
  | .readingEnvironment => "Invalid environment configuration"
  | .readingFactors path => "Could not read normalization factors from " ++ path
  | .evaluating path => "Could not evaluate " ++ path
  | .writingReport path => "Could not write JSON report to " ++ path

/-- A failure of the program. -/
structure Failure where
  /-- What the program was doing. -/
  activity : Activity
  /-- What went wrong. -/
  cause : Error

/-- The failure in words, with every cause that is passed on. -/
def Failure.message (f : Failure) : String :=
  "Error: " ++ f.activity.message ++ ": " ++ f.cause.chain ++ "\n"

/-- What a run of the program leaves to its caller. -/
structure Outcome where
  /-- The exit status. -/
  status : UInt32
  /-- What is printed. -/
  output : String
  /-- What is printed as a complaint. -/
  complaint : String

/-- The outcome of a failure, after some output. -/
def Outcome.failed (output : String) (f : Failure) : Outcome :=
  ⟨1, output, f.message⟩

/-- What a run finds around it, besides files. -/
structure Surroundings (m : Type → Type) where
  /-- The environment variables. -/
  environment : Environment
  /-- The present time, as it is to be written. -/
  time : String
  /-- Where events are reported to. -/
  tell : Thunk (List Event) → m Unit

/-- The severity up to which a request wants to be told about events. -/
def Request.limit (request : Request) : Severity :=
  match request.verbosity with
  | 0 => .warn
  | 1 => .info
  | _ => .debug

section Run

variable {m : Type → Type} [Monad m] [FileSystem m]
variable (around : Surroundings m) (request : Request)

/-! ### Steps -/

/-- A result that was computed, as the result of a step. -/
def step {α : Type} (activity : Activity) (result : Except Error α) : ExceptT Failure m α :=
  ExceptT.mk (pure (result.mapError (⟨activity, ·⟩)))

/-- Reports the events that the request wants to be told about. -/
def report (events : Thunk (List Event)) : m Unit :=
  around.tell (events.map (Event.upTo request.limit))

/-- The same as a step, which does not fail. -/
def note {ε : Type} (events : Thunk (List Event)) : ExceptT ε m Unit :=
  ExceptT.lift (report around request events)

/-! ### Reading -/

/-- The contents of a file. -/
def readFile (activity : Activity) (refuse : FileError → Error) (path : String) :
    ExceptT Failure m (List UInt8) :=
  (FileSystem.readFile path).adapt fun cause => ⟨activity, refuse cause⟩

/-- The settings of a run: those of the file, if one is named, under the overrides of the
environment. -/
def readConfig : ExceptT Failure m Config := do
  let config ← match request.config with
    | none => pure .standard
    | some path => do
      let file ← readFile (.readingConfig path) .io path
      step (.readingConfig path) (Config.ofFile file)
  note around request (Config.environmentEvents around.environment)
  step .readingEnvironment (config.applyEnvironment around.environment)

/-- The factors of a run. -/
def readFactors : ExceptT Failure m FactorOverride :=
  match request.factors with
  | none => pure .none
  | some path => do
    let file ← readFile (.readingFactors path) .io path
    note around request (FactorOverride.fileEvents path file)
    step (.readingFactors path) (FactorOverride.ofFile path file)

/-- The options of a run. -/
def readOptions : ExceptT Failure m EvaluationOptions := do
  let config ← readConfig around request
  let factors ← readFactors around request
  return ⟨config, factors, request.scaleFactor,
    if request.strict then .strict else .permissive⟩

/-- The failure of a log whose file cannot be read. A directory can be opened but not
read, so the reader of records is the one that fails on it. -/
def refuseLog : FileError → Error
  | .isADirectory => .csv (.file .isADirectory)
  | cause => .io cause

/-- The evaluation of the log. -/
def evaluate : ExceptT Failure m Evaluation := do
  let options ← readOptions around request
  let file ← readFile (.evaluating request.input) refuseLog request.input
  note around request (TimingLog.loadEvents request.input file)
  let log ← step (.evaluating request.input) (TimingLog.read file)
  note around request (Evaluation.events log options)
  step (.evaluating request.input) (Evaluation.ofLog log options)

/-! ### Writing -/

/-- Writes a file and makes the directories above it. -/
def writeWithParents (path text : String) : ExceptT FileError m Unit := do
  ensureDirectories (Path.above path)
  FileSystem.writeFile path (Text.Utf8.encode text)

/-- Writes the report for machines, if it is asked for. -/
def writeReport (e : Evaluation) : ExceptT Failure m Unit :=
  match request.json with
  | none => pure ()
  | some path => do
    (writeWithParents path (e.jsonReport around.time (some request.input))).adapt fun cause =>
      ⟨.writingReport path, .io cause⟩
    note around request [Event.reportWritten path, Event.metricsWritten path]

/-- Writes files into a directory and gives their paths. -/
def writeFiles (directory : String) :
    List (String × String) → ExceptT FileError m (List String)
  | [] => pure []
  | file :: files => do
    let path := Path.join directory file.1
    FileSystem.writeFile path (Text.Utf8.encode file.2)
    let paths ← writeFiles directory files
    return path :: paths

/-- Writes data for plots into a directory, which is made if it is missing, and gives the paths
of its files. -/
def writePlotData (directory : String) (plot : PlotData) : ExceptT Error m (List String) := do
  (ensureDirectories (directory :: Path.above directory)).adapt Error.io
  let tables ← (writeFiles directory plot.tables).adapt fun cause => .csv (.file cause)
  let documents ← (writeFiles directory plot.documents).adapt Error.io
  return tables ++ documents

/-- Writes the data for plots of an evaluation. -/
def writePlot (directory : String) (e : Evaluation) : ExceptT Error m (List String) := do
  let plot ← ExceptT.mk (pure e.plotData)
  writePlotData directory plot

/-- Writes the data for plots, if it is asked for, and gives what is to be printed about
it. That it could not be written is an event and nothing more. -/
def plotOutput (e : Evaluation) : m String :=
  if request.plot then do
    let paths ← match ← (writePlot request.plotDirectory e).run with
      | .ok paths => do
        report around request [Event.plotWritten request.plotDirectory]
        pure paths
      | .error cause => do
        report around request [Event.plotSkipped cause]
        pure []
    return "Writing OLAP latency and throughput plot data to " ++ request.plotDirectory ++
      "\n" ++ String.join (paths.map fun path => "  " ++ path ++ "\n")
  else pure ""

/-! ### A whole run -/

/-- Does what is requested. -/
def run : m Outcome := do
  match ← (evaluate around request).run with
  | .error failure => return .failed "" failure
  | .ok e =>
    let text := e.report ++ "\n"
    match ← (writeReport around request e).run with
    | .error failure => return .failed text failure
    | .ok () =>
      let plot ← plotOutput around request e
      return ⟨0, text ++ plot, ""⟩

/-- The name and the version of the program. -/
def versionText : String := "chbench-evaluate 0.1.0\n"

/-- How the program is used. -/
def helpText : String :=
  "Analyse the raw output of a CH-benCHmark run and compute its metrics\n\n" ++
    "Usage: chbench-evaluate [OPTIONS] <INPUT> [SCALE_FACTOR]\n\n" ++
    "Options:\n" ++
    "      --plot                   Write latency and throughput series for plotting\n" ++
    "      --plot-dir <DIR>         Directory for plot data [default: plots]\n" ++
    "      --norm-factors <FILE>    JSON or TOML file with normalization factors\n" ++
    "  -c, --config <FILE>          TOML file with analysis settings\n" ++
    "      --json <FILE>            Also write the metrics as JSON to this file\n" ++
    "      --strict                 Fail on non-positive mean latencies\n" ++
    "  -v, --verbose...             Tell more along the way\n" ++
    "  -h, --help                   Print help\n" ++
    "  -V, --version                Print version\n\n" ++
    "The report is printed to stdout. Errors are printed to stderr and exit with status 1.\n"

/-- What is said about arguments that are not acceptable. -/
def usageText : String :=
  "error: the arguments are not acceptable\n\nFor more information, try '--help'.\n"

/-- The outcome of arguments that ask for no run. -/
def Outcome.stopped : Stop → Outcome
  | .help => ⟨0, helpText, ""⟩
  | .version => ⟨0, versionText, ""⟩
  | .usage => ⟨2, "", usageText⟩

/-- The program, from its arguments to its outcome. -/
def program (arguments : List String) : m Outcome :=
  match Request.read around.environment arguments with
  | .error stop => pure (.stopped stop)
  | .ok request => run around request

end Run

end MixedWorkload.CommandLine

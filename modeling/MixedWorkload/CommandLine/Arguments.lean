import MixedWorkload.Config.Environment
import MixedWorkload.Normalization.Mode

/-!
# The arguments of the command line

The program takes the name of a log, optionally a scale factor, and options. An option is
long, with two dashes, or a single letter with one; letters may share a dash. An option
that takes a value has it attached, behind an equals sign or right behind its letter, or
as the next argument. Behind two bare dashes every argument is positional.

No option but the one that counts may be repeated, and no path may be empty. Arguments
are taken from left to right, and the first that is not acceptable, or that asks for help
or the version, ends the matter.
-/

namespace MixedWorkload.CommandLine

/-- What a run is asked to do. -/
structure Request where
  /-- The path of the log. -/
  input : String
  /-- The size of the database, if latencies are to be divided by it. -/
  scaleFactor : Option ScaleFactor
  /-- Whether to write data for plots. -/
  plot : Bool
  /-- The directory for that data. -/
  plotDirectory : String
  /-- The path of a factor file. -/
  factors : Option String
  /-- The path of a configuration file. -/
  config : Option String
  /-- The path of the report for machines. -/
  json : Option String
  /-- Whether mean latencies that are not positive are refused. -/
  strict : Bool
  /-- How much is to be told along the way. -/
  verbosity : Nat

/-- Why no run is made. -/
inductive Stop
  /-- The arguments are not acceptable. -/
  | usage
  /-- An explanation was asked for. -/
  | help
  /-- The version was asked for. -/
  | version
  deriving DecidableEq, Repr

/-- The options that take a value. -/
inductive ValueOption
  | plotDirectory
  | factors
  | config
  | json
  deriving DecidableEq, Repr

/-- The options that take none. -/
inductive Flag
  | plot
  | strict
  | verbose
  | help
  | version
  deriving DecidableEq, Repr

/-- An option of either kind. -/
inductive Choice
  | value (option : ValueOption)
  | flag (flag : Flag)
  deriving DecidableEq, Repr

/-- The option with a long name. -/
def Choice.ofName? : String → Option Choice
  | "plot-dir" => some (.value .plotDirectory)
  | "norm-factors" => some (.value .factors)
  | "config" => some (.value .config)
  | "json" => some (.value .json)
  | "plot" => some (.flag .plot)
  | "strict" => some (.flag .strict)
  | "verbose" => some (.flag .verbose)
  | "help" => some (.flag .help)
  | "version" => some (.flag .version)
  | _ => none

/-- The option with a letter. -/
def Choice.ofLetter? : Char → Option Choice
  | 'c' => some (.value .config)
  | 'v' => some (.flag .verbose)
  | 'h' => some (.flag .help)
  | 'V' => some (.flag .version)
  | _ => none

/-- What the arguments so far have said. -/
structure Draft where
  /-- The path of the log. -/
  input : Option String
  /-- The size of the database. -/
  scaleFactor : Option ScaleFactor
  /-- The options that were given values. -/
  values : List (ValueOption × String)
  /-- The options without values, as often as they were given. -/
  flags : List Flag

/-- No argument has said anything. -/
def Draft.empty : Draft := ⟨none, none, [], []⟩

namespace Draft

variable (d : Draft)

/-- One more option with a value. -/
def addValue (option : ValueOption) (value : String) : Except Stop Draft :=
  if value = "" ∨ (d.values.lookup option).isSome then .error .usage
  else .ok { d with values := (option, value) :: d.values }

/-- One more option without a value. -/
def addFlag (flag : Flag) : Except Stop Draft :=
  match flag with
  | .help => .error .help
  | .version => .error .version
  | .verbose => .ok { d with flags := flag :: d.flags }
  | _ => if d.flags.contains flag then .error .usage else .ok { d with flags := flag :: d.flags }

/-- One more positional argument. -/
def addPositional (argument : String) : Except Stop Draft :=
  match d.input, d.scaleFactor with
  | none, _ => if argument = "" then .error .usage else .ok { d with input := some argument }
  | some _, none => match ScaleFactor.ofText argument with
    | .ok s => .ok { d with scaleFactor := some s }
    | .error _ => .error .usage
  | some _, some _ => .error .usage

end Draft

/-- Whether an argument begins an option rather than being a value. -/
def isOption (argument : String) : Bool :=
  argument != "-" && argument.toList.head? == some '-'

/-- The option that waits for the next argument as its value, and the draft with all that
the letters behind a dash say besides. -/
def readLetters (d : Draft) : List Char → Except Stop (Draft × Option ValueOption)
  | [] => .ok (d, none)
  | letter :: letters => match Choice.ofLetter? letter with
    | none => .error .usage
    | some (.flag flag) => do readLetters (← d.addFlag flag) letters
    | some (.value option) => match letters with
      | [] => .ok (d, some option)
      | '=' :: value => (d.addValue option (String.ofList value)).map (·, none)
      | value => (d.addValue option (String.ofList value)).map (·, none)

/-- The same for what stands behind two dashes. -/
def readName (d : Draft) (cs : List Char) : Except Stop (Draft × Option ValueOption) :=
  let name := cs.takeWhile (· != '=')
  let attached := (cs.drop name.length).tail?
  match Choice.ofName? (String.ofList name), attached with
  | some (.flag flag), none => (d.addFlag flag).map (·, none)
  | some (.value option), some value => (d.addValue option (String.ofList value)).map (·, none)
  | some (.value option), none => .ok (d, some option)
  | _, _ => .error .usage

/-- What the arguments say, given what those before them have said and the option that
waits for a value. -/
def readFrom (d : Draft) (waiting : Option ValueOption) : List String → Except Stop Draft
  | [] => if waiting.isSome then .error .usage else .ok d
  | argument :: arguments =>
    match waiting with
    | some option =>
      if isOption argument then .error .usage
      else do readFrom (← d.addValue option argument) none arguments
    | none =>
      if !isOption argument then do readFrom (← d.addPositional argument) none arguments
      else match argument.toList with
        | ['-', '-'] => arguments.foldlM Draft.addPositional d
        | '-' :: '-' :: name => do
          let (d, waiting) ← readName d name
          readFrom d waiting arguments
        | letters => do
          let (d, waiting) ← readLetters d letters.tail
          readFrom d waiting arguments

/-! ### The whole request -/

/-- The environment variable that stands in for an option. -/
def ValueOption.variableName? : ValueOption → Option String
  | .factors => some "CHBENCH_NORM_FACTORS"
  | .config => some "CHBENCH_CONFIG"
  | _ => none

/-- The value of an option, given or from the environment. -/
def Draft.value? (d : Draft) (env : Environment) (option : ValueOption) :
    Except Stop (Option String) :=
  match (d.values.lookup option).or (option.variableName?.bind env) with
  | some "" => .error .usage
  | value => .ok value

/-- The directory for plot data when none is named. -/
def defaultPlotDirectory : String := "plots"

/-- The request that a draft amounts to. -/
def Draft.toRequest (d : Draft) (env : Environment) : Except Stop Request := do
  let factors ← d.value? env .factors
  let config ← d.value? env .config
  match d.input with
  | none => throw .usage
  | some input => return {
      input
      scaleFactor := d.scaleFactor
      plot := d.flags.contains .plot
      plotDirectory := (d.values.lookup .plotDirectory).getD defaultPlotDirectory
      factors
      config
      json := d.values.lookup .json
      strict := d.flags.contains .strict
      verbosity := d.flags.count .verbose }

/-- The request that a list of arguments makes. -/
def Request.read (env : Environment) (arguments : List String) : Except Stop Request := do
  (← readFrom .empty none arguments).toRequest env

end MixedWorkload.CommandLine

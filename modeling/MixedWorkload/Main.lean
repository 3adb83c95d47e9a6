import MixedWorkload.CommandLine.Program
import Std.Time.Format

/-!
# The executable

The program of `MixedWorkload.CommandLine.Program`, run on the files, the environment and
the clock of the machine. Events are reported where complaints are.
-/

namespace MixedWorkload

/-- The system's number for the cause of a failure. -/
def errorNumber? : IO.Error → Option UInt32
  | .noFileOrDirectory _ code _ => some code
  | .alreadyExists _ code _ => some code
  | .inappropriateType _ code _ => some code
  | .invalidArgument _ code _ => some code
  | .resourceExhausted _ code _ => some code
  | _ => none

/-- The same number, whether or not it was handed on with a minus sign. -/
def unsigned (code : UInt32) : UInt32 :=
  min code (0 - code)

/-- The cause of a failure that the machine reports. -/
def FileError.ofMachine (e : IO.Error) : FileError :=
  match (errorNumber? e).map unsigned with
  | some 2 => .notFound
  | some 17 => .alreadyExists
  | some 20 => .notADirectory
  | some 21 => .isADirectory
  | some 36 => .nameTooLong
  | _ => .other (toString e)

/-- An action on the files of the machine, its failure as a value. -/
def onMachine {α : Type} (action : IO α) : ExceptT FileError IO α :=
  ExceptT.mk do
    match ← action.toBaseIO with
    | .ok value => return .ok value
    | .error e => return .error (.ofMachine e)

/-- Whether a path leads to a directory, which is so if its own dot cannot be made because
it is there. -/
def isDirectoryOnMachine (path : String) : IO Bool := do
  match ← (onMachine (IO.FS.createDir (path ++ "/."))).run with
  | .error .alreadyExists => return true
  | _ => return false

instance : FileSystem IO where
  readFile path := onMachine do return (← IO.FS.readBinFile path).toList
  isDirectory path := isDirectoryOnMachine path
  makeDirectory path := onMachine (IO.FS.createDir path)
  writeFile path contents := onMachine (IO.FS.writeBinFile path ⟨contents.toArray⟩)

/-- The environment variables that the program looks at. -/
def variableNames : List String :=
  Setting.all.map Setting.variableName ++
    [CommandLine.ValueOption.factors, .config].filterMap CommandLine.ValueOption.variableName?

/-- The present values of the environment variables that the program looks at. -/
def readEnvironment : IO Environment := do
  let values ← variableNames.filterMapM fun name => do
    return (← IO.getEnv name).map (name, ·)
  return fun name => values.lookup name

/-- The present time, to the second. -/
def timestamp : IO String := do
  let now := Std.Time.DateTime.ofTimestamp (← Std.Time.Timestamp.now) .UTC
  return now.format "uuuu-MM-dd" ++ "T" ++ now.format "HH:mm:ss" ++ "Z"

/-- Reports events. -/
def tell (events : Thunk (List Event)) : IO Unit :=
  events.get.forM fun event => IO.eprintln (event.severity.name ++ " " ++ event.message)

end MixedWorkload

open MixedWorkload in
/-- Runs the program on the machine. -/
def main (arguments : List String) : IO UInt32 := do
  let around := ⟨← readEnvironment, ← timestamp, tell⟩
  let outcome ← CommandLine.program around arguments
  IO.print outcome.output
  IO.eprint outcome.complaint
  return outcome.status

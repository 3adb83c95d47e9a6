import MixedWorkload.Config.File
import MixedWorkload.Json.Numbers

/-!
# Factors from a file

A factor file is TOML if its name says so, and JSON otherwise. In TOML the factors are
the entry `factors` of the document; in JSON they are the document itself. Either way
they are a list of numbers or numbers under keys.
-/

namespace MixedWorkload

/-! ### File names -/

/-- The last part of a path, if it names a file: the end of the path and its parents are
not names. -/
def fileName? (path : String) : Option String :=
  let parts := (path.splitOn "/").filter fun part => part != "" && part != "."
  parts.getLast?.filter (· != "..")

/-- What follows the last dot of a name, unless the dot leads the name. -/
def extension? (name : String) : Option String :=
  let backwards := name.toList.reverse
  let ending := backwards.takeWhile (· != '.')
  let stem := (backwards.drop ending.length).drop 1
  if stem.isEmpty then none else some (String.ofList ending.reverse)

/-- The format of a file of factors, by its name. -/
def factorFormat (path : String) : DocumentFormat :=
  match ((fileName? path).bind extension?).map String.toLower with
  | some "toml" => .toml
  | _ => .json

/-! ### Contents -/

namespace FactorDocument

/-- The factors in a TOML list or table. -/
def ofNode? : Toml.Node → Option FactorDocument
  | .list nodes => (nodes.mapM Config.doubleOf?).map .sequence
  | .table _ entries =>
    (entries.mapM fun entry => (Config.doubleOf? entry.2).map (entry.1, ·)).map .mapping
  | _ => none

/-- The factors in the text of a file. -/
def read? (format : DocumentFormat) (text : List Char) : Option FactorDocument :=
  match format with
  | .toml => ((Toml.read? text).bind (·.get? "factors")).bind ofNode?
  | .json => Json.readFactors? text

/-- The factors in a file. -/
def ofFile (format : DocumentFormat) (file : List UInt8) : Except Error FactorDocument := do
  let text ← readText file
  match read? format text with
  | some document => return document
  | none => throw (.serialization format)

end FactorDocument

/-- The override in a file, whose name tells its format. -/
def FactorOverride.ofFile (path : String) (file : List UInt8) : Except Error FactorOverride := do
  ofDocument (← FactorDocument.ofFile (factorFormat path) file)

end MixedWorkload

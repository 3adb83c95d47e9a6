import MixedWorkload.Error

/-!
# Files

What the program needs of a file system: to read a file, to know a directory when it sees
one, to make a directory, and to write a file. `MixedWorkload.FileSystem` asks a monad for
these, so that the same program runs on the machine's files and on a model of them.

Paths are texts, which the file system follows part by part. All that the program itself
has to know about their form is how a name is added, `MixedWorkload.Path.join`, and which
directories lie above a path, `MixedWorkload.Path.above`. The latter are read off the text
alone. Two dots are a part like any other, and a dot or an empty part is none, so behind
`a/.` lies what `a` names, and above it what is above `a`.
-/

namespace MixedWorkload

/-- The operations on files that a program may use. -/
class FileSystem (m : Type → Type) where
  /-- The contents of a file. -/
  readFile : (path : String) → ExceptT FileError m (List UInt8)
  /-- Whether a path leads to a directory. -/
  isDirectory : (path : String) → m Bool
  /-- Makes a directory in one that exists. -/
  makeDirectory : (path : String) → ExceptT FileError m Unit
  /-- Gives a file new contents, and makes it if it is missing. -/
  writeFile : (path : String) → (contents : List UInt8) → ExceptT FileError m Unit

/-! ### Paths -/

namespace Path

/-- Whether a path starts from the root. -/
def isAbsolute (path : String) : Bool :=
  path.toList.head? == some '/'

/-- Whether a path can only name a directory. -/
def endsInSlash (path : String) : Bool :=
  path.toList.getLast? == some '/'

/-- The path of a file in a directory. -/
def join (directory name : String) : String :=
  if endsInSlash directory then directory ++ name else directory ++ "/" ++ name

/-- Whether a part of a path, if it is not the first, stands for nothing. -/
def isIdle (part : String) : Bool :=
  part == "" || part == "."

/-- A path and the paths above it, the longest first, up to the first part. The path is
given by its first part and its other ones in reverse. -/
def upwards (first : String) : List String → List String
  | [] => [if first = "" then "/" else first]
  | part :: parts =>
    let above := upwards first parts
    if isIdle part then above
    else String.intercalate "/" (first :: (part :: parts).reverse) :: above

/-- The paths of the directories above a path, the nearest first. A single part has none:
it lies in the directory that paths start from. -/
def above (path : String) : List String :=
  match path.splitOn "/" with
  | [] => []
  | first :: parts => (upwards first parts.reverse).drop 1

end Path

/-! ### Making directories -/

section Making

variable {m : Type → Type} [Monad m] [FileSystem m]

/-- Makes a directory unless it is there already. -/
def ensureDirectory (path : String) : ExceptT FileError m Unit :=
  tryCatch (FileSystem.makeDirectory path) fun cause => do
    if ← ExceptT.lift (FileSystem.isDirectory path) then pure () else throw cause

/-- Makes the first of a list of directories. The others, each of which lies above the one
before it, are looked at only if the first cannot be made for want of them. -/
def ensureDirectories : List String → ExceptT FileError m Unit
  | [] => pure ()
  | path :: above =>
    tryCatch (ensureDirectory path) fun cause =>
      if cause = .notFound then do
        ensureDirectories above
        ensureDirectory path
      else throw cause

end Making

end MixedWorkload

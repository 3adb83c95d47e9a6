import MixedWorkload.Files.Basic

/-!
# A model of a file system

A store is a tree of directories with files in it and a place in that tree, the working
directory. Paths are followed part by part: every part but the last has to be a directory
that exists, a dot stays, two dots lead up, and a path with a slash at its end has to be a
directory itself.

To make something, the last part of a path has to be a name in a directory that exists,
`MixedWorkload.Store.target`. A dot or two dots name what is there anyway, so nothing can
be made at `a/.`, whether or not there is an `a`. A name with a slash behind it can be
given to a directory and never to a file, and this is found out before anything else about
the name.

The operations fail for the same reasons as those of a machine. Permissions, links and
full disks are not part of the model.
-/

namespace MixedWorkload

/-- A place in the tree, by the names on the way to it from the root. -/
abbrev Location := List String

/-- The directories and files of a tree. -/
structure Store where
  /-- The directories besides the root. -/
  directories : List Location
  /-- The files and their contents. -/
  files : List (Location × List UInt8)
  /-- Where paths start that do not start from the root. -/
  working : Location

namespace Store

/-- The most bytes that a name may have. -/
def nameLimit : Nat := 255

/-- The most bytes that a path may have. -/
def pathLimit : Nat := 4095

variable (s : Store)

/-- Whether a place is a directory. -/
def isDirectory (location : Location) : Bool :=
  location.isEmpty || s.directories.contains location

/-- The contents of the file at a place. -/
def contents? (location : Location) : Option (List UInt8) :=
  s.files.lookup location

/-- Whether there is something at a place. -/
def exists? (location : Location) : Bool :=
  s.isDirectory location || (s.contents? location).isSome

/-! ### Following paths -/

/-- A place again, if it is a directory. -/
def enter (location : Location) : Except FileError Location :=
  if !s.exists? location then .error .notFound
  else if !s.isDirectory location then .error .notADirectory
  else .ok location

/-- The place of a name in a directory. There need not be anything at it. -/
def child (directory : Location) (name : String) : Except FileError Location :=
  if nameLimit < name.utf8ByteSize then .error .nameTooLong else .ok (directory ++ [name])

/-- The place that one more part of a path leads to. -/
def step (location : Location) (part : String) : Except FileError Location := do
  let directory ← s.enter location
  if Path.isIdle part then return directory
  else if part = ".." then return directory.dropLast
  else child directory part

/-- The place that a list of parts leads to. There need not be anything at it. -/
def follow (location : Location) (parts : List String) : Except FileError Location :=
  parts.foldlM s.step location

/-- Where a path starts, if it is one. -/
def origin (path : String) : Except FileError Location :=
  if path = "" then .error .notFound
  else if pathLimit < path.utf8ByteSize then .error .nameTooLong
  else if Path.isAbsolute path then .ok []
  else .ok s.working

/-- The place that a path leads to. -/
def locate (path : String) : Except FileError Location := do
  s.follow (← s.origin path) (path.splitOn "/")

/-- What a path leads to when something is to be made there. -/
inductive Target
  /-- A directory that exists, under no name of its own. -/
  | directory (location : Location)
  /-- A name in a directory that exists, with a slash behind it or without. -/
  | name (directory : Location) (name : String) (slash : Bool)

/-- What a path leads to when something is to be made there. -/
def target (path : String) : Except FileError Target := do
  let origin ← s.origin path
  match (path.splitOn "/").reverse.dropWhile (· == "") with
  | [] => return .directory origin
  | last :: above =>
    let directory ← s.enter (← s.follow origin above.reverse)
    if last = "." ∨ last = ".." then return .directory (← s.step directory last)
    else return .name directory last (Path.endsInSlash path)

/-! ### Operations -/

/-- The contents of a file. -/
def read (path : String) : Except FileError (List UInt8) := do
  let location ← s.locate path
  if s.isDirectory location then throw .isADirectory
  else match s.contents? location with
    | some contents => return contents
    | none => throw .notFound

/-- Whether a path leads to a directory. -/
def leadsToDirectory (path : String) : Bool :=
  match s.locate path with
  | .ok location => s.isDirectory location
  | .error _ => false

/-- The store with one more directory. -/
def makeDirectory (path : String) : Except FileError Store := do
  match ← s.target path with
  | .directory _ => throw .alreadyExists
  | .name directory name _ =>
    let location ← child directory name
    if s.exists? location then throw .alreadyExists
    else return { s with directories := s.directories ++ [location] }

/-- The store with new contents at a place. -/
def put (location : Location) (contents : List UInt8) : Store :=
  { s with files := (s.files.filter fun file => file.1 != location) ++ [(location, contents)] }

/-- The store with new contents in a file. -/
def write (path : String) (contents : List UInt8) : Except FileError Store := do
  match ← s.target path with
  | .directory _ => throw .isADirectory
  | .name _ _ true => throw .isADirectory
  | .name directory name false =>
    let location ← child directory name
    if s.isDirectory location then throw .isADirectory else return s.put location contents

/-- An operation that makes a new store, as an action on the present one. A failure leaves
the store as it is. -/
def act (operation : Store → Except FileError Store) : ExceptT FileError (StateM Store) Unit :=
  fun s => match operation s with
    | .ok s => (.ok (), s)
    | .error cause => (.error cause, s)

instance : FileSystem (StateM Store) where
  readFile path := fun s => (s.read path, s)
  isDirectory path := fun s => (s.leadsToDirectory path, s)
  makeDirectory path := act (·.makeDirectory path)
  writeFile path contents := act (·.write path contents)

/-! ### Stores of files -/

/-- The store whose working directory is empty. -/
def empty : Store := ⟨[["work"]], [], ["work"]⟩

/-- Writes a file and makes the directories above it. -/
def addFile (file : String × List UInt8) : ExceptT FileError (StateM Store) Unit := do
  ensureDirectories (Path.above file.1)
  FileSystem.writeFile file.1 file.2

/-- The store with files in the working directory. -/
def ofFiles (files : List (String × List UInt8)) : Store :=
  files.foldl (fun s file => (addFile file s).2) empty

/-- The files under the working directory that another store does not have, by their
paths. -/
def newFiles (other : Store) : List (String × List UInt8) :=
  s.files.filterMap fun (location, contents) =>
    if (other.contents? location).isSome then none
    else if s.working.isPrefixOf location then
      some (String.intercalate "/" (location.drop s.working.length), contents)
    else none

end Store

end MixedWorkload

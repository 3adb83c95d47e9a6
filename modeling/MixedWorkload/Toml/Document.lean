import MixedWorkload.Toml.Scalar

/-!
# TOML documents

A document is a tree of tables. A table is *given* by a header or by the whole file,
*implied* when only a table inside it has a header, *dotted* when it arose from a key
with dots, and *closed* when it was written in line. What may be added to a table depends
on how it arose, and no key is ever given twice:

* a header may give an implied table, once, and may enter tables of any kind but the
  closed ones on its way;
* a dotted key may not enter a table that a header gave, and its last table has to have
  arisen from dotted keys as well;
* a closed table accepts nothing.

`MixedWorkload.Toml.enter` follows a path down the tree under these rules and changes the
table at its end. A list of tables is entered at its last element.
-/

namespace MixedWorkload.Toml

/-- How a table arose. -/
inductive Origin
  /-- From a header of its own, or as the whole file. -/
  | given
  /-- From the header of a table inside it. -/
  | implied
  /-- From a key with dots. -/
  | dotted
  /-- Between braces. -/
  | closed
  deriving DecidableEq, Repr

/-- A node of a document. -/
inductive Node
  /-- A value without parts. -/
  | scalar (value : Scalar)
  /-- A list of values. -/
  | list (elements : List Node)
  /-- A table. -/
  | table (origin : Origin) (entries : List (String × Node))
  /-- A list of tables that were given by headers, each a node of its own. -/
  | tables (elements : List Node)

/-- The entries of a table, in the order in which they arose. -/
abbrev Entries := List (String × Node)

/-- A table and how it arose. -/
structure Table where
  /-- How it arose. -/
  origin : Origin
  /-- Its entries. -/
  entries : Entries

/-- The table of a file without entries. -/
def Table.empty : Table := ⟨.given, []⟩

/-- The table as a node. -/
def Table.node (t : Table) : Node :=
  .table t.origin t.entries

namespace Table

variable (t : Table)

/-- The node under a key. -/
def get? (key : String) : Option Node :=
  t.entries.lookup key

/-- The table with a node under a key that has none. -/
def add (key : String) (node : Node) : Table :=
  { t with entries := t.entries ++ [(key, node)] }

/-- The table with another node under a key. -/
def replace (key : String) (node : Node) : Table :=
  { t with entries := t.entries.map fun entry => if entry.1 = key then (key, node) else entry }

end Table

/-! ### Paths -/

/-- Whether a path is followed for a header or for a key with dots. -/
inductive Route
  | header
  | dots
  deriving DecidableEq, Repr

/-- How the tables arise that are missing on a path. -/
def Route.origin : Route → Origin
  | .header => .implied
  | .dots => .dotted

/-- Whether a table may be entered on a path. -/
def Route.mayEnter (route : Route) (origin : Origin) : Bool :=
  match route, origin with
  | _, .closed => false
  | .dots, .given => false
  | _, _ => true

/-- The tree with a change to the table at the end of a path, if the path may be followed
and the change may be made. -/
def enter (route : Route) (change : Table → Option Table) :
    (path : List String) → Table → Option Table
  | [], t => change t
  | key :: path, t =>
    match t.get? key with
    | none => (enter route change path ⟨route.origin, []⟩).map fun inner =>
        t.add key inner.node
    | some (.table origin entries) =>
      if route.mayEnter origin then
        (enter route change path ⟨origin, entries⟩).map fun inner => t.replace key inner.node
      else none
    | some (.tables elements) =>
      match elements.getLast? with
      | some (.table origin entries) =>
        (enter route change path ⟨origin, entries⟩).map fun inner =>
          t.replace key (.tables (elements.dropLast ++ [inner.node]))
      | _ => none
    | some _ => none

/-! ### Additions -/

/-- The table with a value under a key with dots in front of it or without. -/
def insertValue (dots : List String) (key : String) (value : Node) : Table → Option Table :=
  enter .dots
    (fun t =>
      if (t.origin = .dotted ↔ dots ≠ []) ∧ (t.get? key).isNone then some (t.add key value)
      else none)
    dots

/-- The document with a table given by a header with this path. -/
def giveTable (parents : List String) (key : String) : Table → Option Table :=
  enter .header
    (fun t => match t.get? key with
      | none => some (t.add key (.table .given []))
      | some (.table .implied entries) => some (t.replace key (.table .given entries))
      | some _ => none)
    parents

/-- The document with one more table in the list given by a header with this path. -/
def giveElement (parents : List String) (key : String) : Table → Option Table :=
  enter .header
    (fun t => match t.get? key with
      | none => some (t.add key (.tables [.table .given []]))
      | some (.tables elements) =>
        some (t.replace key (.tables (elements ++ [.table .given []])))
      | some _ => none)
    parents

end MixedWorkload.Toml

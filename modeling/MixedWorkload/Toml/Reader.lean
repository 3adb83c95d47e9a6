import MixedWorkload.Toml.Document

/-!
# Reading a TOML document

The reader works through a file line by line: a line is empty, a header, or a key with
its value, which may run over several lines if it is a list or a string that may.

Values nest, and there is a limit to how deep they may and to how many parts a key may
have. Reading a value counts down to that limit. Everywhere else a step of the reader
takes at least one character, so that the length of the text bounds the number of steps.
-/

namespace MixedWorkload.Toml

/-- Values nest less deep than this, and keys have fewer parts. -/
def depthLimit : Nat := 80

/-! ### Keys -/

/-- Whether a character may stand in a key without quotation marks. -/
def isKeyChar (c : Char) : Bool :=
  c.isAlphanum || c == '_' || c == '-'

/-- One part of a key, and what follows it. -/
def keyPart? (cs : List Char) : Option (String × List Char) :=
  match cs with
  | '"' :: rest => (basic? rest).map fun (s, rest) => (String.ofList s, rest)
  | '\'' :: rest => (literal? rest).map fun (s, rest) => (String.ofList s, rest)
  | _ =>
    let part := cs.takeWhile isKeyChar
    if part.isEmpty then none else some (String.ofList part, cs.drop part.length)

/-- The parts of a key, found in at most `steps` steps, and what follows it. -/
def keyUpTo? : (steps : Nat) → List Char → Option (List String × List Char)
  | 0, _ => none
  | steps + 1, cs => do
    let (part, rest) ← keyPart? (skipSpaces cs)
    match skipSpaces rest with
    | '.' :: rest =>
      let (parts, rest) ← keyUpTo? steps rest
      return (part :: parts, rest)
    | rest => return ([part], rest)

/-- A key, as the parts before the last dot and the part behind it, and what follows. -/
def key? (cs : List Char) : Option ((List String × String) × List Char) := do
  let (parts, rest) ← keyUpTo? cs.length cs
  let last ← parts.getLast?
  if parts.length < depthLimit then return ((parts.dropLast, last), rest) else none

/-- The text behind the sign between a key and its value. -/
def equals? : List Char → Option (List Char)
  | '=' :: cs => some (skipSpaces cs)
  | _ => none

/-! ### Values -/

section Parts

variable (value? : List Char → Option (Node × List Char))

/-- The elements of a list from an element on, found in at most `steps` steps, and what
follows the list. -/
def elementsUpTo? : (steps : Nat) → List Char → Option (List Node × List Char)
  | 0, _ => none
  | steps + 1, cs => do
    let (element, rest) ← value? cs
    match skipLines false rest with
    | ']' :: rest => return ([element], rest)
    | ',' :: rest =>
      match skipLines false rest with
      | ']' :: rest => return ([element], rest)
      | rest =>
        let (elements, rest) ← elementsUpTo? steps rest
        return (element :: elements, rest)
    | _ => none

/-- A list behind its opening bracket, and what follows it. -/
def list? (cs : List Char) : Option (Node × List Char) :=
  match skipLines false cs with
  | ']' :: rest => some (.list [], rest)
  | rest => (elementsUpTo? value? rest.length rest).map fun (elements, rest) =>
      (.list elements, rest)

/-- The entries of a table in line from a key on, added to those before it, found in at
most `steps` steps, and what follows the table. -/
def entriesUpTo? : (steps : Nat) → Table → List Char → Option (Table × List Char)
  | 0, _, _ => none
  | steps + 1, t, cs => do
    let ((dots, key), rest) ← key? cs
    let (value, rest) ← value? (← equals? rest)
    let t ← insertValue dots key value t
    match skipSpaces rest with
    | '\x7d' :: rest => return (t, rest)
    | ',' :: rest => entriesUpTo? steps t rest
    | _ => none

/-- A table behind its opening brace, and what follows it. -/
def inlineTable? (cs : List Char) : Option (Node × List Char) :=
  match skipSpaces cs with
  | '\x7d' :: rest => some (.table .closed [], rest)
  | rest => (entriesUpTo? value? rest.length .empty rest).map fun (t, rest) =>
      (.table .closed t.entries, rest)

end Parts

/-- A value in which others nest less deep than a limit, and what follows it. -/
def value? : (depth : Nat) → List Char → Option (Node × List Char)
  | depth, '[' :: cs => match depth with
    | depth + 1 => list? (value? depth) cs
    | 0 => none
  | depth, '\x7b' :: cs => match depth with
    | depth + 1 => inlineTable? (value? depth) cs
    | 0 => none
  | _, cs => (scalar? cs).map fun (scalar, rest) => (.scalar scalar, rest)

/-! ### Lines -/

/-- A document being read, and the header that its next values are under. -/
structure Reading where
  /-- What has been read. -/
  document : Table
  /-- The path of the last header. -/
  header : List String

/-- A header behind its opening bracket, and what follows it. -/
def headerLine? (r : Reading) : List Char → Option (Reading × List Char)
  | '[' :: cs => do
    let ((parents, key), rest) ← key? cs
    match rest with
    | ']' :: ']' :: rest =>
      return (⟨← giveElement parents key r.document, parents ++ [key]⟩, ← endLine? rest)
    | _ => none
  | cs => do
    let ((parents, key), rest) ← key? cs
    match rest with
    | ']' :: rest =>
      return (⟨← giveTable parents key r.document, parents ++ [key]⟩, ← endLine? rest)
    | _ => none

/-- A key with its value, and what follows the line. -/
def valueLine? (r : Reading) (cs : List Char) : Option (Reading × List Char) := do
  let ((dots, key), rest) ← key? cs
  let (value, rest) ← value? (depthLimit - 1) (← equals? rest)
  let document ← enter .header (insertValue dots key value) r.header r.document
  return (⟨document, r.header⟩, ← endLine? rest)

/-- The document in a text, added to what has been read, found in at most `steps` steps. -/
def linesUpTo? : (steps : Nat) → Reading → List Char → Option Table
  | steps, r, cs => match skipSpaces cs with
    | [] => some r.document
    | rest => match steps with
      | 0 => none
      | steps + 1 => do
        let (r, rest) ← match rest with
          | '[' :: rest => headerLine? r rest
          | '#' :: _ => (endLine? rest).map (r, ·)
          | '\n' :: rest => some (r, rest)
          | '\r' :: _ => (newline? rest).map (r, ·)
          | _ => valueLine? r rest
        linesUpTo? steps r rest

/-- A text without the byte-order mark at its start, if there is one. -/
def skipByteOrderMark : List Char → List Char
  | '\ufeff' :: cs => cs
  | cs => cs

/-- The document in a text. -/
def read? (cs : List Char) : Option Table :=
  let cs := skipByteOrderMark cs
  linesUpTo? (cs.length + 1) ⟨.empty, []⟩ cs

end MixedWorkload.Toml

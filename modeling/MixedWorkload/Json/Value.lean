import MixedWorkload.Decimal.Style

/-!
# Writing JSON

A JSON value is written in one of two layouts: on one line without blanks, or with one
member or element per line and two blanks of indentation for each level. Empty lists and
objects take no line of their own in either.

A double that is not finite has no JSON number, and is written as `null`.
-/

namespace MixedWorkload

/-- A JSON value, its numbers in the forms that this library writes. -/
inductive Json
  /-- Nothing. -/
  | null
  /-- A text. -/
  | text (s : String)
  /-- A number without fractional part. -/
  | natural (n : Nat)
  /-- Any other number. -/
  | float (x : Float)
  /-- A list. -/
  | list (elements : List Json)
  /-- An object, its members in the order in which they are written. -/
  | object (members : List (String × Json))

namespace Json

/-- Numbers in JSON are positional from `0.00001` up to below `1e16`. -/
def number : Decimal.Style where
  scientificBelow := some (-5)
  scientificFrom := some 16
  wholeSuffix := ".0"
  exponentPlus := "+"
  tie := .toEven

/-- The text of a double. -/
def floatText (x : Float) : String :=
  if x.isFinite then number.render x else "null"

/-- A code point below sixteen as four hexadecimal digits, and one of two digits too. -/
def fourDigits (n : Nat) : List Char :=
  let digits := Nat.toDigits 16 n
  List.replicate (4 - digits.length) '0' ++ digits

/-- The characters that stand for `c` in a text. -/
def escape (c : Char) : List Char :=
  if c = '"' ∨ c = '\\' then ['\\', c]
  else if c = '\n' then ['\\', 'n']
  else if c = '\r' then ['\\', 'r']
  else if c = '\t' then ['\\', 't']
  else if c = Char.ofNat 0x8 then ['\\', 'b']
  else if c = Char.ofNat 0xC then ['\\', 'f']
  else if c.toNat < 0x20 then ['\\', 'u'] ++ fourDigits c.toNat
  else [c]

/-- A text between quotation marks. -/
def quoted (s : String) : String :=
  String.ofList (['"'] ++ s.toList.flatMap escape ++ ['"'])

/-! ### Layouts -/

/-- How the parts of a list or an object are laid out. -/
structure Layout where
  /-- What precedes each part, at a given level. -/
  lead : Nat → String
  /-- What follows the name of a member. -/
  colon : String

/-- Everything on one line, without blanks. -/
def Layout.compact : Layout := ⟨fun _ => "", ":"⟩

/-- One part per line, with two blanks for each level. -/
def Layout.indented : Layout :=
  ⟨fun level => "\n" ++ String.ofList (List.replicate (2 * level) ' '), ": "⟩

/-- The parts of a list or an object between its brackets, at a given level. -/
def bracket (layout : Layout) (level : Nat) (opening closing : String)
    (parts : List String) : String :=
  if parts.isEmpty then opening ++ closing
  else opening ++ String.intercalate "," (parts.map (layout.lead (level + 1) ++ ·)) ++
    layout.lead level ++ closing

mutual

/-- The text of a value at a given level. -/
def render (layout : Layout) (level : Nat) : Json → String
  | null => "null"
  | text s => quoted s
  | natural n => toString n
  | float x => floatText x
  | list elements => bracket layout level "[" "]" (renderElements layout (level + 1) elements)
  | object members =>
    bracket layout level "\x7b" "\x7d" (renderMembers layout (level + 1) members)

/-- The texts of the elements of a list. -/
def renderElements (layout : Layout) (level : Nat) : List Json → List String
  | [] => []
  | element :: elements =>
    render layout level element :: renderElements layout level elements

/-- The texts of the members of an object. -/
def renderMembers (layout : Layout) (level : Nat) : List (String × Json) → List String
  | [] => []
  | (name, value) :: members =>
    (quoted name ++ layout.colon ++ render layout level value) ::
      renderMembers layout level members

end

/-- The text of a value on one line. -/
def compact (v : Json) : String :=
  v.render .compact 0

/-- The text of a value, one part per line. -/
def pretty (v : Json) : String :=
  v.render .indented 0

end Json

end MixedWorkload

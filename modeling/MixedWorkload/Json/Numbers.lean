import MixedWorkload.Binary64.Nearest
import MixedWorkload.Factors.Override
import MixedWorkload.Powers
import MixedWorkload.Text.Digits
import MixedWorkload.Text.Escape

/-!
# Reading a list or an object of numbers

A factor file in JSON is a list of numbers, or an object whose members are numbers. It is
cut into tokens first, and the tokens are then matched against these two forms. Anything
else is refused as a whole, so a value of another kind is refused as soon as its first
character is seen.

A number is turned into a double by one multiplication or division by a power of ten.
Digits are gathered into a sixty-four bit word as long as they fit, and the digits that
do not only count for the power. The result is the nearest double for up to fifteen
digits and a power up to twenty-two; beyond that it may be a neighbour of it. A number
that comes out infinite is refused.
-/

namespace MixedWorkload.Json

open scoped Powers

open Text

/-! ### Numbers -/

/-- The digits taken into a word that holds `word`, and those that did not fit. -/
def gather (word : Nat) : List Char → Nat × List Char
  | [] => (word, [])
  | c :: cs =>
    let next := 10 * word + Digits.digit c
    if next < 2 ^ (64 : Nat) then gather next cs else (word, c :: cs)

/-- The double of a power of ten. -/
def powerOfTen (n : Nat) : Float :=
  Binary64.nearest (10 ^ n) 1

/-- The greatest power of ten that is a finite double. -/
def greatestPower : Nat := 308

/-- A double divided by a power of ten, in steps if the power is no finite double. -/
def divideByPower (x : Float) (n : Nat) : Float :=
  if n ≤ greatestPower then x / powerOfTen n
  else if x == 0.0 then x
  else divideByPower (x / powerOfTen greatestPower) (n - greatestPower)
termination_by n
decreasing_by simp only [greatestPower] at *; omega

/-- A double multiplied by a power of ten, if that is finite. -/
def multiplyByPower? (x : Float) (n : Nat) : Option Float :=
  if n ≤ greatestPower then
    let scaled := x * powerOfTen n
    if scaled.isInf then none else some scaled
  else if x == 0.0 then some x else none

/-- The double of a word times a power of ten, if it is finite. -/
def scale? (word : Nat) (exponent : Int) : Option Float :=
  if exponent < 0 then some (divideByPower word.toFloat (-exponent).toNat)
  else multiplyByPower? word.toFloat exponent.toNat

/-- The double that an unsigned number denotes, given the digits before and behind its
point and its exponent. -/
def numberOf? (whole places : List Char) (exponent : Int) : Option Float :=
  let (word, skipped) := gather 0 whole
  let (word, ignored) := gather word places
  scale? word (skipped.length - (places.length - ignored.length : Nat) + exponent)

/-- The digits of a fractional part, and what follows; none where there is no point. -/
def lexPlaces? : List Char → Option (List Char × List Char)
  | '.' :: cs =>
    let (digits, rest) := Digits.leading cs
    if digits.isEmpty then none else some (digits, rest)
  | cs => some ([], cs)

/-- An exponent, and what follows; zero where there is no letter. -/
def lexExponent? : List Char → Option (Int × List Char)
  | c :: cs =>
    if c = 'e' ∨ c = 'E' then
      let (negative, cs) := splitSign cs
      let (digits, rest) := Digits.leading cs
      if digits.isEmpty then none
      else some (if negative then -(Digits.value digits : Int) else Digits.value digits, rest)
    else some (0, c :: cs)
  | [] => some (0, [])

/-- Whether digits are a whole part: there is one, and no zero leads others. -/
def isWholePart : List Char → Bool
  | [] => false
  | ['0'] => true
  | '0' :: _ => false
  | _ => true

/-- A number at the start of a text that does not begin with a minus, and what follows. -/
def lexUnsigned? (cs : List Char) : Option (Float × List Char) := do
  let (whole, rest) := Digits.leading cs
  guard (isWholePart whole)
  let (places, rest) ← lexPlaces? rest
  let (exponent, rest) ← lexExponent? rest
  let x ← numberOf? whole places exponent
  return (x, rest)

/-! ### Texts -/

/-- The character that a letter behind a backslash stands for. -/
def letterEscape? : Char → Option Char
  | '"' => some '"'
  | '\\' => some '\\'
  | '/' => some '/'
  | 'b' => some (Char.ofNat 0x8)
  | 'f' => some (Char.ofNat 0xC)
  | 'n' => some '\n'
  | 'r' => some '\r'
  | 't' => some '\t'
  | _ => none

/-- The character of two sixteen-bit units, if they are a pair of surrogates. -/
def pairChar? (high low : Nat) : Option Char :=
  if 0xD800 ≤ high ∧ high ≤ 0xDBFF ∧ 0xDC00 ≤ low ∧ low ≤ 0xDFFF then
    some (Char.ofNat (0x10000 + (high - 0xD800) * 1024 + (low - 0xDC00)))
  else none

/-- The text up to the closing quotation mark, and what follows that. -/
def lexText? : List Char → Option (List Char × List Char)
  | '"' :: cs => some ([], cs)
  | '\\' :: 'u' :: a :: b :: c :: d :: '\\' :: 'u' :: e :: f :: g :: h :: cs =>
    match hexValue? [a, b, c, d] with
    | none => none
    | some first => match charOf? first with
      | some ch => (lexText? ('\\' :: 'u' :: e :: f :: g :: h :: cs)).map (addChar ch)
      | none => match (hexValue? [e, f, g, h]).bind (pairChar? first) with
        | some ch => (lexText? cs).map (addChar ch)
        | none => none
  | '\\' :: 'u' :: a :: b :: c :: d :: cs =>
    match (hexValue? [a, b, c, d]).bind charOf? with
    | some ch => (lexText? cs).map (addChar ch)
    | none => none
  | '\\' :: c :: cs =>
    match letterEscape? c with
    | some ch => (lexText? cs).map (addChar ch)
    | none => none
  | c :: cs =>
    if c = '\\' ∨ c.toNat < 0x20 then none else (lexText? cs).map (addChar c)
  | [] => none

/-! ### Tokens -/

/-- A piece of a file. -/
inductive Token
  | openList
  | closeList
  | openObject
  | closeObject
  | comma
  | colon
  | text (s : String)
  | number (x : Float)

/-- The token that a punctuation mark is. -/
def punctuation? : Char → Option Token
  | '[' => some .openList
  | ']' => some .closeList
  | '\x7b' => some .openObject
  | '\x7d' => some .closeObject
  | ',' => some .comma
  | ':' => some .colon
  | _ => none

/-- Whether a character may stand between tokens. -/
def isSpace (c : Char) : Bool :=
  c == ' ' || c == '\n' || c == '\t' || c == '\r'

/-- The token at the start of a text that is not empty, and what follows it. -/
def lexToken? (c : Char) (cs : List Char) : Option (Token × List Char) :=
  match punctuation? c with
  | some token => some (token, cs)
  | none =>
    if c = '"' then (lexText? cs).map fun (s, rest) => (.text (String.ofList s), rest)
    else if c = '-' then (lexUnsigned? cs).map fun (x, rest) => (.number (-x), rest)
    else (lexUnsigned? (c :: cs)).map fun (x, rest) => (.number x, rest)

/-- The tokens of a text, found in at most `steps` steps. Every step takes a character,
so there are enough steps for a text of that length. -/
def lexUpTo? : Nat → List Char → Option (List Token)
  | _, [] => some []
  | 0, _ :: _ => none
  | steps + 1, c :: cs =>
    if isSpace c then lexUpTo? steps cs
    else match lexToken? c cs with
      | some (token, rest) => (lexUpTo? steps rest).map (token :: ·)
      | none => none

/-- The tokens of a text. -/
def lex? (cs : List Char) : Option (List Token) :=
  lexUpTo? cs.length cs

/-! ### Documents -/

/-- The elements of a list from an element on, and what follows the list. -/
def elements? : List Token → Option (List Float × List Token)
  | .number x :: .closeList :: rest => some ([x], rest)
  | .number x :: .comma :: rest => (elements? rest).map fun (xs, rest) => (x :: xs, rest)
  | _ => none

/-- The members of an object from a member on, and what follows the object. -/
def members? : List Token → Option (List (String × Float) × List Token)
  | .text s :: .colon :: .number x :: .closeObject :: rest => some ([(s, x)], rest)
  | .text s :: .colon :: .number x :: .comma :: rest =>
    (members? rest).map fun (ms, rest) => ((s, x) :: ms, rest)
  | _ => none

/-- The document that a list of tokens is. -/
def document? : List Token → Option FactorDocument
  | [.openList, .closeList] => some (.sequence [])
  | [.openObject, .closeObject] => some (.mapping [])
  | .openList :: tokens => match elements? tokens with
    | some (xs, []) => some (.sequence xs)
    | _ => none
  | .openObject :: tokens => match members? tokens with
    | some (ms, []) => some (.mapping ms)
    | _ => none
  | _ => none

/-- The factors in a JSON file. -/
def readFactors? (cs : List Char) : Option FactorDocument :=
  (lex? cs).bind document?

end MixedWorkload.Json

import MixedWorkload.Decimal.Reader
import MixedWorkload.Powers
import MixedWorkload.Text.Escape
import MixedWorkload.Toml.Text

/-!
# Plain values of a TOML file

Truth values, numbers and dates are written without quotation marks. Such a value is a
run of letters, digits and the marks `+ - _ . :`, and `MixedWorkload.Toml.scalarOf?` says
what a whole run is, if it is anything. Only a date and a time that are divided by a
blank are two runs.

Digits may be grouped by underscores, each with a digit on either side. An integer has
to fit sixty-four bits. A floating-point number beyond the greatest double is refused if
it is positive; a negative one is minus infinity.
-/

namespace MixedWorkload.Toml

open scoped Powers

open Text

/-- A value without parts. -/
inductive Scalar
  /-- A string. -/
  | text (s : String)
  /-- An integer. -/
  | integer (n : Int)
  /-- A floating-point number. -/
  | float (x : Float)
  /-- A truth value. -/
  | truth (b : Bool)
  /-- A date, a time, or both. -/
  | moment

/-! ### Digits -/

/-- Whether a text that follows a digit continues a group of digits to its end. -/
def continuesDigits (isDigit : Char → Bool) : List Char → Bool
  | [] => true
  | '_' :: c :: cs => isDigit c && continuesDigits isDigit cs
  | c :: cs => isDigit c && continuesDigits isDigit cs

/-- Whether a text is digits, grouped or not. -/
def isDigits (isDigit : Char → Bool) : List Char → Bool
  | [] => false
  | c :: cs => isDigit c && continuesDigits isDigit cs

/-- A text without the underscores that group its digits. -/
def ungroup (cs : List Char) : List Char :=
  cs.filter (· != '_')

/-- Whether digits are those of a decimal integer: no zero leads others. -/
def isDecimal (cs : List Char) : Bool :=
  isDigits Char.isDigit cs && (cs.head? != some '0' || cs.length == 1)

/-! ### Integers -/

/-- Whether a character is a digit to a base of at most sixteen. -/
def isDigitTo (base : Nat) (c : Char) : Bool :=
  (hexDigit? c).any (· < base)

/-- The number that digits to a base denote. -/
def valueTo (base : Nat) (cs : List Char) : Nat :=
  cs.foldl (fun n c => base * n + (hexDigit? c).getD 0) 0

/-- A non-negative integer to a base other than ten. -/
def basedInteger? (base : Nat) (cs : List Char) : Option Int :=
  if isDigits (isDigitTo base) cs then
    let n := valueTo base (ungroup cs)
    if n < 2 ^ (63 : Nat) then some n else none
  else none

/-- An integer. -/
def integer? : List Char → Option Int
  | '0' :: 'x' :: cs => basedInteger? 16 cs
  | '0' :: 'o' :: cs => basedInteger? 8 cs
  | '0' :: 'b' :: cs => basedInteger? 2 cs
  | cs =>
    if isDecimal (splitSign cs).2 then (readInt64? (ungroup cs)).map Int64.toInt else none

/-! ### Floating-point numbers -/

/-- Whether a character marks an exponent. -/
def isExponentMark (c : Char) : Bool :=
  c == 'e' || c == 'E'

/-- Whether a text is an exponent. -/
def isExponent : List Char → Bool
  | c :: cs => isExponentMark c && isDigits Char.isDigit (splitSign cs).2
  | [] => false

/-- Whether a text that follows the whole part of a number makes it a floating-point
number: a fractional part, an exponent, or both. -/
def isFloatTail : List Char → Bool
  | '.' :: cs =>
    let places := cs.takeWhile fun c => !isExponentMark c
    let rest := cs.drop places.length
    isDigits Char.isDigit places && (rest.isEmpty || isExponent rest)
  | cs => isExponent cs

/-- A floating-point number in digits. -/
def digitFloat? (cs : List Char) : Option Float :=
  let unsigned := (splitSign cs).2
  let whole := unsigned.takeWhile fun c => c != '.' && !isExponentMark c
  if isDecimal whole && isFloatTail (unsigned.drop whole.length) then
    (Decimal.readFloat? (ungroup cs)).filter fun x => !(x == 1.0 / 0.0)
  else none

/-- A floating-point number with a name. -/
def namedFloat? (cs : List Char) : Option Float :=
  let (negative, name) := splitSign cs
  if name = ['i', 'n', 'f'] ∨ name = ['n', 'a', 'n'] then
    (Decimal.readName? name).map (Binary64.withSign negative)
  else none

/-! ### Dates and times -/

/-- The number of two digits, if it lies in a range. -/
def twoDigits? (low high : Nat) (a b : Char) : Option Nat :=
  (Digits.read? [a, b]).filter fun n => decide (low ≤ n ∧ n ≤ high)

/-- The number of days in a month. -/
def daysIn (year month : Nat) : Nat :=
  if month = 2 then
    if year % 4 = 0 ∧ (year % 100 ≠ 0 ∨ year % 400 = 0) then 29 else 28
  else if month = 4 ∨ month = 6 ∨ month = 9 ∨ month = 11 then 30
  else 31

/-- What follows a date at the start of a text. -/
def date? : List Char → Option (List Char)
  | y1 :: y2 :: y3 :: y4 :: '-' :: m1 :: m2 :: '-' :: d1 :: d2 :: cs => do
    let year ← Digits.read? [y1, y2, y3, y4]
    let month ← twoDigits? 1 12 m1 m2
    let _ ← twoDigits? 1 (daysIn year month) d1 d2
    return cs
  | _ => none

/-- What follows a fraction of a second at the start of a text, if there is one. -/
def skipFraction : List Char → List Char
  | '.' :: cs =>
    let (digits, rest) := Digits.leading cs
    if digits.isEmpty then '.' :: cs else rest
  | cs => cs

/-- What follows a time at the start of a text. -/
def time? : List Char → Option (List Char)
  | h1 :: h2 :: ':' :: m1 :: m2 :: ':' :: s1 :: s2 :: cs => do
    let _ ← twoDigits? 0 23 h1 h2
    let _ ← twoDigits? 0 59 m1 m2
    let _ ← twoDigits? 0 60 s1 s2
    return skipFraction cs
  | _ => none

/-- Whether a text is empty or the distance of a time zone. -/
def isZone : List Char → Bool
  | [] => true
  | ['Z'] => true
  | ['z'] => true
  | [sign, h1, h2, ':', m1, m2] =>
    (sign == '+' || sign == '-') && (twoDigits? 0 23 h1 h2).isSome &&
      (twoDigits? 0 59 m1 m2).isSome
  | _ => false

/-- Whether a text is a time, with a zone or without. -/
def isZonedTime (cs : List Char) : Bool :=
  (time? cs).any isZone

/-- Whether a text is a date, a time, or both. -/
def isMoment (cs : List Char) : Bool :=
  match date? cs with
  | some [] => true
  | some (mark :: rest) => (mark == 'T' || mark == 't' || mark == ' ') && isZonedTime rest
  | none => (time? cs).any List.isEmpty

/-! ### Runs -/

/-- Whether a character belongs to a run. -/
def isRunChar (c : Char) : Bool :=
  c.isAlphanum || c == '+' || c == '-' || c == '_' || c == '.' || c == ':'

/-- What a whole run is. -/
def scalarOf? (run : List Char) : Option Scalar :=
  if run = ['t', 'r', 'u', 'e'] then some (.truth true)
  else if run = ['f', 'a', 'l', 's', 'e'] then some (.truth false)
  else if isMoment run then some .moment
  else ((namedFloat? run <|> digitFloat? run).map Scalar.float) <|>
    (integer? run).map Scalar.integer

/-- The run at the start of a text, taken together with the next one if the two are a
date and a time, and what follows. -/
def splitRun (cs : List Char) : List Char × List Char :=
  let run := cs.takeWhile isRunChar
  let rest := cs.drop run.length
  match rest with
  | ' ' :: more =>
    let joined := run ++ ' ' :: more.takeWhile isRunChar
    if isMoment joined then (joined, cs.drop joined.length) else (run, rest)
  | _ => (run, rest)

/-- A value without parts at the start of a text, and what follows it. -/
def scalar? (cs : List Char) : Option (Scalar × List Char) :=
  match cs with
  | [] => none
  | c :: _ =>
    if c = '"' ∨ c = '\'' then (string? cs).map fun (s, rest) => (.text (String.ofList s), rest)
    else
      let (run, rest) := splitRun cs
      (scalarOf? run).map fun scalar => (scalar, rest)

end MixedWorkload.Toml

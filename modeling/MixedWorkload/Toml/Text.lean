import MixedWorkload.Text.Escape

/-!
# Characters, comments and strings of a TOML file

The small pieces of a TOML file: blanks and line ends, comments, and strings in their
four forms. A string is *basic*, with escapes, or *literal*, without; either may span
lines when its quotation marks come in threes.

The readers take the characters behind the opening marks and give the string with what
follows the closing ones. Of three to five marks that end a string over several lines,
the last three close it and the ones before them belong to it.
-/

namespace MixedWorkload.Toml

open Text (hexValue? charOf? addChar)

/-! ### Blanks, lines, comments -/

/-- Whether a character is a blank inside a line. -/
def isSpace (c : Char) : Bool :=
  c == ' ' || c == '\t'

/-- A text without its leading blanks. -/
def skipSpaces (cs : List Char) : List Char :=
  cs.dropWhile isSpace

/-- What follows a line end at the start of a text. -/
def newline? : List Char → Option (List Char)
  | '\n' :: cs => some cs
  | '\r' :: '\n' :: cs => some cs
  | _ => none

/-- Whether a character may stand in a comment or, marks and backslashes apart, in a
string: no control character but the tab. -/
def isPlain (c : Char) : Bool :=
  c == '\t' || decide (0x20 ≤ c.toNat ∧ c.toNat ≠ 0x7F)

/-- A text without the comment at its start, if there is one. -/
def skipComment : List Char → List Char
  | '#' :: cs => cs.dropWhile isPlain
  | cs => cs

/-- What follows the end of a line: blanks, a comment, and a line end or the end of the
file. -/
def endLine? (cs : List Char) : Option (List Char) :=
  match skipComment (skipSpaces cs) with
  | [] => some []
  | rest => newline? rest

/-- A text without its leading blanks, line ends and comments, the first of which may
have begun already. -/
def skipLines (inComment : Bool) : List Char → List Char
  | [] => []
  | '\n' :: cs => skipLines false cs
  | '\r' :: '\n' :: cs => skipLines false cs
  | c :: cs =>
    if inComment then if isPlain c then skipLines true cs else c :: cs
    else if isSpace c then skipLines false cs
    else if c = '#' then skipLines true cs
    else c :: cs

/-! ### Strings on one line -/

/-- The character that a letter behind a backslash stands for. -/
def letterEscape? : Char → Option Char
  | '"' => some '"'
  | '\\' => some '\\'
  | 'b' => some (Char.ofNat 0x8)
  | 'f' => some (Char.ofNat 0xC)
  | 'n' => some '\n'
  | 'r' => some '\r'
  | 't' => some '\t'
  | _ => none

/-- The character whose code point is written in hexadecimal digits. -/
def codePoint? (digits : List Char) : Option Char :=
  (hexValue? digits).bind charOf?

/-- A character put in front of the result of a reader, if there are both. -/
def addChar? (c : Option Char) (read : Option (List Char × List Char)) :
    Option (List Char × List Char) :=
  c.bind fun c => read.map (addChar c)

/-- A basic string on one line. -/
def basic? : List Char → Option (List Char × List Char)
  | [] => none
  | '"' :: cs => some ([], cs)
  | '\\' :: 'u' :: a :: b :: c :: d :: cs => addChar? (codePoint? [a, b, c, d]) (basic? cs)
  | '\\' :: 'U' :: a :: b :: c :: d :: e :: f :: g :: h :: cs =>
    addChar? (codePoint? [a, b, c, d, e, f, g, h]) (basic? cs)
  | '\\' :: c :: cs => addChar? (letterEscape? c) (basic? cs)
  | c :: cs => if isPlain c && c != '\\' then (basic? cs).map (addChar c) else none

/-- A literal string on one line. -/
def literal? : List Char → Option (List Char × List Char)
  | [] => none
  | '\'' :: cs => some ([], cs)
  | c :: cs => if isPlain c then (literal? cs).map (addChar c) else none

/-! ### Strings over several lines -/

/-- Whether a backslash in front of a text hides the end of its line. -/
def hidesLineEnd (cs : List Char) : Bool :=
  (newline? (skipSpaces cs)).isSome

/-- A basic string over several lines, where blanks and line ends are passed over behind
a backslash at the end of a line. -/
def multilineBasic? (passOver : Bool) : List Char → Option (List Char × List Char)
  | [] => none
  | '"' :: '"' :: '"' :: '"' :: '"' :: cs => some (['"', '"'], cs)
  | '"' :: '"' :: '"' :: '"' :: cs => some (['"'], cs)
  | '"' :: '"' :: '"' :: cs => some ([], cs)
  | '\r' :: '\n' :: cs =>
    if passOver then multilineBasic? true cs
    else (multilineBasic? false cs).map (addChar '\n')
  | '\n' :: cs =>
    if passOver then multilineBasic? true cs
    else (multilineBasic? false cs).map (addChar '\n')
  | '\\' :: 'u' :: a :: b :: c :: d :: cs =>
    addChar? (codePoint? [a, b, c, d]) (multilineBasic? false cs)
  | '\\' :: 'U' :: a :: b :: c :: d :: e :: f :: g :: h :: cs =>
    addChar? (codePoint? [a, b, c, d, e, f, g, h]) (multilineBasic? false cs)
  | '\\' :: c :: cs =>
    if hidesLineEnd (c :: cs) then multilineBasic? true (c :: cs)
    else addChar? (letterEscape? c) (multilineBasic? false cs)
  | c :: cs =>
    if passOver && isSpace c then multilineBasic? true cs
    else if isPlain c && c != '\\' then (multilineBasic? false cs).map (addChar c)
    else none

/-- A literal string over several lines. -/
def multilineLiteral? : List Char → Option (List Char × List Char)
  | [] => none
  | '\'' :: '\'' :: '\'' :: '\'' :: '\'' :: cs => some (['\'', '\''], cs)
  | '\'' :: '\'' :: '\'' :: '\'' :: cs => some (['\''], cs)
  | '\'' :: '\'' :: '\'' :: cs => some ([], cs)
  | '\r' :: '\n' :: cs => (multilineLiteral? cs).map (addChar '\n')
  | '\n' :: cs => (multilineLiteral? cs).map (addChar '\n')
  | c :: cs => if isPlain c then (multilineLiteral? cs).map (addChar c) else none

/-- A text without a line end at its start, if there is one. -/
def skipNewline (cs : List Char) : List Char :=
  (newline? cs).getD cs

/-- A string of any form, and what follows it. -/
def string? : List Char → Option (List Char × List Char)
  | '"' :: '"' :: '"' :: cs => multilineBasic? false (skipNewline cs)
  | '"' :: cs => basic? cs
  | '\'' :: '\'' :: '\'' :: cs => multilineLiteral? (skipNewline cs)
  | '\'' :: cs => literal? cs
  | _ => none

end MixedWorkload.Toml

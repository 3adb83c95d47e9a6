/-!
# Comma-separated records

A file of records is read byte by byte. Fields are divided by commas, records end at a
line feed or a carriage return, and a field that starts with a quotation mark runs to the
next one that is not doubled, so that it may hold commas and line breaks.

The reader never fails: a quotation mark inside a bare field is an ordinary byte, what
follows a closing quotation mark is appended to the field, and a field that is never
closed runs to the end of the file. Lines without a single byte hold no record, which is
also how the line feed of a carriage-return pair disappears.

`MixedWorkload.Csv.Scanner.step` takes one byte, and `MixedWorkload.Csv.records` folds it
over a file. Each record remembers where its reading began. That place is right behind
the terminator of the record before it, ahead of any empty lines that are skipped.
-/

namespace MixedWorkload.Csv

/-- The byte that divides fields. -/
def comma : UInt8 := 0x2C

/-- The byte that opens and closes a quoted field. -/
def quote : UInt8 := 0x22

/-- The byte that counts lines. -/
def lineFeed : UInt8 := 0x0A

/-- The other byte that ends a record. -/
def carriageReturn : UInt8 := 0x0D

/-- Whether a byte ends a record outside quotation marks. -/
def isTerminator (byte : UInt8) : Bool :=
  byte == lineFeed || byte == carriageReturn

/-- A place in a file. -/
structure Position where
  /-- One more than the number of line feeds before it. -/
  line : Nat
  /-- The number of bytes before it. -/
  byte : Nat
  deriving DecidableEq, Repr

/-- The place after one more byte. -/
def Position.advance (p : Position) (byte : UInt8) : Position where
  line := if byte == lineFeed then p.line + 1 else p.line
  byte := p.byte + 1

/-- One record, its fields as they were written but for the quotation marks. -/
structure Record where
  /-- Where the reading of the record began. -/
  start : Position
  /-- The contents of its fields. -/
  fields : List (List UInt8)
  deriving DecidableEq, Repr

/-- What the bytes so far have led to. -/
inductive Mode
  /-- No byte of a record has been seen. -/
  | betweenRecords
  /-- A comma has just been seen. -/
  | fieldStart
  /-- In a field that is not quoted, or behind the closing mark of one that was. -/
  | bare
  /-- Between quotation marks. -/
  | quoted
  /-- Behind a quotation mark that closes the field unless another one follows. -/
  | quoteInQuoted
  deriving DecidableEq, Repr

/-- The reader between two bytes. The lists are in reverse, the newest element first. -/
structure Scanner where
  /-- What the next byte means. -/
  mode : Mode
  /-- The bytes of the field being read. -/
  field : List UInt8
  /-- The finished fields of the record being read. -/
  fields : List (List UInt8)
  /-- Where the reading of that record began. -/
  start : Position
  /-- Where the next byte stands. -/
  here : Position
  /-- The finished records. -/
  records : List Record
  deriving Repr

namespace Scanner

/-- The reader at a place, before any record. -/
def init (p : Position) : Scanner :=
  ⟨.betweenRecords, [], [], p, p, []⟩

variable (s : Scanner)

/-- One more byte of the field. -/
def push (byte : UInt8) (mode : Mode) : Scanner :=
  { s with mode, field := byte :: s.field }

/-- The end of a field that another one follows. -/
def endField : Scanner :=
  { s with mode := .fieldStart, field := [], fields := s.field.reverse :: s.fields }

/-- The record being read, were it to end here. -/
def record : Record :=
  ⟨s.start, (s.field.reverse :: s.fields).reverse⟩

/-- The end of a record. The next one begins at the present place. -/
def endRecord : Scanner :=
  ⟨.betweenRecords, [], [], s.here, s.here, s.record :: s.records⟩

/-- A byte outside quotation marks that is not the first of its field. -/
def stepBare (byte : UInt8) : Scanner :=
  if byte == comma then s.endField
  else if isTerminator byte then s.endRecord
  else s.push byte .bare

/-- The first byte of a field. -/
def stepFieldStart (byte : UInt8) : Scanner :=
  if byte == quote then { s with mode := .quoted } else s.stepBare byte

/-- One more byte. -/
def step (byte : UInt8) : Scanner :=
  let s := { s with here := s.here.advance byte }
  match s.mode with
  | .betweenRecords => if isTerminator byte then s else s.stepFieldStart byte
  | .fieldStart => s.stepFieldStart byte
  | .bare => s.stepBare byte
  | .quoted =>
    if byte == quote then { s with mode := .quoteInQuoted } else s.push byte .quoted
  | .quoteInQuoted =>
    if byte == quote then s.push byte .quoted else s.stepBare byte

/-- The end of the file, which ends a record that has begun. -/
def finish : List Record :=
  match s.mode with
  | .betweenRecords => s.records.reverse
  | _ => (s.record :: s.records).reverse

end Scanner

/-- The bytes of a file without a leading byte-order mark, and where they start. -/
def afterByteOrderMark : List UInt8 → Position × List UInt8
  | 0xEF :: 0xBB :: 0xBF :: bytes => (⟨1, 3⟩, bytes)
  | bytes => (⟨1, 0⟩, bytes)

/-- The records of a file. -/
def records (file : List UInt8) : List Record :=
  let (start, bytes) := afterByteOrderMark file
  (bytes.foldl Scanner.step (Scanner.init start)).finish

end MixedWorkload.Csv

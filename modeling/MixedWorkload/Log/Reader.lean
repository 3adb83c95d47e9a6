import MixedWorkload.Csv.Reader
import MixedWorkload.Decimal.Reader
import MixedWorkload.Error
import MixedWorkload.Log.Basic
import MixedWorkload.Text.Blank
import MixedWorkload.Text.Utf8

/-!
# Reading a timing log

A timing log is a file of comma-separated records. The first record is a header, whatever
it holds; every other one is a row of five cells. Blanks around a cell do not belong to
it, and they are removed twice: the ASCII ones before the bytes are read as text, the
others after.

Rows are read in order and the first one at fault is the failure, so either every row
becomes a record or there is no log. Inside a row the texts are looked at before the
number of cells, and the number of cells before what they hold.

In the file start times have an arbitrary origin and latencies are in microseconds.
`MixedWorkload.TimingLog.ofRows` moves the earliest start to zero and turns latencies
into seconds.
-/

namespace MixedWorkload

/-- The number of microseconds in a second. -/
def microsecondsPerSecond : Float := 1000000.0

namespace TimingLog

/-! ### From bytes to cells -/

/-- Whether a byte is an ASCII blank. -/
def isBlankByte (byte : UInt8) : Bool :=
  byte == 0x20 || byte == 0x09 || byte == 0x0A || byte == 0x0C || byte == 0x0D

/-- The text of a field without the blanks around it. -/
def readField (bytes : List UInt8) : Except Text.Utf8.Invalid String :=
  (Text.Utf8.decode (Text.trimBy isBlankByte bytes)).map fun cs =>
    String.ofList (Text.trim cs)

/-- The texts of fields, the first of which has the position `index`. -/
def readFieldsFrom (index : Nat) : List (List UInt8) → Except (Nat × Nat) (List String)
  | [] => .ok []
  | field :: fields => match readField field with
    | .error invalid => .error (index, invalid.validUpTo)
    | .ok cell => (readFieldsFrom (index + 1) fields).map (cell :: ·)

/-- The texts of all fields of a record, or the position of the first field that is no
text and the number of its bytes that are. -/
def readFields (fields : List (List UInt8)) : Except (Nat × Nat) (List String) :=
  readFieldsFrom 0 fields

/-! ### From cells to rows -/

/-- The value of a cell. -/
def readCell {α : Type} (column : Column) (read : List Char → Option α) (cell : String) :
    Except RowFault α :=
  match read cell.toList with
  | some value => .ok value
  | none => .error (.cell column cell)

/-- The finite number that a text denotes. -/
def readFinite? (cs : List Char) : Option Float :=
  (Decimal.readFloat? cs).filter Float.isFinite

/-- The row that a list of cells holds, in the units of the file. -/
def readRow : List String → Except RowFault TimingRecord
  | [type, start, latency, worker, phase] => do
    let type ← readCell .transactionType Text.readUInt32? type
    let start ← readCell .startTime readFinite? start
    let latency ← readCell .latency readFinite? latency
    let phase ← readCell .phase Text.readInt64? phase
    return ⟨type, start, latency, worker, phase⟩
  | cells => .error (.cellCount cells.length)

/-- The place that is named for a field that is no text. The reader looks at its place
before it skips the header, and so the first row has the place of the header. -/
def reportedPlace (index : Nat) (record : Csv.Record) : Nat × Csv.Position :=
  if index ≤ 1 then (0, ⟨1, 0⟩) else (index, record.start)

/-- The row that the record with a given position holds. -/
def readRecord (index : Nat) (record : Csv.Record) : Except Error TimingRecord :=
  match readFields record.fields with
  | .error (field, validUpTo) =>
    let (number, start) := reportedPlace index record
    .error (.csv (.invalidText number start field validUpTo))
  | .ok cells => (readRow cells).mapError (.format record.start.line)

/-- The rows in a list of records, the first of which has the position `index`. -/
def readRecordsFrom (index : Nat) : List Csv.Record → Except Error (List TimingRecord)
  | [] => .ok []
  | record :: records => do
    let row ← readRecord index record
    let rows ← readRecordsFrom (index + 1) records
    return row :: rows

/-! ### From rows to a log -/

/-- A log from rows in the units of the file. -/
def ofRows (rows : List TimingRecord) : TimingLog :=
  let origin := least (rows.map TimingRecord.start)
  ⟨rows.map fun r =>
    { r with start := r.start - origin, latency := r.latency / microsecondsPerSecond }⟩

/-- The log in a file. -/
def read (file : List UInt8) : Except Error TimingLog :=
  (readRecordsFrom 1 ((Csv.records file).drop 1)).map ofRows

end TimingLog

end MixedWorkload

import MixedWorkload.Log.Reader
import MixedWorkload.Proofs.Csv.Header
import MixedWorkload.Proofs.Extremes
import MixedWorkload.Proofs.Text.Blank
import MixedWorkload.Proofs.Text.Utf8

/-!
# A log that was written is read

A timing log is a header, about which nothing is said, and rows of five cells. The texts of
a row are whatever the readers of numbers accept, and any text for the worker that does not
begin or end with a blank. `MixedWorkload.WrittenLog` is such a log in one of the ways in
which a file of records can be written, and `MixedWorkload.TimingLog.read_writtenLog` says
that reading it gives the rows, in their order and in the units of the library.

The one proviso is about a header that begins with the bytes of a byte-order mark in a file
that has none. They are taken for a mark, and what is left must still be a header, neither an
empty line nor the beginning of a quoted cell. Otherwise the rows are read as something else
(`MixedWorkload.TimingLog.exists_read_ne`).
-/

namespace MixedWorkload

open Csv Text

/-! ### Written rows -/

/-- **A cell with a value**: the text that it holds, and what a reader takes that text for. -/
structure WrittenCell {α : Type} (read : List Char → Option α) (value : α) where
  /-- The cell. -/
  cell : Cell
  /-- The text. -/
  text : String
  /-- The cell holds the text. -/
  content_eq : cell.content = Utf8.encode text
  /-- The text stands for the value. -/
  read_eq : read text.toList = some value

/-- **A row as it is written.** -/
structure WrittenRow where
  /-- What the row says, in the units of the file. -/
  record : TimingRecord
  /-- The cell of the type. -/
  type : WrittenCell readUInt32? record.type
  /-- The cell of the start. -/
  start : WrittenCell Decimal.readFloat? record.start
  /-- The cell of the latency. -/
  latency : WrittenCell Decimal.readFloat? record.latency
  /-- The cell of the worker. -/
  worker : Cell
  /-- The cell of the phase. -/
  phase : WrittenCell readInt64? record.phase
  /-- The start is a finite number. -/
  isFinite_start : record.start.isFinite = true
  /-- So is the latency. -/
  isFinite_latency : record.latency.isFinite = true
  /-- The cell of the worker holds the name. -/
  worker_eq : worker.content = Utf8.encode record.worker
  /-- The name has no blanks around it. -/
  isTrimmed_worker : IsTrimmed isBlank record.worker.toList

/-- The line of a row. -/
def WrittenRow.line (row : WrittenRow) : Line :=
  Line.ofCells row.type.cell row.start.cell [row.latency.cell, row.worker, row.phase.cell]

/-- A row, and the end of the line before it with the empty lines between. -/
structure NextRow where
  /-- How the line before ends. -/
  lineEnd : LineEnd
  /-- The empty lines between. -/
  emptyLines : List LineEnd
  /-- The row. -/
  row : WrittenRow

/-- **A log as it is written.** -/
structure WrittenLog where
  /-- Whether there is a byte-order mark. -/
  marked : Bool
  /-- The empty lines in front. -/
  emptyLines : List LineEnd
  /-- The header. -/
  header : Line
  /-- The rows. -/
  rows : List NextRow
  /-- The end of the last line, which may have none, and empty lines behind it. -/
  ends : List LineEnd

namespace WrittenLog

variable (log : WrittenLog)

/-- The file of a log. -/
def file : Rendering where
  marked := log.marked
  emptyLines := log.emptyLines
  first := log.header
  others := log.rows.map fun next => ⟨next.lineEnd, next.emptyLines, next.row.line⟩
  ends := log.ends

/-- What the rows say, in the units of the file. -/
def records : List TimingRecord :=
  log.rows.map fun next => next.row.record

end WrittenLog

/-- A bare cell without blanks that holds a text, and the value of the text. -/
def WrittenCell.plain {α : Type} {read : List Char → Option α} (cs : List Char) (value : α)
    (hplain : (cs.flatMap String.utf8EncodeChar).all isPlain = true)
    (hquote : (cs.flatMap String.utf8EncodeChar).head? ≠ some quote)
    (hread : read cs = some value) : WrittenCell read value where
  cell := .bare (.ofContent (cs.flatMap String.utf8EncodeChar) hplain hquote)
  text := String.ofList cs
  content_eq := by
    rw [Utf8.encode_eq, String.toList_ofList]
    rfl
  read_eq := by rwa [String.toList_ofList]

/-! ### Blanks around a text, as bytes -/

theorem toNat_of_isBlankByte {byte : UInt8} (h : TimingLog.isBlankByte byte = true) :
    byte.toNat = 0x20 ∨ 0x9 ≤ byte.toNat ∧ byte.toNat ≤ 0xD := by
  simp only [TimingLog.isBlankByte, Bool.or_eq_true, beq_iff_eq] at h
  rcases h with (((rfl | rfl) | rfl) | rfl) | rfl <;> decide

/-- Only a blank character has a blank byte: the bytes of the longer characters are out of
the range of blanks. -/
theorem isBlank_of_isBlankByte {c : Char} {byte : UInt8} (hmem : byte ∈ String.utf8EncodeChar c)
    (h : TimingLog.isBlankByte byte = true) : isBlank c = true := by
  have hbyte := toNat_of_isBlankByte h
  rcases Nat.lt_or_ge c.toNat 0x80 with hlt | hge
  · have hnat := Utf8.toNat_of_mem_encodeChar hlt hmem
    rw [hnat] at hbyte
    simp only [isBlank, inRanges, blankRanges, List.any_cons, Bool.or_eq_true,
      decide_eq_true_eq]
    omega
  · have hlong := Utf8.le_of_mem_encodeChar hge hmem
    omega

theorem isBlankByte_eq_false {c : Char} {byte : UInt8} (hmem : byte ∈ String.utf8EncodeChar c)
    (h : isBlank c = false) : TimingLog.isBlankByte byte = false := by
  by_contra hne
  rw [Bool.not_eq_false] at hne
  rw [isBlank_of_isBlankByte hmem hne] at h
  cases h

/-- **A text without blanks around it** has no blank bytes around it either. -/
theorem isTrimmed_encode {s : String} (h : IsTrimmed isBlank s.toList) :
    IsTrimmed TimingLog.isBlankByte (Utf8.encode s) := by
  rw [Utf8.encode_eq]
  generalize s.toList = cs at h
  constructor
  · cases cs with
    | nil => exact fun byte hbyte => absurd hbyte (by simp)
    | cons c cs =>
      intro byte hbyte
      refine isBlankByte_eq_false ?_ (h.head c rfl)
      rw [List.flatMap_cons, List.head?_append_of_ne_nil _ String.utf8EncodeChar_ne_nil] at hbyte
      exact List.mem_of_mem_head? hbyte
  · rcases List.eq_nil_or_concat cs with rfl | ⟨front, c, rfl⟩
    · exact fun byte hbyte => absurd hbyte (by simp)
    · intro byte hbyte
      refine isBlankByte_eq_false ?_ (h.last c (by simp))
      rw [List.concat_eq_append, List.flatMap_append, List.flatMap_singleton,
        List.getLast?_append_of_ne_nil _ String.utf8EncodeChar_ne_nil] at hbyte
      exact List.mem_of_getLast? hbyte

theorem isBlankByte_of_isPadding {byte : UInt8} (h : isPadding byte = true) :
    TimingLog.isBlankByte byte = true := by
  rw [isPadding, Bool.or_eq_true, beq_iff_eq, beq_iff_eq] at h
  rcases h with rfl | rfl <;> rfl

/-! ### From a written row to its record -/

namespace TimingLog

/-- **The text of a cell** is read without the blanks around it. -/
theorem readField_cell {cell : Cell} {text : String} (hcontent : cell.content = Utf8.encode text)
    (h : IsTrimmed isBlank text.toList) : readField cell.field = .ok text := by
  have htrim : trimBy isBlankByte cell.field = Utf8.encode text := by
    have hencode := isTrimmed_encode h
    cases cell with
    | bare cell =>
      have hbytes : cell.content = Utf8.encode text := hcontent
      rw [Cell.field, hbytes]
      exact trimBy_append
        (fun byte hbyte => isBlankByte_of_isPadding (cell.isPadding_left byte hbyte)) hencode
        fun byte hbyte => isBlankByte_of_isPadding (cell.isPadding_right byte hbyte)
    | quoted content =>
      obtain rfl : content = Utf8.encode text := hcontent
      exact trimBy_eq_self hencode
  have htext : trim text.toList = text.toList := trimBy_eq_self h
  rw [readField, htrim, Utf8.decode_encode]
  simp only [Except.map, htext, String.ofList_toList]

theorem readFields_line (row : WrittenRow) :
    readFields row.line.fields =
      .ok [row.type.text, row.start.text, row.latency.text, row.record.worker, row.phase.text] := by
  have htype := readField_cell row.type.content_eq
    (isSolid_of_readUInt32? row.type.read_eq).isTrimmed
  have hstart := readField_cell row.start.content_eq
    (isSolid_of_readFloat? row.start.read_eq).isTrimmed
  have hlatency := readField_cell row.latency.content_eq
    (isSolid_of_readFloat? row.latency.read_eq).isTrimmed
  have hworker := readField_cell row.worker_eq row.isTrimmed_worker
  have hphase := readField_cell row.phase.content_eq
    (isSolid_of_readInt64? row.phase.read_eq).isTrimmed
  simp only [readFields, WrittenRow.line, Line.ofCells, Line.fields, Line.cells, List.map_cons,
    List.map_nil, readFieldsFrom, htype, hstart, hlatency, hworker, hphase, Except.map]

theorem readFinite?_eq {cs : List Char} {x : Float} (h : Decimal.readFloat? cs = some x)
    (hx : x.isFinite = true) : readFinite? cs = some x := by
  rw [readFinite?, h, Option.filter_some, if_pos hx]

/-- **A written row** is read as what it says. -/
theorem readRecord_line (index : ℕ) (row : WrittenRow) {record : Csv.Record}
    (h : record.fields = row.line.fields) : readRecord index record = .ok row.record := by
  have hstart := readFinite?_eq row.start.read_eq row.isFinite_start
  have hlatency := readFinite?_eq row.latency.read_eq row.isFinite_latency
  have hrow : readRow [row.type.text, row.start.text, row.latency.text, row.record.worker,
      row.phase.text] = .ok row.record := by
    simp only [readRow, readCell, row.type.read_eq, hstart, hlatency, row.phase.read_eq, bind,
      Except.bind]
    rfl
  rw [readRecord, h, readFields_line]
  simp only [hrow, Except.mapError]

theorem readRecordsFrom_lines (index : ℕ) (rows : List WrittenRow) {records : List Csv.Record}
    (h : records.map Csv.Record.fields = rows.map fun row => row.line.fields) :
    readRecordsFrom index records = .ok (rows.map WrittenRow.record) := by
  induction rows generalizing index records with
  | nil =>
    obtain rfl := List.map_eq_nil_iff.mp h
    rfl
  | cons row rows ih =>
    obtain ⟨record, records, rfl, hrecord, hrecords⟩ := List.map_eq_cons_iff.mp h
    simp only [readRecordsFrom, readRecord_line index row hrecord, ih (index + 1) hrecords, bind,
      Except.bind]
    rfl

/-! ### A whole log -/

/-- The rows of a written log come out of its file. -/
theorem readRecordsFrom_writtenLog (log : WrittenLog) (h : log.file.HeaderStands) :
    readRecordsFrom 1 ((Csv.records log.file.bytes).drop 1) = .ok log.records := by
  have hrows : ((Csv.records log.file.bytes).drop 1).map Csv.Record.fields =
      (log.rows.map NextRow.row).map fun row => row.line.fields := by
    rw [List.drop_one, List.map_tail, tail_records_rendering log.file h]
    simp only [WrittenLog.file, List.map_map]
    rfl
  rw [readRecordsFrom_lines 1 _ hrows, WrittenLog.records, List.map_map]
  rfl

/-- **A log that was written is read**: one record for each row, in their order, with the
earliest start as the origin and the latencies in seconds. -/
theorem read_writtenLog (log : WrittenLog) (h : log.file.HeaderStands) :
    ∃ origin,
      (∀ r ∈ log.records, origin ≤ r.start) ∧
      (log.records ≠ [] → ∃ r ∈ log.records, r.start = origin) ∧
      read log.file.bytes = .ok ⟨log.records.map fun r =>
        ⟨r.type, r.start - origin, r.latency / 1000000.0, r.worker, r.phase⟩⟩ := by
  have hnumber : ∀ x ∈ log.records.map TimingRecord.start, x.isNaN = false := by
    intro x hx
    obtain ⟨r, hr, rfl⟩ := List.mem_map.mp hx
    obtain ⟨next, -, rfl⟩ := List.mem_map.mp hr
    exact (Binary64.isFinite_iff.mp next.row.isFinite_start).1
  have hread : read log.file.bytes = .ok (ofRows log.records) := by
    rw [read, readRecordsFrom_writtenLog log h]
    rfl
  refine ⟨least (log.records.map TimingRecord.start), fun r hr => ?_, fun hne => ?_, hread⟩
  · have hmem : r.start ∈ log.records.map TimingRecord.start := List.mem_map_of_mem hr
    have hfirst := isFirst_least hmem (hnumber _ hmem)
    exact Binary64.le_iff.mpr
      ⟨hfirst.isNumber, hnumber _ hmem, hfirst.le _ hmem (hnumber _ hmem)⟩
  · obtain ⟨r, hr⟩ := List.exists_mem_of_ne_nil _ hne
    have hmem : r.start ∈ log.records.map TimingRecord.start := List.mem_map_of_mem hr
    exact List.mem_map.mp (isFirst_least hmem (hnumber _ hmem)).mem

/-- A row whose worker has a comma, a line break and a quotation mark in the name. -/
def oddRow : WrittenRow where
  record := ⟨2, 0.0, 1000.0, String.ofList ['a', ',', '\n', '"', 'b'], 0⟩
  type := .plain ['2'] 2 rfl (by decide) rfl
  start := .plain ['0'] 0.0 rfl (by decide) rfl
  latency := .plain ['1', '0', '0', '0'] 1000.0 rfl (by decide) rfl
  worker := .quoted [0x61, 0x2C, 0x0A, 0x22, 0x62]
  phase := .plain ['0'] 0 rfl (by decide) rfl
  isFinite_start := by decide +kernel
  isFinite_latency := by decide +kernel
  worker_eq := by
    rw [Utf8.encode_eq, String.toList_ofList]
    rfl
  isTrimmed_worker := by
    rw [String.toList_ofList]
    constructor <;>
    · rintro c ⟨⟩
      rfl

/-- The row under a header of one cell, which is not empty, without a byte-order mark. -/
def oddLog (byte : UInt8) (content : List UInt8) (hplain : (byte :: content).all isPlain = true)
    (hquote : (byte :: content).head? ≠ some quote) : WrittenLog :=
  ⟨false, [], ⟨.bare (.ofContent (byte :: content) hplain hquote), [], List.cons_ne_nil _ _⟩,
    [⟨.pair, [.lineFeed], oddRow⟩], []⟩

/-- A header that begins with the bytes of a mark and goes on with a letter. -/
def letterLog : WrittenLog :=
  oddLog 0xEF [0xBB, 0xBF, 0x68] rfl (by decide)

/-- A log that is read as it was written. -/
theorem read_letterLog :
    letterLog.file.HeaderStands ∧
    ∃ origin,
      (∀ r ∈ letterLog.records, origin ≤ r.start) ∧
      (letterLog.records ≠ [] → ∃ r ∈ letterLog.records, r.start = origin) ∧
      read letterLog.file.bytes = .ok ⟨letterLog.records.map fun r =>
        ⟨r.type, r.start - origin, r.latency / 1000000.0, r.worker, r.phase⟩⟩ :=
  have h : letterLog.file.HeaderStands := by
    intro _ byte rest hbytes
    have hletter : letterLog.file.bytes = byteOrderMark ++ 0x68 :: letterLog.file.bytes.drop 4 :=
      rfl
    rw [hletter] at hbytes
    obtain ⟨rfl, -⟩ := List.cons.inj (List.append_cancel_left hbytes)
    exact ⟨rfl, by decide⟩
  ⟨h, read_writtenLog _ h⟩

/-- A header of nothing but the character whose bytes are those of the mark. -/
def markLog : WrittenLog :=
  oddLog 0xEF [0xBB, 0xBF] rfl (by decide)

/-- A header of this character and a quotation mark. -/
def quoteLog : WrittenLog :=
  oddLog 0xEF [0xBB, 0xBF, quote] rfl (by decide)

/-- **A header that is taken for a mark** and an empty line is lost, and the first row is
taken for the header. A quotation mark behind it does harm as well. -/
theorem exists_read_ne :
    read markLog.file.bytes = .ok ⟨[]⟩ ∧ markLog.records.length = 1 ∧
    (∃ fault, read quoteLog.file.bytes = .error fault) ∧ quoteLog.records.length = 1 :=
  ⟨rfl, rfl, ⟨_, rfl⟩, rfl⟩

end TimingLog

end MixedWorkload

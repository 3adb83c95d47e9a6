import MixedWorkload.Log.Reader
import MixedWorkload.Proofs.Csv.Finished
import MixedWorkload.Proofs.Log.Reading
import MixedWorkload.Proofs.Results
import MixedWorkload.Proofs.Text.Blank
import MixedWorkload.Proofs.Text.Decoding

/-!
# What is wrong with a file

A file is read as a whole or not at all. It is read if every record behind the header is a
row (`MixedWorkload.IsRow`), and otherwise the failure is that of the first record that is
none, of which `MixedWorkload.Fault` says how it is reported: a field that is no text comes
before a wrong number of cells, and that before a cell that does not hold a value of its
column, and among fields and cells the leftmost one is named.

Reading stops at the first fault, so what follows in the file is of no importance: every file
with the same beginning, up to the terminator of the record at fault, fails in the same way.
`MixedWorkload.TimingLog.readsExactly` puts this together.
-/

namespace MixedWorkload

open Csv Text

/-! ### Rows and faults -/

/-- Whether a column has a value for a text. -/
def Column.accepts : Column → List Char → Bool
  | .transactionType, cs => (readUInt32? cs).isSome
  | .startTime, cs => (TimingLog.readFinite? cs).isSome
  | .latency, cs => (TimingLog.readFinite? cs).isSome
  | .worker, _ => true
  | .phase, cs => (readInt64? cs).isSome

/-- A text without the blanks around it. -/
def trimmed (text : String) : String :=
  String.ofList (trim text.toList)

/-- **The cells of a record**: its fields are texts, and its cells are these texts without
the blanks around them. -/
def HasCells (record : Csv.Record) (cells : List String) : Prop :=
  ∃ texts : List String, record.fields = texts.map Utf8.encode ∧ cells = texts.map trimmed

/-- **A record that is a row**: five cells, each with a value of its column. -/
def IsRow (record : Csv.Record) : Prop :=
  ∃ cells, HasCells record cells ∧ cells.length = 5 ∧
    ∀ p ∈ Column.all.zip cells, p.1.accepts p.2.toList = true

/-- **What is wrong with a record**, the one with a given position, and how it is reported. -/
inductive Fault (index : ℕ) (record : Csv.Record) : Error → Prop
  /-- The leftmost field that is no text breaks off somewhere, once the blank bytes around it
  are taken off. -/
  | noText {before after : List (List UInt8)} {field : List UInt8} {validUpTo : ℕ}
      (hfields : record.fields = before ++ field :: after)
      (hbefore : ∀ f ∈ before, Utf8.IsText f) (hfield : ¬Utf8.IsText field)
      (hbreaks : Utf8.BreaksAt (trimBy TimingLog.isBlankByte field) validUpTo) :
    Fault index record (.csv (.invalidText (TimingLog.reportedPlace index record).1
      (TimingLog.reportedPlace index record).2 before.length validUpTo))
  /-- All fields are texts, but there are not five. -/
  | cellCount {cells : List String} (hcells : HasCells record cells) (hcount : cells.length ≠ 5) :
    Fault index record (.format record.start.line (.cellCount cells.length))
  /-- There are five, but one does not hold a value of its column, and it is the leftmost
  one. -/
  | cell {cells : List String} {before after : List (Column × String)} {column : Column}
      {text : String} (hcells : HasCells record cells) (hcount : cells.length = 5)
      (hzip : Column.all.zip cells = before ++ (column, text) :: after)
      (hbefore : ∀ p ∈ before, p.1.accepts p.2.toList = true)
      (hrefused : column.accepts text.toList = false) :
    Fault index record (.format record.start.line (.cell column text))

namespace TimingLog

/-- Mapping the value of a result leaves the failures as they are. -/
theorem map_eq_error_iff {ε α β : Type} {f : α → β} {x : Except ε α} {e : ε} :
    x.map f = .error e ↔ x = .error e := by
  cases x with
  | error e' =>
    constructor
    · intro h
      exact congrArg Except.error (Except.error.inj h)
    · intro h
      exact congrArg Except.error (Except.error.inj h)
  | ok a => exact ⟨fun h => (nomatch h), fun h => (nomatch h)⟩

/-! ### One field -/

/-- Whether a character is an ASCII blank. -/
def isBlankAscii (c : Char) : Bool :=
  decide (c.toNat < 0x80) && isBlankByte (UInt8.ofNat c.toNat)

theorem isBlankByte_of_mem_encodeChar (c : Char) :
    ∀ byte ∈ String.utf8EncodeChar c, isBlankByte byte = isBlankAscii c := by
  intro byte hbyte
  rw [isBlankAscii]
  rcases Nat.lt_or_ge c.toNat 0x80 with hlt | hge
  · have hnat := Utf8.toNat_of_mem_encodeChar hlt hbyte
    rw [decide_eq_true hlt, Bool.true_and, ← hnat, UInt8.ofNat_toNat]
  · -- the bytes of the longer characters are behind all blank bytes
    have hlong := Utf8.le_of_mem_encodeChar hge hbyte
    rw [decide_eq_false (by omega), Bool.false_and, Bool.eq_false_iff]
    intro hblank
    have hbound := toNat_of_isBlankByte hblank
    omega

theorem isBlank_of_isBlankAscii (c : Char) (h : isBlankAscii c = true) : isBlank c = true := by
  have hne : String.utf8EncodeChar c ≠ [] := String.utf8EncodeChar_ne_nil
  obtain ⟨byte, bytes, hbytes⟩ := List.exists_cons_of_ne_nil hne
  have hmem : byte ∈ String.utf8EncodeChar c := by
    rw [hbytes]
    exact List.mem_cons_self
  exact isBlank_of_isBlankByte hmem ((isBlankByte_of_mem_encodeChar c byte hmem).trans h)

/-- **The text of a field**: the blanks that are taken off before decoding would be taken off
after it. -/
theorem readField_encode (text : String) : readField (Utf8.encode text) = .ok (trimmed text) := by
  have htrim : trimBy isBlankByte (Utf8.encode text) =
      (trimBy isBlankAscii text.toList).flatMap String.utf8EncodeChar := by
    rw [Utf8.encode_eq]
    exact trimBy_flatMap isBlankByte_of_mem_encodeChar (fun _ => String.utf8EncodeChar_ne_nil) _
  rw [readField, Utf8.decode_eq_ok_iff.mpr htrim, Except.map, trim,
    trimBy_trimBy isBlank_of_isBlankAscii]
  rfl

/-- Blank bytes are characters. -/
theorem eq_flatMap_of_isBlankByte {bytes : List UInt8}
    (h : ∀ byte ∈ bytes, isBlankByte byte = true) :
    bytes = (bytes.map fun byte => Char.ofNat byte.toNat).flatMap String.utf8EncodeChar := by
  induction bytes with
  | nil => rfl
  | cons byte bytes ih =>
    have hbound := toNat_of_isBlankByte (h byte List.mem_cons_self)
    rw [List.map_cons, List.flatMap_cons, Utf8.encodeChar_one (by omega),
      ← ih fun b hb => h b (List.mem_cons_of_mem _ hb)]
    rfl

/-- **A field is read** if and only if its bytes are a text. -/
theorem readField_eq_ok_iff {bytes : List UInt8} {cell : String} :
    readField bytes = .ok cell ↔ ∃ text, bytes = Utf8.encode text ∧ cell = trimmed text := by
  constructor
  · intro h
    cases hdecode : Utf8.decode (trimBy isBlankByte bytes) with
    | error invalid =>
      rw [readField, hdecode] at h
      cases h
    | ok cs =>
      obtain ⟨left, right, hbytes, hleft, hright⟩ := exists_eq_trimBy isBlankByte bytes
      rw [Utf8.decode_eq_ok_iff.mp hdecode, eq_flatMap_of_isBlankByte hleft,
        eq_flatMap_of_isBlankByte hright, ← List.flatMap_append, ← List.flatMap_append] at hbytes
      obtain ⟨text, htext⟩ := Utf8.isText_flatMap
        (left.map (fun byte => Char.ofNat byte.toNat) ++ cs ++
          right.map fun byte => Char.ofNat byte.toNat)
      rw [← hbytes] at htext
      rw [htext, readField_encode] at h
      exact ⟨text, htext, (Except.ok.inj h).symm⟩
  · rintro ⟨text, rfl, rfl⟩
    exact readField_encode text

theorem readField_eq_error_iff {bytes : List UInt8} {n : ℕ} :
    readField bytes = .error ⟨n⟩ ↔ Utf8.BreaksAt (trimBy isBlankByte bytes) n := by
  rw [← Utf8.decode_eq_error_iff, readField, map_eq_error_iff]

theorem not_isText_of_readField {bytes : List UInt8} {invalid : Utf8.Invalid}
    (h : readField bytes = .error invalid) : ¬Utf8.IsText bytes := by
  rintro ⟨text, rfl⟩
  rw [readField_encode] at h
  cases h

/-! ### The fields of a record -/

/-- **The fields are read** if all of them are texts. -/
theorem readFieldsFrom_eq_ok_iff {k : ℕ} {fields : List (List UInt8)} {cells : List String} :
    readFieldsFrom k fields = .ok cells ↔
      ∃ texts : List String, fields = texts.map Utf8.encode ∧ cells = texts.map trimmed := by
  induction fields generalizing k cells with
  | nil =>
    constructor
    · intro h
      exact ⟨[], rfl, (Except.ok.inj h).symm⟩
    · rintro ⟨texts, hfields, rfl⟩
      rw [List.map_eq_nil_iff.mp hfields.symm]
      rfl
  | cons field fields ih =>
    constructor
    · intro h
      rw [readFieldsFrom] at h
      cases hfield : readField field with
      | error invalid =>
        rw [hfield] at h
        cases h
      | ok cell =>
        cases hfields : readFieldsFrom (k + 1) fields with
        | error fault =>
          rw [hfield, hfields] at h
          cases h
        | ok cells' =>
          rw [hfield, hfields] at h
          cases h
          obtain ⟨text, rfl, rfl⟩ := readField_eq_ok_iff.mp hfield
          obtain ⟨texts, rfl, rfl⟩ := ih.mp hfields
          exact ⟨text :: texts, rfl, rfl⟩
    · rintro ⟨texts, hfields, rfl⟩
      obtain ⟨text, texts, rfl, rfl, rfl⟩ := List.map_eq_cons_iff.mp hfields.symm
      have htexts := (ih (k := k + 1)).mpr ⟨texts, rfl, rfl⟩
      simp only [readFieldsFrom, readField_encode, htexts, Except.map, List.map_cons]

/-- **The leftmost field that is no text** is the one that is named. -/
theorem readFieldsFrom_eq_error_iff {k i n : ℕ} {fields : List (List UInt8)} :
    readFieldsFrom k fields = .error (i, n) ↔
      ∃ before field after, fields = before ++ field :: after ∧
        (∀ f ∈ before, Utf8.IsText f) ∧ readField field = .error ⟨n⟩ ∧ i = k + before.length := by
  induction fields generalizing k with
  | nil =>
    constructor
    · intro h
      cases h
    · rintro ⟨before, field, after, hfields, -⟩
      exact absurd hfields (by simp)
  | cons field fields ih =>
    rw [readFieldsFrom]
    cases hfield : readField field with
    | error invalid =>
      constructor
      · intro h
        cases h
        exact ⟨[], field, fields, rfl, List.forall_mem_nil _, hfield, rfl⟩
      · rintro ⟨before, field', after, hfields, hbefore, hfield', rfl⟩
        cases before with
        | nil =>
          obtain ⟨rfl, rfl⟩ := List.cons.inj hfields
          rw [hfield] at hfield'
          cases hfield'
          rfl
        | cons f before =>
          obtain ⟨rfl, -⟩ := List.cons.inj hfields
          exact absurd (hbefore field List.mem_cons_self) (not_isText_of_readField hfield)
    | ok cell =>
      obtain ⟨text, rfl, -⟩ := readField_eq_ok_iff.mp hfield
      refine map_eq_error_iff.trans (ih.trans ⟨?_, ?_⟩)
      · rintro ⟨before, field, after, rfl, hbefore, hfield', rfl⟩
        refine ⟨Utf8.encode text :: before, field, after, rfl,
          List.forall_mem_cons.mpr ⟨⟨text, rfl⟩, hbefore⟩, hfield', ?_⟩
        rw [List.length_cons]
        omega
      · rintro ⟨before, field, after, hfields, hbefore, hfield', rfl⟩
        cases before with
        | nil =>
          obtain ⟨rfl, -⟩ := List.cons.inj hfields
          exact absurd ⟨text, rfl⟩ (not_isText_of_readField hfield')
        | cons f before =>
          obtain ⟨rfl, rfl⟩ := List.cons.inj hfields
          refine ⟨before, field, after, rfl, (List.forall_mem_cons.mp hbefore).2, hfield', ?_⟩
          rw [List.length_cons]
          omega

/-! ### The cells of a row -/

/-- Whether the cell of a column does not hold a value of the column. -/
def refuses (p : Column × String) : Bool :=
  !p.1.accepts p.2.toList

/-- **Cells that are read from left to right**: the first one that is refused is the fault,
and there is a result if none is. -/
def ReadsCells {α : Type} (cells : List (Column × String)) (x : Except RowFault α) : Prop :=
  (∀ p, cells.find? refuses = some p → x = .error (.cell p.1 p.2)) ∧
    (cells.find? refuses = none → ∃ value, x = .ok value)

theorem readsCells_nil {α : Type} (value : α) : ReadsCells [] (.ok value) :=
  ⟨fun _ h => (nomatch h), fun _ => ⟨value, rfl⟩⟩

theorem readsCells_cons_of_accepts {α : Type} {column : Column} {cell : String}
    {cells : List (Column × String)} {x : Except RowFault α}
    (h : column.accepts cell.toList = true) (hx : ReadsCells cells x) :
    ReadsCells ((column, cell) :: cells) x := by
  have hnot : ¬refuses (column, cell) = true := by
    rw [refuses, h]
    exact Bool.false_ne_true
  rwa [ReadsCells, List.find?_cons_of_neg hnot]

/-- One cell, and then the others. -/
theorem readsCells_cons {α β : Type} {column : Column} {read : List Char → Option α}
    {cell : String} {cells : List (Column × String)} {next : α → Except RowFault β}
    (haccepts : column.accepts cell.toList = (read cell.toList).isSome)
    (hnext : ∀ value, ReadsCells cells (next value)) :
    ReadsCells ((column, cell) :: cells) (readCell column read cell >>= next) := by
  cases hread : read cell.toList with
  | none =>
    rw [hread] at haccepts
    have hrefuses : refuses (column, cell) = true := by
      rw [refuses, haccepts]
      rfl
    rw [readCell, hread, ReadsCells, List.find?_cons_of_pos hrefuses]
    exact ⟨fun p hp => Option.some.inj hp ▸ rfl, fun hnone => absurd hnone (Option.some_ne_none _)⟩
  | some value =>
    rw [hread] at haccepts
    rw [readCell, hread]
    exact readsCells_cons_of_accepts haccepts (hnext value)

theorem readCell_eq_ok {α : Type} {column : Column} {read : List Char → Option α} {cell : String}
    {value : α} (h : readCell column read cell = .ok value) : read cell.toList = some value := by
  unfold readCell at h
  split at h
  · next hread =>
    cases h
    exact hread
  · cases h

theorem isFinite_of_readFinite? {cs : List Char} {x : Float} (h : readFinite? cs = some x) :
    x.isFinite = true :=
  (Option.filter_eq_some_iff.mp h).2

/-- **Five cells are a row**, or the first one that is refused is the fault. -/
theorem readsCells_readRow {cells : List String} (h : cells.length = 5) :
    ReadsCells (Column.all.zip cells) (readRow cells) := by
  obtain ⟨type, start, latency, worker, phase, rfl⟩ :
      ∃ type start latency worker phase, cells = [type, start, latency, worker, phase] := by
    match cells, h with
    | [type, start, latency, worker, phase], _ => exact ⟨type, start, latency, worker, phase, rfl⟩
  refine readsCells_cons rfl fun type => readsCells_cons rfl fun start => ?_
  refine readsCells_cons rfl fun latency => readsCells_cons_of_accepts rfl ?_
  exact readsCells_cons rfl fun phase => readsCells_nil _

theorem readRow_of_length_ne {cells : List String} (h : cells.length ≠ 5) :
    readRow cells = .error (.cellCount cells.length) := by
  unfold readRow
  split
  · exact absurd rfl h
  · rfl

theorem find?_refuses_eq_none_iff {cells : List (Column × String)} :
    cells.find? refuses = none ↔ ∀ p ∈ cells, p.1.accepts p.2.toList = true := by
  simp only [List.find?_eq_none, refuses, Bool.not_eq_true', Bool.not_eq_false]

theorem find?_refuses_eq_some_iff {cells : List (Column × String)} {p : Column × String} :
    cells.find? refuses = some p ↔ p.1.accepts p.2.toList = false ∧ ∃ before after,
      cells = before ++ p :: after ∧ ∀ q ∈ before, q.1.accepts q.2.toList = true := by
  simp only [List.find?_eq_some_iff_append, refuses, Bool.not_not, Bool.not_eq_true']

/-! ### One record -/

variable {index : ℕ} {record : Csv.Record}

theorem readFields_eq_ok_iff {cells : List String} :
    readFields record.fields = .ok cells ↔ HasCells record cells :=
  readFieldsFrom_eq_ok_iff

theorem readRecord_of_hasCells {cells : List String} (h : HasCells record cells) :
    readRecord index record = (readRow cells).mapError (.format record.start.line) := by
  rw [readRecord, readFields_eq_ok_iff.mpr h]

/-- **A record is read** if and only if it is a row. -/
theorem exists_readRecord_iff (index : ℕ) :
    (∃ row, readRecord index record = .ok row) ↔ IsRow record := by
  constructor
  · rintro ⟨row, hrow⟩
    cases hfields : readFields record.fields with
    | error fault =>
      rw [readRecord, hfields] at hrow
      cases hrow
    | ok cells =>
      have hcells := readFields_eq_ok_iff.mp hfields
      rw [readRecord_of_hasCells hcells] at hrow
      by_cases hcount : cells.length = 5
      · refine ⟨cells, hcells, hcount, find?_refuses_eq_none_iff.mp ?_⟩
        cases hfind : (Column.all.zip cells).find? refuses with
        | none => rfl
        | some p =>
          rw [(readsCells_readRow hcount).1 p hfind] at hrow
          cases hrow
      · rw [readRow_of_length_ne hcount] at hrow
        cases hrow
  · rintro ⟨cells, hcells, hcount, haccepts⟩
    obtain ⟨row, hrow⟩ := (readsCells_readRow hcount).2 (find?_refuses_eq_none_iff.mpr haccepts)
    rw [readRecord_of_hasCells hcells, hrow]
    exact ⟨row, rfl⟩

/-- **A record fails** with its fault. -/
theorem readRecord_eq_error_iff {e : Error} :
    readRecord index record = .error e ↔ Fault index record e := by
  constructor
  · intro h
    cases hfields : readFields record.fields with
    | error fault =>
      obtain ⟨i, n⟩ := fault
      rw [readRecord, hfields] at h
      cases h
      obtain ⟨before, field, after, heq, hbefore, hfield, rfl⟩ :=
        readFieldsFrom_eq_error_iff.mp hfields
      rw [Nat.zero_add]
      exact .noText heq hbefore (not_isText_of_readField hfield)
        (readField_eq_error_iff.mp hfield)
    | ok cells =>
      have hcells := readFields_eq_ok_iff.mp hfields
      rw [readRecord_of_hasCells hcells] at h
      by_cases hcount : cells.length = 5
      · cases hfind : (Column.all.zip cells).find? refuses with
        | none =>
          obtain ⟨row, hrow⟩ := (readsCells_readRow hcount).2 hfind
          rw [hrow] at h
          cases h
        | some p =>
          rw [(readsCells_readRow hcount).1 p hfind] at h
          cases h
          obtain ⟨hrefused, before, after, hzip, hbefore⟩ := find?_refuses_eq_some_iff.mp hfind
          exact .cell hcells hcount hzip hbefore hrefused
      · rw [readRow_of_length_ne hcount] at h
        cases h
        exact .cellCount hcells hcount
  · intro h
    cases h with
    | noText hfields hbefore hfield hbreaks =>
      have hread := readFieldsFrom_eq_error_iff.mpr
        ⟨_, _, _, hfields, hbefore, readField_eq_error_iff.mpr hbreaks, (Nat.zero_add _).symm⟩
      rw [readRecord, readFields, hread]
    | cellCount hcells hcount =>
      rw [readRecord_of_hasCells hcells, readRow_of_length_ne hcount]
      rfl
    | cell hcells hcount hzip hbefore hrefused =>
      have hfind := find?_refuses_eq_some_iff.mpr ⟨hrefused, _, _, hzip, hbefore⟩
      rw [readRecord_of_hasCells hcells, (readsCells_readRow hcount).1 _ hfind]
      rfl

/-- A fault is a failure of a record that is no row. -/
theorem not_isRow_of_fault {e : Error} (h : Fault index record e) : ¬IsRow record := by
  intro hrow
  obtain ⟨row, hread⟩ := (exists_readRecord_iff index).mpr hrow
  rw [readRecord_eq_error_iff.mpr h] at hread
  cases hread

/-! ### One record after another -/

/-- Records that are read are read one by one. -/
theorem exists_of_readRecordsFrom_cons {records : List Csv.Record} {rows : List TimingRecord}
    (h : readRecordsFrom index (record :: records) = .ok rows) :
    ∃ row rest, readRecord index record = .ok row ∧
      readRecordsFrom (index + 1) records = .ok rest ∧ rows = row :: rest := by
  rw [readRecordsFrom] at h
  obtain ⟨row, hrow, h⟩ := exists_of_bind_eq_ok h
  obtain ⟨rest, hrest, h⟩ := exists_of_bind_eq_ok h
  cases h
  exact ⟨row, rest, hrow, hrest, rfl⟩

theorem readRecordsFrom_cons_ok {rows : TimingRecord} {records : List Csv.Record}
    (h : readRecord index record = .ok rows) :
    readRecordsFrom index (record :: records) =
      (readRecordsFrom (index + 1) records).map (rows :: ·) := by
  simp only [readRecordsFrom, h, bind, Except.bind]
  cases readRecordsFrom (index + 1) records <;> rfl

theorem readRecordsFrom_cons_error {e : Error} {records : List Csv.Record}
    (h : readRecord index record = .error e) :
    readRecordsFrom index (record :: records) = .error e := by
  simp only [readRecordsFrom, h, bind, Except.bind]

/-- **All records are read** if and only if all of them are rows. -/
theorem exists_readRecordsFrom_iff (index : ℕ) {records : List Csv.Record} :
    (∃ rows, readRecordsFrom index records = .ok rows) ↔ ∀ r ∈ records, IsRow r := by
  induction records generalizing index with
  | nil => exact ⟨fun _ => List.forall_mem_nil _, fun _ => ⟨[], rfl⟩⟩
  | cons record records ih =>
    rw [List.forall_mem_cons, ← exists_readRecord_iff index, ← ih (index + 1)]
    constructor
    · rintro ⟨rows, hrows⟩
      obtain ⟨row, rest, hrow, hrest, -⟩ := exists_of_readRecordsFrom_cons hrows
      exact ⟨⟨row, hrow⟩, rest, hrest⟩
    · rintro ⟨⟨row, hrow⟩, rows, hrows⟩
      rw [readRecordsFrom_cons_ok hrow, hrows]
      exact ⟨row :: rows, rfl⟩

theorem length_readRecordsFrom {records : List Csv.Record} {rows : List TimingRecord}
    (h : readRecordsFrom index records = .ok rows) : rows.length = records.length := by
  induction records generalizing index rows with
  | nil =>
    cases h
    rfl
  | cons record records ih =>
    obtain ⟨row, rest, -, hrest, rfl⟩ := exists_of_readRecordsFrom_cons h
    exact congrArg (· + 1) (ih hrest)

/-- **The first fault** is the failure of the whole, whatever follows. -/
theorem readRecordsFrom_eq_error_iff {records : List Csv.Record} {e : Error} :
    readRecordsFrom index records = .error e ↔
      ∃ before record after, records = before ++ record :: after ∧ (∀ r ∈ before, IsRow r) ∧
        Fault (index + before.length) record e := by
  induction records generalizing index with
  | nil =>
    constructor
    · intro h
      cases h
    · rintro ⟨before, record, after, hrecords, -⟩
      exact absurd hrecords (by simp)
  | cons record records ih =>
    cases hrecord : readRecord index record with
    | error e' =>
      rw [readRecordsFrom_cons_error hrecord]
      have hfault := readRecord_eq_error_iff.mp hrecord
      constructor
      · intro h
        cases h
        exact ⟨[], record, records, rfl, List.forall_mem_nil _, hfault⟩
      · rintro ⟨before, record', after, hrecords, hbefore, hfault'⟩
        cases before with
        | nil =>
          obtain ⟨rfl, -⟩ := List.cons.inj hrecords
          have hsame := hrecord.symm.trans (readRecord_eq_error_iff.mpr hfault')
          exact congrArg Except.error (Except.error.inj hsame)
        | cons r before =>
          obtain ⟨rfl, -⟩ := List.cons.inj hrecords
          exact absurd (hbefore record List.mem_cons_self) (not_isRow_of_fault hfault)
    | ok row =>
      have hrow := (exists_readRecord_iff index).mp ⟨row, hrecord⟩
      rw [readRecordsFrom_cons_ok hrecord, map_eq_error_iff, ih]
      constructor
      · rintro ⟨before, record', after, rfl, hbefore, hfault⟩
        refine ⟨record :: before, record', after, rfl,
          List.forall_mem_cons.mpr ⟨hrow, hbefore⟩, ?_⟩
        rwa [List.length_cons, Nat.add_comm before.length, ← Nat.add_assoc]
      · rintro ⟨before, record', after, hrecords, hbefore, hfault⟩
        cases before with
        | nil =>
          obtain ⟨rfl, -⟩ := List.cons.inj hrecords
          exact absurd hrow (not_isRow_of_fault hfault)
        | cons r before =>
          obtain ⟨rfl, rfl⟩ := List.cons.inj hrecords
          refine ⟨before, record', after, rfl, (List.forall_mem_cons.mp hbefore).2, ?_⟩
          rwa [List.length_cons, Nat.add_comm before.length, ← Nat.add_assoc] at hfault

/-! ### A file -/

/-- The records of a file behind its header. -/
def dataRecords (file : List UInt8) : List Csv.Record :=
  (Csv.records file).drop 1

/-- **The first fault of a file**: where it is, and how it is reported. -/
structure FirstFault (file : List UInt8) (before : List Csv.Record) (record : Csv.Record)
    (e : Error) : Prop where
  /-- The record at fault is in the file, behind some others. -/
  exists_after : ∃ after, dataRecords file = before ++ record :: after
  /-- The others are rows. -/
  isRow_before : ∀ r ∈ before, IsRow r
  /-- The record itself is none. -/
  fault : Fault (before.length + 1) record e

/-- **Reading is all or nothing**, and it stops at the first fault. -/
structure ReadsExactly (file : List UInt8) : Prop where
  /-- The file is read if and only if every record behind the header is a row. -/
  ok_iff : (∃ log, read file = .ok log) ↔ ∀ record ∈ dataRecords file, IsRow record
  /-- Then there is one record for each row. -/
  length_eq : ∀ log, read file = .ok log → log.length = (dataRecords file).length
  /-- Otherwise the failure is the first fault. -/
  error_iff : ∀ e, read file = .error e ↔ ∃ before record, FirstFault file before record e
  /-- Any file with the same beginning, up to the terminator of the record at fault, fails in
  the same way. -/
  error_of_prefix : ∀ before record e, FirstFault file before record e →
    ∀ front rest, file = front ++ rest → EndsRecord front (before.length + 1) →
      ∀ rest', read (front ++ rest') = .error e
  /-- There is such a beginning unless the record at fault is the last one and has no
  terminator. -/
  exists_prefix : ∀ before record e, FirstFault file before record e →
    (∃ front rest, file = front ++ rest ∧ EndsRecord front (before.length + 1)) ∨
      (finished file).length = before.length + 1 ∧
        (dataRecords file).length = before.length + 1

theorem read_eq_ok_iff {file : List UInt8} {log : TimingLog} :
    read file = .ok log ↔ ∃ rows, readRecordsFrom 1 (dataRecords file) = .ok rows ∧
      ofRows rows = log := by
  rw [read, dataRecords]
  cases readRecordsFrom 1 ((Csv.records file).drop 1) with
  | error e =>
    constructor
    · intro h
      cases h
    · rintro ⟨rows, h, -⟩
      cases h
  | ok rows =>
    constructor
    · intro h
      exact ⟨rows, rfl, Except.ok.inj h⟩
    · rintro ⟨rows', h, rfl⟩
      cases h
      rfl

theorem read_eq_error_iff {file : List UInt8} {e : Error} :
    read file = .error e ↔ ∃ before record, FirstFault file before record e := by
  rw [read, map_eq_error_iff, readRecordsFrom_eq_error_iff]
  constructor
  · rintro ⟨before, record, after, hrecords, hbefore, hfault⟩
    rw [Nat.add_comm] at hfault
    exact ⟨before, record, ⟨after, hrecords⟩, hbefore, hfault⟩
  · rintro ⟨before, record, ⟨after, hrecords⟩, hbefore, hfault⟩
    rw [Nat.add_comm] at hfault
    exact ⟨before, record, after, hrecords, hbefore, hfault⟩

/-- **The records behind the header up to a terminator** are the same in every file with the
same beginning. -/
theorem exists_dataRecords_append {front : List UInt8} {n : ℕ} (h : EndsRecord front (n + 1))
    (rest : List UInt8) :
    ∃ after, dataRecords (front ++ rest) = (finished front).drop 1 ++ after := by
  obtain ⟨after, hafter⟩ := finished_prefix_records front rest
  have hpos : 1 ≤ (finished front).length := by
    rw [h.length_eq]
    omega
  exact ⟨after, by rw [dataRecords, ← hafter, List.drop_append_of_le_length hpos]⟩

theorem FirstFault.error_of_prefix {before : List Csv.Record} {record : Csv.Record} {e : Error}
    {front rest : List UInt8} (h : FirstFault (front ++ rest) before record e)
    (hfront : EndsRecord front (before.length + 1)) (rest' : List UInt8) :
    read (front ++ rest') = .error e := by
  obtain ⟨after, hrecords⟩ := h.exists_after
  obtain ⟨after₁, hrest⟩ := exists_dataRecords_append hfront rest
  obtain ⟨after₂, hrest'⟩ := exists_dataRecords_append hfront rest'
  -- the beginning holds exactly the records up to the one at fault
  have hlength : ((finished front).drop 1).length = (before ++ [record]).length := by
    rw [List.length_drop, hfront.length_eq, List.length_append, List.length_singleton]
    omega
  have hshared : (finished front).drop 1 = before ++ [record] := by
    rw [hrest, List.append_cons] at hrecords
    exact (List.append_inj hrecords hlength).1
  rw [hshared, ← List.append_cons] at hrest'
  exact read_eq_error_iff.mpr ⟨before, record, ⟨after₂, hrest'⟩, h.isRow_before, h.fault⟩

theorem FirstFault.exists_prefix {file : List UInt8} {before : List Csv.Record}
    {record : Csv.Record} {e : Error} (h : FirstFault file before record e) :
    (∃ front rest, file = front ++ rest ∧ EndsRecord front (before.length + 1)) ∨
      (finished file).length = before.length + 1 ∧
        (dataRecords file).length = before.length + 1 := by
  obtain ⟨after, hrecords⟩ := h.exists_after
  have hlength : before.length + 1 ≤ (dataRecords file).length := by
    rw [hrecords, List.length_append, List.length_cons]
    omega
  rcases Nat.lt_or_ge (before.length + 1) (finished file).length with hlt | hge
  · exact Or.inl (exists_endsRecord hlt)
  · right
    rw [dataRecords, List.length_drop] at hlength ⊢
    rcases records_eq file with heq | ⟨r, heq⟩ <;>
      simp only [heq, List.length_append, List.length_singleton] at hlength ⊢ <;> omega

/-- **What reading a file comes to.** -/
theorem readsExactly (file : List UInt8) : ReadsExactly file where
  ok_iff := by
    rw [← exists_readRecordsFrom_iff 1]
    constructor
    · rintro ⟨log, hlog⟩
      obtain ⟨rows, hrows, -⟩ := read_eq_ok_iff.mp hlog
      exact ⟨rows, hrows⟩
    · rintro ⟨rows, hrows⟩
      exact ⟨ofRows rows, read_eq_ok_iff.mpr ⟨rows, hrows, rfl⟩⟩
  length_eq log hlog := by
    obtain ⟨rows, hrows, rfl⟩ := read_eq_ok_iff.mp hlog
    rw [← length_readRecordsFrom hrows]
    exact List.length_map _
  error_iff _ := read_eq_error_iff
  error_of_prefix _ _ _ h _ _ hfile hfront rest' := by
    subst hfile
    exact h.error_of_prefix hfront rest'
  exists_prefix _ _ _ h := h.exists_prefix

end TimingLog

end MixedWorkload

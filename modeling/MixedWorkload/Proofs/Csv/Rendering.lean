import Mathlib
import MixedWorkload.Csv.Reader

/-!
# Writing records and reading them back

One list of records can be written in many ways: a cell bare or quoted, a bare one with
blanks around it, a line with any of three endings, empty lines between two others, and a
byte-order mark in front. `MixedWorkload.Csv.Rendering` is a file in one of these ways,
with every choice recorded, and `MixedWorkload.Csv.records_rendering` says that the reader
gives back the fields, whatever the choices were.

The reader is a machine that takes a byte at a time, so the proof follows the file: what a
cell does to a reader that stands at the start of a field, what a line does to one between
records, and so on up to the file. The places in the file are of no interest here, and
`MixedWorkload.Csv.View` is a reader without them.

A byte-order mark is recognised by its three bytes, so a file that has them in front without
a mark being meant is not read as it was written. This is the only such case, and even then
it is often the header only that suffers (`MixedWorkload.Csv.tail_records_rendering`).
-/

namespace MixedWorkload.Csv

/-! ### Cells and lines -/

/-- A blank that may stand around a bare cell. -/
def isPadding (byte : UInt8) : Bool :=
  byte == 0x20 || byte == 0x09

/-- Whether a byte may stand in a bare cell. -/
def isPlain (byte : UInt8) : Bool :=
  !(byte == comma || isTerminator byte)

/-- A bare cell: its content, and the blanks around it. -/
structure BareCell where
  /-- The blanks in front. -/
  left : List UInt8
  /-- What the cell holds. -/
  content : List UInt8
  /-- The blanks behind. -/
  right : List UInt8
  /-- In front there are only blanks. -/
  isPadding_left : ∀ byte ∈ left, isPadding byte = true
  /-- Behind there are only blanks. -/
  isPadding_right : ∀ byte ∈ right, isPadding byte = true
  /-- The content divides neither fields nor records. -/
  isPlain_content : ∀ byte ∈ content, isPlain byte = true
  /-- It does not begin like a quoted cell. -/
  head_ne_quote : content.head? ≠ some quote

/-- A bare cell without blanks. -/
def BareCell.ofContent (content : List UInt8) (hplain : content.all isPlain = true)
    (hquote : content.head? ≠ some quote) : BareCell :=
  ⟨[], content, [], List.forall_mem_nil _, List.forall_mem_nil _, List.all_eq_true.mp hplain,
    hquote⟩

/-- **A cell as it is written.** -/
inductive Cell
  /-- As it is, with blanks around it. -/
  | bare (cell : BareCell)
  /-- In quotation marks, those of the content doubled. -/
  | quoted (content : List UInt8)

/-- A quotation mark within a quoted cell is doubled. -/
def doubled (content : List UInt8) : List UInt8 :=
  content.flatMap fun byte => if byte = quote then [quote, quote] else [byte]

namespace Cell

/-- What a cell holds. -/
def content : Cell → List UInt8
  | bare cell => cell.content
  | quoted content => content

/-- The bytes of a cell. -/
def bytes : Cell → List UInt8
  | bare cell => cell.left ++ cell.content ++ cell.right
  | quoted content => quote :: doubled content ++ [quote]

/-- What the reader makes of a cell: the blanks around it still belong to the field. -/
def field : Cell → List UInt8
  | bare cell => cell.left ++ cell.content ++ cell.right
  | quoted content => content

end Cell

/-- **A line**: cells with commas between them, at least one, and not an empty line. -/
structure Line where
  /-- The first cell. -/
  first : Cell
  /-- The cells behind it. -/
  others : List Cell
  /-- There is something on the line. -/
  ne_nil : first.bytes ++ others.flatMap (fun cell => comma :: cell.bytes) ≠ []

namespace Line

variable (line : Line)

/-- The cells from left to right. -/
def cells : List Cell :=
  line.first :: line.others

/-- The bytes of a line. -/
def bytes : List UInt8 :=
  line.first.bytes ++ line.others.flatMap fun cell => comma :: cell.bytes

/-- The fields of a line. -/
def fields : List (List UInt8) :=
  line.cells.map Cell.field

/-- A line of several cells has a comma on it. -/
def ofCells (first second : Cell) (others : List Cell) : Line :=
  ⟨first, second :: others, by simp⟩

end Line

/-! ### Files -/

/-- How a line ends. -/
inductive LineEnd
  /-- With a line feed. -/
  | lineFeed
  /-- With a carriage return. -/
  | carriageReturn
  /-- With both. -/
  | pair

/-- The bytes of a line end. -/
def LineEnd.bytes : LineEnd → List UInt8
  | lineFeed => [Csv.lineFeed]
  | carriageReturn => [Csv.carriageReturn]
  | pair => [Csv.carriageReturn, Csv.lineFeed]

/-- The bytes of line ends in a row. After the first one they are empty lines. -/
def endBytes (ends : List LineEnd) : List UInt8 :=
  ends.flatMap LineEnd.bytes

/-- The bytes that mark a file as UTF-8. -/
def byteOrderMark : List UInt8 := [0xEF, 0xBB, 0xBF]

/-- A line, and the end of the line before it with the empty lines between. -/
structure NextLine where
  /-- How the line before ends. -/
  lineEnd : LineEnd
  /-- The empty lines between. -/
  emptyLines : List LineEnd
  /-- The line. -/
  line : Line

/-- The bytes from the end of one line to that of the next. -/
def NextLine.bytes (next : NextLine) : List UInt8 :=
  endBytes (next.lineEnd :: next.emptyLines) ++ next.line.bytes

/-- **A file as it is written.** -/
structure Rendering where
  /-- Whether there is a byte-order mark. -/
  marked : Bool
  /-- The empty lines in front. -/
  emptyLines : List LineEnd
  /-- The first line. -/
  first : Line
  /-- The lines behind it. -/
  others : List NextLine
  /-- The end of the last line, which may have none, and empty lines behind it. -/
  ends : List LineEnd

namespace Rendering

variable (file : Rendering)

/-- The bytes behind a byte-order mark. -/
def body : List UInt8 :=
  endBytes file.emptyLines ++ file.first.bytes ++ file.others.flatMap NextLine.bytes ++
    endBytes file.ends

/-- The bytes of a file. -/
def bytes : List UInt8 :=
  (if file.marked then byteOrderMark else []) ++ file.body

/-- The lines of a file. -/
def lines : List Line :=
  file.first :: file.others.map NextLine.line

end Rendering

/-! ### The reader without places -/

/-- A reader, but for the places in the file. -/
structure View where
  /-- What the next byte means. -/
  mode : Mode
  /-- The bytes of the field being read, the newest first. -/
  field : List UInt8
  /-- The finished fields of the record being read, the newest first. -/
  fields : List (List UInt8)
  /-- The fields of the finished records, the newest first. -/
  records : List (List (List UInt8))

/-- A reader without its places. -/
def Scanner.view (s : Scanner) : View :=
  ⟨s.mode, s.field, s.fields, s.records.map Record.fields⟩

/-- The fields of the record being read, were it to end here. -/
def View.current (v : View) : List (List UInt8) :=
  (v.field.reverse :: v.fields).reverse

section Steps

variable {s : Scanner} {byte : UInt8} {m : Mode} {f : List UInt8} {fs : List (List UInt8)}
  {rs : List (List (List UInt8))}

theorem view_step_push (h : s.view = ⟨.bare, f, fs, rs⟩) (hb : isPlain byte = true) :
    (s.step byte).view = ⟨.bare, byte :: f, fs, rs⟩ := by
  obtain ⟨mode, field, fields, start, here, records⟩ := s
  obtain ⟨rfl, rfl, rfl, rfl⟩ := View.mk.inj h
  rw [isPlain, Bool.not_eq_true', Bool.or_eq_false_iff] at hb
  simp only [Scanner.step, Scanner.stepBare, hb.1, hb.2, Bool.false_eq_true, if_false]
  rfl

/-- A reader that stands at the start of a field, be it the first of a record or not. -/
def IsStart (m : Mode) : Prop := m = .betweenRecords ∨ m = .fieldStart

theorem view_step_first (h : s.view = ⟨m, f, fs, rs⟩) (hm : IsStart m) (hb : isPlain byte = true)
    (hq : byte ≠ quote) : (s.step byte).view = ⟨.bare, byte :: f, fs, rs⟩ := by
  obtain ⟨mode, field, fields, start, here, records⟩ := s
  obtain ⟨rfl, rfl, rfl, rfl⟩ := View.mk.inj h
  have hq' : (byte == quote) = false := beq_eq_false_iff_ne.mpr hq
  rw [isPlain, Bool.not_eq_true', Bool.or_eq_false_iff] at hb
  rcases hm with rfl | rfl <;>
    simp only [Scanner.step, Scanner.stepFieldStart, Scanner.stepBare, hb.1, hb.2, hq',
      Bool.false_eq_true, if_false] <;> rfl

theorem view_step_open (h : s.view = ⟨m, f, fs, rs⟩) (hm : IsStart m) :
    (s.step quote).view = ⟨.quoted, f, fs, rs⟩ := by
  obtain ⟨mode, field, fields, start, here, records⟩ := s
  obtain ⟨rfl, rfl, rfl, rfl⟩ := View.mk.inj h
  rcases hm with rfl | rfl <;> rfl

theorem view_step_quoted (h : s.view = ⟨.quoted, f, fs, rs⟩) (hq : byte ≠ quote) :
    (s.step byte).view = ⟨.quoted, byte :: f, fs, rs⟩ := by
  obtain ⟨mode, field, fields, start, here, records⟩ := s
  obtain ⟨rfl, rfl, rfl, rfl⟩ := View.mk.inj h
  have hq' : (byte == quote) = false := beq_eq_false_iff_ne.mpr hq
  simp only [Scanner.step, hq', Bool.false_eq_true, if_false]
  rfl

theorem view_step_close (h : s.view = ⟨.quoted, f, fs, rs⟩) :
    (s.step quote).view = ⟨.quoteInQuoted, f, fs, rs⟩ := by
  obtain ⟨mode, field, fields, start, here, records⟩ := s
  obtain ⟨rfl, rfl, rfl, rfl⟩ := View.mk.inj h
  rfl

theorem view_step_double (h : s.view = ⟨.quoteInQuoted, f, fs, rs⟩) :
    (s.step quote).view = ⟨.quoted, quote :: f, fs, rs⟩ := by
  obtain ⟨mode, field, fields, start, here, records⟩ := s
  obtain ⟨rfl, rfl, rfl, rfl⟩ := View.mk.inj h
  rfl

theorem view_step_comma (h : s.view = ⟨m, f, fs, rs⟩) (hm : m ≠ .quoted) :
    (s.step comma).view = ⟨.fieldStart, [], f.reverse :: fs, rs⟩ := by
  obtain ⟨mode, field, fields, start, here, records⟩ := s
  obtain ⟨rfl, rfl, rfl, rfl⟩ := View.mk.inj h
  cases mode with
  | quoted => exact absurd rfl hm
  | betweenRecords | fieldStart | bare | quoteInQuoted => rfl

/-- A reader within a record and outside quotation marks. -/
def IsWithin (m : Mode) : Prop := m = .fieldStart ∨ m = .bare ∨ m = .quoteInQuoted

theorem view_step_end (h : s.view = ⟨m, f, fs, rs⟩) (hm : IsWithin m)
    (ht : isTerminator byte = true) :
    (s.step byte).view =
      ⟨.betweenRecords, [], [], View.current ⟨m, f, fs, rs⟩ :: rs⟩ := by
  obtain ⟨mode, field, fields, start, here, records⟩ := s
  obtain ⟨rfl, rfl, rfl, rfl⟩ := View.mk.inj h
  have hcases : byte = lineFeed ∨ byte = carriageReturn := by
    rwa [isTerminator, Bool.or_eq_true, beq_iff_eq, beq_iff_eq] at ht
  rcases hcases with rfl | rfl <;> rcases hm with rfl | rfl | rfl <;> rfl

theorem view_step_skip (h : s.view = ⟨.betweenRecords, f, fs, rs⟩)
    (ht : isTerminator byte = true) : (s.step byte).view = ⟨.betweenRecords, f, fs, rs⟩ := by
  obtain ⟨mode, field, fields, start, here, records⟩ := s
  obtain ⟨rfl, rfl, rfl, rfl⟩ := View.mk.inj h
  simp only [Scanner.step, ht, if_true]
  rfl

/-! ### A cell -/

variable {bytes : List UInt8}

theorem view_foldl_bare (h : s.view = ⟨.bare, f, fs, rs⟩)
    (hb : ∀ byte ∈ bytes, isPlain byte = true) :
    (bytes.foldl Scanner.step s).view = ⟨.bare, bytes.reverse ++ f, fs, rs⟩ := by
  induction bytes generalizing s f with
  | nil => exact h
  | cons byte bytes ih =>
    have hstep := view_step_push h (hb byte List.mem_cons_self)
    rw [List.foldl_cons, ih hstep fun b hmem => hb b (List.mem_cons_of_mem _ hmem),
      List.reverse_cons, List.append_assoc, List.singleton_append]

/-- Bytes that may stand in a bare cell are read as they are from the start of a field on. -/
theorem view_foldl_plain (h : s.view = ⟨m, [], fs, rs⟩) (hm : IsStart m)
    (hb : ∀ byte ∈ bytes, isPlain byte = true) (hq : bytes.head? ≠ some quote) :
    (bytes.foldl Scanner.step s).view =
      ⟨if bytes = [] then m else .bare, bytes.reverse, fs, rs⟩ := by
  cases bytes with
  | nil => exact h
  | cons byte bytes =>
    have hstep := view_step_first h hm (hb byte List.mem_cons_self)
      fun heq => hq (congrArg some heq)
    rw [List.foldl_cons, view_foldl_bare hstep fun b hmem => hb b (List.mem_cons_of_mem _ hmem),
      if_neg (List.cons_ne_nil _ _), List.reverse_cons]

theorem view_foldl_doubled (content : List UInt8) (h : s.view = ⟨.quoted, f, fs, rs⟩) :
    ((doubled content).foldl Scanner.step s).view =
      ⟨.quoted, content.reverse ++ f, fs, rs⟩ := by
  induction content generalizing s f with
  | nil => exact h
  | cons byte content ih =>
    rw [doubled, List.flatMap_cons, List.foldl_append, ← doubled, List.reverse_cons,
      List.append_assoc, List.singleton_append]
    split
    · next heq =>
      subst heq
      exact ih (view_step_double (view_step_close h))
    · next hne => exact ih (view_step_quoted h hne)

theorem BareCell.isPlain_bytes (cell : BareCell) :
    ∀ byte ∈ cell.left ++ cell.content ++ cell.right, isPlain byte = true := by
  have hpad : ∀ byte : UInt8, isPadding byte = true → isPlain byte = true := by
    intro byte hbyte
    rw [isPadding, Bool.or_eq_true, beq_iff_eq, beq_iff_eq] at hbyte
    rcases hbyte with rfl | rfl <;> rfl
  rw [List.forall_mem_append, List.forall_mem_append]
  exact ⟨⟨fun byte hbyte => hpad byte (cell.isPadding_left byte hbyte), cell.isPlain_content⟩,
    fun byte hbyte => hpad byte (cell.isPadding_right byte hbyte)⟩

theorem BareCell.head_bytes_ne_quote (cell : BareCell) :
    (cell.left ++ cell.content ++ cell.right).head? ≠ some quote := by
  have hpad : ∀ xs : List UInt8, (∀ byte ∈ xs, isPadding byte = true) →
      xs.head? ≠ some quote := by
    intro xs hxs hhead
    exact absurd (hxs quote (List.mem_of_mem_head? hhead)) (by decide)
  obtain ⟨left, content, right, hleft, hright, -, hquote⟩ := cell
  cases left with
  | cons byte left => exact hpad (byte :: left) hleft
  | nil =>
    cases content with
    | cons byte content => exact hquote
    | nil => exact hpad right hright

/-- **A cell read from the start of a field**: its field is read, and the reader stands
outside quotation marks. It stands where it was only if there was nothing to read. -/
theorem view_foldl_cell (h : s.view = ⟨m, [], fs, rs⟩) (hm : IsStart m) (cell : Cell) :
    ∃ m', (cell.bytes.foldl Scanner.step s).view = ⟨m', cell.field.reverse, fs, rs⟩ ∧
      m' ≠ .quoted ∧ (IsWithin m' ∨ cell.bytes = [] ∧ m' = m) := by
  have hne : m ≠ .quoted := by
    rcases hm with rfl | rfl <;> exact Mode.noConfusion
  cases cell with
  | bare cell =>
    refine ⟨_, view_foldl_plain h hm cell.isPlain_bytes cell.head_bytes_ne_quote, ?_⟩
    by_cases hnil : (Cell.bare cell).bytes = []
    · rw [if_pos hnil]
      exact ⟨hne, Or.inr ⟨hnil, rfl⟩⟩
    · rw [if_neg hnil]
      exact ⟨Mode.noConfusion, Or.inl (Or.inr (Or.inl rfl))⟩
  | quoted content =>
    have hcontent := view_foldl_doubled content (view_step_open h hm)
    rw [List.append_nil] at hcontent
    refine ⟨.quoteInQuoted, ?_, Mode.noConfusion, Or.inl (Or.inr (Or.inr rfl))⟩
    rw [Cell.bytes, List.cons_append, List.foldl_cons, List.foldl_append]
    exact view_step_close hcontent

/-! ### A line -/

/-- The cells behind a comma each, added to a record that has been begun. -/
theorem view_foldl_others (cells : List Cell) (h : s.view = ⟨m, f, fs, rs⟩)
    (hm : m ≠ .quoted) :
    ∃ v, ((cells.flatMap fun cell => comma :: cell.bytes).foldl Scanner.step s).view = v ∧
      v.current = View.current ⟨m, f, fs, rs⟩ ++ cells.map Cell.field ∧ v.records = rs ∧
      (IsWithin v.mode ∨ cells = [] ∧ v.mode = m) := by
  induction cells generalizing s m f fs with
  | nil => exact ⟨_, h, (List.append_nil _).symm, rfl, Or.inr ⟨rfl, rfl⟩⟩
  | cons cell cells ih =>
    obtain ⟨m', hcell, hm', hwithin⟩ :=
      view_foldl_cell (view_step_comma h hm) (Or.inr rfl) cell
    have hwithin' : IsWithin m' := by
      rcases hwithin with hw | ⟨-, rfl⟩
      · exact hw
      · exact Or.inl rfl
    obtain ⟨v, hv, hcurrent, hrecords, hmode⟩ := ih hcell hm'
    refine ⟨v, ?_, ?_, hrecords, Or.inl ?_⟩
    · rw [List.flatMap_cons, List.cons_append, List.foldl_cons, List.foldl_append]
      exact hv
    · rw [hcurrent]
      simp only [View.current, List.reverse_cons, List.reverse_reverse, List.map_cons,
        List.append_assoc, List.cons_append, List.nil_append]
    · rcases hmode with hw | ⟨-, hmode⟩
      · exact hw
      · exact hmode ▸ hwithin'

/-- **A line read between records** is a record that only waits for its end. -/
theorem view_foldl_line (h : s.view = ⟨.betweenRecords, [], [], rs⟩) (line : Line) :
    ∃ v, (line.bytes.foldl Scanner.step s).view = v ∧ IsWithin v.mode ∧
      v.current = line.fields ∧ v.records = rs := by
  obtain ⟨m, hfirst, hm, hwithin⟩ := view_foldl_cell h (Or.inl rfl) line.first
  obtain ⟨v, hv, hcurrent, hrecords, hmode⟩ := view_foldl_others line.others hfirst hm
  refine ⟨v, ?_, ?_, ?_, hrecords⟩
  · rw [Line.bytes, List.foldl_append]
    exact hv
  · rcases hmode with hw | ⟨hothers, hmode⟩
    · exact hw
    rcases hwithin with hw | ⟨hnil, -⟩
    · exact hmode ▸ hw
    · -- nothing was read at all, which an empty line only could do
      refine absurd ?_ line.ne_nil
      rw [hnil, hothers]
      rfl
  · rw [hcurrent, Line.fields, Line.cells, List.map_cons]
    simp only [View.current, List.reverse_cons, List.reverse_reverse, List.reverse_nil,
      List.nil_append, List.singleton_append]

/-! ### Line ends -/

theorem isTerminator_of_mem_endBytes (ends : List LineEnd) :
    ∀ byte ∈ endBytes ends, isTerminator byte = true := by
  intro byte hbyte
  obtain ⟨lineEnd, -, hmem⟩ := List.mem_flatMap.mp hbyte
  cases lineEnd with
  | lineFeed | carriageReturn =>
    obtain rfl := List.mem_singleton.mp hmem
    rfl
  | pair =>
    rcases List.mem_cons.mp hmem with rfl | hmem
    · rfl
    · obtain rfl := List.mem_singleton.mp hmem
      rfl

theorem view_foldl_skip (h : s.view = ⟨.betweenRecords, [], [], rs⟩)
    (ht : ∀ byte ∈ bytes, isTerminator byte = true) :
    (bytes.foldl Scanner.step s).view = ⟨.betweenRecords, [], [], rs⟩ := by
  induction bytes generalizing s with
  | nil => exact h
  | cons byte bytes ih =>
    exact ih (view_step_skip h (ht byte List.mem_cons_self))
      fun b hb => ht b (List.mem_cons_of_mem _ hb)

/-- **The end of a line** ends the record, and nothing else comes of it or of empty lines
behind it. -/
theorem view_foldl_ends {v : View} (h : s.view = v) (hm : IsWithin v.mode) (lineEnd : LineEnd)
    (ends : List LineEnd) :
    ((endBytes (lineEnd :: ends)).foldl Scanner.step s).view =
      ⟨.betweenRecords, [], [], v.current :: v.records⟩ := by
  have hall := isTerminator_of_mem_endBytes (lineEnd :: ends)
  obtain ⟨byte, bytes, hbytes⟩ : ∃ byte bytes, endBytes (lineEnd :: ends) = byte :: bytes := by
    cases lineEnd <;> exact ⟨_, _, rfl⟩
  rw [hbytes] at hall ⊢
  rw [List.foldl_cons]
  exact view_foldl_skip (view_step_end h hm (hall byte List.mem_cons_self))
    fun b hb => hall b (List.mem_cons_of_mem _ hb)

/-- Line after line, each one a record. -/
theorem view_foldl_nextLines (lines : List NextLine) {v : View} (h : s.view = v)
    (hm : IsWithin v.mode) :
    ∃ v', ((lines.flatMap NextLine.bytes).foldl Scanner.step s).view = v' ∧ IsWithin v'.mode ∧
      v'.current :: v'.records =
        (lines.map fun next => next.line.fields).reverse ++ (v.current :: v.records) := by
  induction lines generalizing s v with
  | nil => exact ⟨v, h, hm, rfl⟩
  | cons next lines ih =>
    have hends := view_foldl_ends h hm next.lineEnd next.emptyLines
    obtain ⟨v₁, hline, hwithin, hcurrent, hrecords⟩ := view_foldl_line hends next.line
    obtain ⟨v₂, hlines, hwithin', hall⟩ := ih hline hwithin
    refine ⟨v₂, ?_, hwithin', ?_⟩
    · rw [List.flatMap_cons, NextLine.bytes, List.foldl_append, List.foldl_append]
      exact hlines
    · rw [hall, hcurrent, hrecords, List.map_cons, List.reverse_cons, List.append_assoc,
        List.singleton_append]

/-! ### A file -/

/-- The end of the file ends the record being read, if there is one. -/
theorem map_fields_finish (s : Scanner) :
    s.finish.map Record.fields =
      (if s.view.mode = .betweenRecords then s.view.records
        else s.view.current :: s.view.records).reverse := by
  obtain ⟨mode, field, fields, start, here, records⟩ := s
  cases mode <;> exact List.map_reverse

theorem finish_of_isWithin {v : View} (h : s.view = v) (hm : IsWithin v.mode) :
    s.finish.map Record.fields = (v.current :: v.records).reverse := by
  have hne : v.mode ≠ .betweenRecords := by
    rcases hm with hm | hm | hm <;> rw [hm] <;> exact Mode.noConfusion
  rw [map_fields_finish, h, if_neg hne]

theorem finish_of_betweenRecords (h : s.view = ⟨.betweenRecords, f, fs, rs⟩) :
    s.finish.map Record.fields = rs.reverse := by
  rw [map_fields_finish, h, if_pos rfl]

/-- The end of the file ends the last record, whether its line has an end or not. -/
theorem finish_foldl_ends {v : View} (h : s.view = v) (hm : IsWithin v.mode)
    (ends : List LineEnd) :
    ((endBytes ends).foldl Scanner.step s).finish.map Record.fields =
      (v.current :: v.records).reverse := by
  cases ends with
  | nil => exact finish_of_isWithin h hm
  | cons lineEnd ends => exact finish_of_betweenRecords (view_foldl_ends h hm lineEnd ends)

theorem finish_foldl_body (file : Rendering) (h : s.view = ⟨.betweenRecords, [], [], []⟩) :
    (file.body.foldl Scanner.step s).finish.map Record.fields = file.lines.map Line.fields := by
  have hempty := view_foldl_skip h (isTerminator_of_mem_endBytes file.emptyLines)
  obtain ⟨v, hfirst, hwithin, hcurrent, hrecords⟩ := view_foldl_line hempty file.first
  obtain ⟨v', hlines, hwithin', hall⟩ := view_foldl_nextLines file.others hfirst hwithin
  have hlines' : (file.others.map fun next => next.line.fields) =
      (file.others.map NextLine.line).map Line.fields := by
    rw [List.map_map]
    rfl
  rw [Rendering.body, List.foldl_append, List.foldl_append, List.foldl_append,
    finish_foldl_ends hlines hwithin', hall, hcurrent, hrecords, List.reverse_append,
    List.reverse_reverse, hlines']
  rfl

end Steps

/-- A file without the three bytes of a mark in front is read from its first byte on. -/
theorem afterByteOrderMark_eq {bytes : List UInt8} (h : ¬byteOrderMark <+: bytes) :
    afterByteOrderMark bytes = (⟨1, 0⟩, bytes) := by
  unfold afterByteOrderMark
  split
  · next rest => exact absurd ⟨rest, rfl⟩ h
  · rfl

/-- **Reading back what was written**: the fields of a file come back however it was
written, unless its first bytes look like a byte-order mark that it does not have. -/
theorem records_rendering (file : Rendering)
    (h : file.marked = false → ¬byteOrderMark <+: file.bytes) :
    (records file.bytes).map Record.fields = file.lines.map Line.fields := by
  have hbody : afterByteOrderMark file.bytes = (⟨1, 3⟩, file.body) ∨
      afterByteOrderMark file.bytes = (⟨1, 0⟩, file.body) := by
    cases hmarked : file.marked with
    | true =>
      refine Or.inl ?_
      rw [Rendering.bytes, hmarked]
      rfl
    | false =>
      refine Or.inr ((afterByteOrderMark_eq (h hmarked)).trans ?_)
      rw [Rendering.bytes, hmarked]
      rfl
  rw [records]
  rcases hbody with hb | hb <;> rw [hb] <;> exact finish_foldl_body file rfl

end MixedWorkload.Csv

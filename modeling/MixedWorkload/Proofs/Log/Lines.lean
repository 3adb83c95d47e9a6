import MixedWorkload.Proofs.Csv.Places
import MixedWorkload.Proofs.Log.Faults

/-!
# The line that is named for a fault

A format error names the line on which the reading of the record at fault began. That is one
more than the number of line feeds up to the terminator of the record before. The line on which
the record itself stands is found by counting line ends, and there are three kinds of them: a
line feed, a pair of a carriage return and a line feed, and a carriage return alone
(`MixedWorkload.Csv.lineEnds`).

The two numbers differ by what the reader does not see: carriage returns that stand alone, and
the line feeds between the terminator of the record before and the record itself, which are
those of empty lines and the second half of a pair. So the line is right if and only if there is
neither (`MixedWorkload.TimingLog.namesLine`). A file whose lines end in line feeds and none of
whose lines is empty is of this kind, one whose lines end in pairs is not.
-/

namespace MixedWorkload

namespace Csv

/-- **The line ends** among some bytes: line feeds, pairs, and carriage returns. -/
def lineEnds : List UInt8 → ℕ
  | [] => 0
  | 0x0D :: 0x0A :: bytes => lineEnds bytes + 1
  | byte :: bytes => if isTerminator byte then lineEnds bytes + 1 else lineEnds bytes

/-- The carriage returns that no line feed follows. -/
def loneReturns : List UInt8 → ℕ
  | [] => 0
  | 0x0D :: 0x0A :: bytes => loneReturns bytes
  | byte :: bytes => if byte = carriageReturn then loneReturns bytes + 1 else loneReturns bytes

/-- **A line end has a line feed**, or it is a carriage return alone. -/
theorem lineEnds_eq (bytes : List UInt8) :
    lineEnds bytes = bytes.count lineFeed + loneReturns bytes := by
  fun_induction lineEnds bytes with
  | case1 => rfl
  | case2 bytes ih =>
    have hcount : (0x0D :: 0x0A :: bytes).count lineFeed = bytes.count lineFeed + 1 := by
      rw [List.count_cons_of_ne (by decide)]
      exact List.count_cons_self
    rw [loneReturns, ih, hcount]
    omega
  | case3 byte bytes hpair hterminator ih =>
    rw [loneReturns.eq_3 byte bytes hpair, ih]
    rcases (Bool.or_eq_true _ _).mp hterminator with h | h
    · rw [beq_iff_eq.mp h, List.count_cons_self, if_neg (by decide)]
      omega
    · rw [beq_iff_eq.mp h, List.count_cons_of_ne (by decide), if_pos rfl]
      omega
  | case4 byte bytes hpair hterminator ih =>
    obtain ⟨hfeed, hreturn⟩ : byte ≠ lineFeed ∧ byte ≠ carriageReturn := by
      constructor <;> rintro rfl <;> exact hterminator rfl
    rw [loneReturns.eq_3 byte bytes hpair, ih, List.count_cons_of_ne hfeed, if_neg hreturn]

end Csv

open Csv Text

namespace TimingLog

variable {file through gap : List UInt8} {before : List Csv.Record} {record : Csv.Record}
  {line : ℕ} {fault : RowFault}

/-- A format error names the line on which the reading of its record began. -/
theorem line_eq_of_fault {index : ℕ} (h : Fault index record (.format line fault)) :
    line = record.start.line := by
  cases h <;> rfl

/-- A record behind the header follows another one. -/
theorem FirstFault.followsAt {e : Error} (h : FirstFault file before record e) :
    FollowsAt file before.length record.start := by
  obtain ⟨after, hafter⟩ := h.exists_after
  refine followsAt_of_getElem?_records ?_
  have hget : (dataRecords file)[before.length]? = some record := by
    rw [hafter, List.getElem?_append_right (Nat.le_refl _), Nat.sub_self]
    rfl
  rwa [dataRecords, List.getElem?_drop, Nat.add_comm] at hget

/-- **The line that is named** for a record with some bytes in front of it, up to the terminator of
the record before and behind that. -/
structure IsNamedLine (through gap : List UInt8) (line : ℕ) : Prop where
  /-- The line feeds up to the terminator of the record before are counted. -/
  line_eq : line = 1 + through.count lineFeed
  /-- What is missing are carriage returns alone and the line feeds in the gap. -/
  lineEnds_eq : 1 + lineEnds (through ++ gap) =
    line + loneReturns (through ++ gap) + gap.count lineFeed
  /-- So the line is the one on which the record stands if there are none. -/
  right_iff : line = 1 + lineEnds (through ++ gap) ↔
    loneReturns (through ++ gap) = 0 ∧ lineFeed ∉ gap

/-- **The line of a format error.** -/
structure NamesLine (file : List UInt8) : Prop where
  /-- The failure is about a record that follows another one. -/
  exists_follows : ∀ line fault, read file = .error (.format line fault) →
    ∃ before record through gap, FirstFault file before record (.format line fault) ∧
      Follows file through gap before.length
  /-- The line is counted up to the record before. -/
  isNamedLine : ∀ before record line fault through gap,
    FirstFault file before record (.format line fault) →
      Follows file through gap before.length → IsNamedLine through gap line

theorem FirstFault.isNamedLine (h : FirstFault file before record (.format line fault))
    (hfollows : Follows file through gap before.length) : IsNamedLine through gap line := by
  have hline : line = 1 + through.count lineFeed := by
    rw [line_eq_of_fault h.fault, h.followsAt.eq_placeBehind hfollows]
    rfl
  have hends : 1 + lineEnds (through ++ gap) =
      line + loneReturns (through ++ gap) + gap.count lineFeed := by
    rw [hline, lineEnds_eq, List.count_append]
    omega
  refine ⟨hline, hends, ?_⟩
  rw [← List.count_eq_zero]
  constructor
  · intro hright
    omega
  · rintro ⟨hlone, hgap⟩
    omega

/-- **The line of a format error** is right but for carriage returns alone, and for empty lines
and halves of pairs right in front of the record. -/
theorem namesLine (file : List UInt8) : NamesLine file where
  exists_follows line fault h := by
    obtain ⟨before, record, hfirst⟩ := read_eq_error_iff.mp h
    obtain ⟨through, gap, hfollows, -⟩ := hfirst.followsAt
    exact ⟨before, record, through, gap, hfirst, hfollows⟩
  isNamedLine _ _ _ _ _ _ h hfollows := h.isNamedLine hfollows

/-- Behind a single line feed the line is right. -/
example : read [0x68, lineFeed, 0x78] =
    .error (.format (1 + lineEnds [0x68, lineFeed]) (.cellCount 1)) := rfl

/-! ### Lines that are not right -/

/-- A file whose failure names a line before the one on which the record at fault stands. -/
def NamesEarlierLine (file : List UInt8) : Prop :=
  ∃ before record line fault through gap, read file = .error (.format line fault) ∧
    FirstFault file before record (.format line fault) ∧
      Follows file through gap before.length ∧ line < 1 + lineEnds (through ++ gap)

/-- A header and one cell, on two lines. -/
def cellFile (lineEnd : List UInt8) : List UInt8 :=
  [0x68] ++ lineEnd ++ [0x78]

/-- Where the line of the cell ends in a terminator with a gap behind it, the cell is the fault. -/
theorem namesEarlierLine_cellFile (line : ℕ) {terminator : UInt8} {gap : List UInt8}
    (hread : read (cellFile (terminator :: gap)) = .error (.format line (.cellCount 1)))
    (hdata : dataRecords (cellFile (terminator :: gap)) = [⟨⟨line, 2⟩, [[0x78]]⟩])
    (hends : EndsRecord [0x68, terminator] 0) (hgap : ∀ byte ∈ gap, isTerminator byte = true)
    (hline : lineEnds ([0x68, terminator] ++ gap) = line) :
    NamesEarlierLine (cellFile (terminator :: gap)) := by
  have hcells : HasCells ⟨⟨line, 2⟩, [[0x78]]⟩ ["x"] := by
    refine ⟨["x"], ?_, rfl⟩
    rw [List.map_singleton, Utf8.encode_eq]
    rfl
  exact ⟨[], _, line, .cellCount 1, [0x68, terminator], gap, hread,
    ⟨⟨[], hdata⟩, List.forall_mem_nil _, .cellCount hcells (by decide)⟩,
    ⟨hends, hgap, 0x78, [], rfl, rfl⟩, by omega⟩

/-- **A pair, an empty line, and a carriage return alone** in front of a record: the line that is
named is not the one on which the record stands. -/
theorem namesEarlierLine_pair : NamesEarlierLine (cellFile [carriageReturn, lineFeed]) ∧
    NamesEarlierLine (cellFile [lineFeed, lineFeed]) ∧
    NamesEarlierLine (cellFile [carriageReturn]) :=
  ⟨namesEarlierLine_cellFile 1 rfl rfl ⟨rfl, rfl⟩ (List.all_eq_true.mp rfl) rfl,
    namesEarlierLine_cellFile 2 rfl rfl ⟨rfl, rfl⟩ (List.all_eq_true.mp rfl) rfl,
    namesEarlierLine_cellFile 1 rfl rfl ⟨rfl, rfl⟩ (List.all_eq_true.mp rfl) rfl⟩

end TimingLog

end MixedWorkload

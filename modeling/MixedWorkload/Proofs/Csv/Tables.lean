import MixedWorkload.Csv.Writer
import MixedWorkload.Proofs.Decimal.Numerals
import MixedWorkload.Proofs.Decimal.Reading
import MixedWorkload.Proofs.Text.Digits

/-!
# Tables hold what is written into them

A table of points has one line for each point, and the cells of a line are the point in numbers.
Nothing has to be quoted, so the cells can be had again by looking for the commas only, and the
lines by looking for their ends. How much of a point a line keeps depends on the point:
`MixedWorkload.Csv.IsRow` asks that the cells of one line can be read as the point that they were
written for. Then the table as a whole holds its points (`MixedWorkload.Csv.holds_table`): one line
for each, in their order, behind a header that is there only if there are points.
-/

namespace MixedWorkload.Csv

open Decimal

/-! ### Cells -/

/-- A cell that can stand in a table as it is. -/
def IsUnquoted (cell : List Char) : Prop :=
  ∀ c ∈ [',', '"', '\n', '\r'], c ∉ cell

theorem number_isPlain : number.IsPlain :=
  ⟨by decide, by decide⟩

theorem number_isReadable : number.IsReadable :=
  ⟨Or.inr rfl, Or.inl rfl⟩

theorem isUnquoted_number (x : Float) : IsUnquoted (number.render x).toList := by
  intro c hc
  fin_cases hc <;> exact number_isPlain.notMem_render (by decide) (by decide) x

theorem isUnquoted_natural (n : UInt32) : IsUnquoted (toString n).toList := by
  have htext : (toString n).toList = Nat.toDigits 10 n.toNat := String.toList_ofList
  intro c hc hmem
  have hdigit := Text.Digits.isDigit_toDigits n.toNat c (htext ▸ hmem)
  fin_cases hc <;> exact absurd hdigit (by decide)

/-! ### Lines -/

section Lines

variable {α : Type} {read? : List (List Char) → Option α} {cells : List (List Char)} {point : α}

/-- A line, from its cells. -/
def lineOf (cells : List (List Char)) : List Char :=
  [','].intercalate cells

/-- **Cells that hold a point**: they can stand as they are, the commas of their line are the ones
between them, and they are read as the point. -/
structure IsRow (read? : List (List Char) → Option α) (cells : List (List Char)) (point : α) :
    Prop where
  /-- No cell has to be quoted. -/
  isUnquoted : ∀ cell ∈ cells, IsUnquoted cell
  /-- The commas lead to the cells. -/
  splitOn_lineOf : (lineOf cells).splitOn ',' = cells
  /-- The cells lead to the point. -/
  read?_eq : read? cells = some point

/-- Cells that can stand as they are come back from their line. -/
theorem IsRow.of_isUnquoted (hne : cells ≠ []) (hcells : ∀ cell ∈ cells, IsUnquoted cell)
    (hread : read? cells = some point) : IsRow read? cells point where
  isUnquoted := hcells
  splitOn_lineOf :=
    List.splitOn_intercalate ',' (fun cell hcell => hcells cell hcell ',' (by decide)) hne
  read?_eq := hread

/-- A line of such cells has no line break. -/
theorem newline_notMem_lineOf (hcells : ∀ cell ∈ cells, IsUnquoted cell) :
    '\n' ∉ lineOf cells := by
  induction cells with
  | nil => exact List.not_mem_nil
  | cons cell cells ih =>
    rw [List.forall_mem_cons] at hcells
    have hcell : '\n' ∉ cell := hcells.1 '\n' (by decide)
    cases cells with
    | nil => rwa [lineOf, List.intercalate_singleton]
    | cons next cells =>
      rw [lineOf, List.intercalate_cons_cons, List.append_assoc, List.mem_append, not_or,
        List.singleton_append, List.mem_cons, not_or]
      exact ⟨hcell, by decide, ih hcells.2⟩

/-- **Lines are found by their ends.** -/
theorem splitOn_flatMap {c : Char} {lines : List (List Char)} (h : ∀ line ∈ lines, c ∉ line) :
    (lines.flatMap (· ++ [c])).splitOn c = lines ++ [[]] := by
  induction lines with
  | nil => rfl
  | cons line lines ih =>
    rw [List.forall_mem_cons] at h
    rw [List.flatMap_cons, List.append_assoc, List.singleton_append,
      List.splitOn_append_cons_self_of_not_mem h.1, ih h.2, List.cons_append]

end Lines

/-! ### Tables -/

section Tables

variable {α : Type} {read? : List (List Char) → Option α}

/-- The points in a text: its lines behind the first one, split at the commas and read. What comes
behind the last end of a line is no line. -/
def readTable? (read? : List (List Char) → Option α) (text : List Char) : Option (List α) :=
  ((text.splitOn '\n').dropLast.drop 1).mapM fun line => read? (line.splitOn ',')

/-- **A text that holds points**, with a header in front. -/
structure Holds (read? : List (List Char) → Option α) (header text : List Char)
    (points : List α) : Prop where
  /-- Nothing is there for no points, not even a header. -/
  eq_nil_iff : text = [] ↔ points = []
  /-- Otherwise the header is a line, then every point is, in order, and every line is ended. -/
  exists_rows : points ≠ [] → ∃ rows : List (List (List Char)),
    text.splitOn '\n' = header :: rows.map lineOf ++ [[]] ∧ List.Forall₂ (IsRow read?) rows points
  /-- Splitting and reading leads to the points. -/
  readTable?_eq : readTable? read? text = some points

/-- What is written in the lines is read. -/
theorem mapM_read?_of_forall₂ {rows : List (List (List Char))} {points : List α}
    (h : List.Forall₂ (IsRow read?) rows points) :
    (rows.map lineOf).mapM (fun line => read? (line.splitOn ',')) = some points := by
  induction h with
  | nil => rfl
  | cons hrow _ ih =>
    rw [List.map_cons, List.mapM_cons, hrow.splitOn_lineOf, hrow.read?_eq, ih]
    rfl

variable {header : List String} {cells : α → List String} {points : List α}

theorem toList_line (cells : List String) :
    (line cells).toList = lineOf (cells.map String.toList) ++ ['\n'] := by
  rw [line, String.toList_append, String.toList_intercalate]
  rfl

/-- A table with rows is its lines, each with its end. -/
theorem toList_table {rows : List (List String)} (hrows : rows ≠ []) :
    (table header rows).toList =
      ((header :: rows).map fun cells => lineOf (cells.map String.toList)).flatMap
        (· ++ ['\n']) := by
  have hempty : ¬rows.isEmpty = true := by rwa [List.isEmpty_iff]
  rw [table, if_neg hempty, String.toList_join, List.flatMap_map, List.flatMap_map]
  exact List.flatMap_congr fun cells _ => toList_line cells

/-- **A table holds its points**, if each of them can be read from its cells. -/
theorem holds_table (hheader : ∀ name ∈ header, IsUnquoted name.toList)
    (hrow : ∀ point, IsRow read? ((cells point).map String.toList) point) (points : List α) :
    Holds read? (lineOf (header.map String.toList))
      (table header (points.map cells)).toList points := by
  let rows : List (List (List Char)) := points.map fun point => (cells point).map String.toList
  have hrows : List.Forall₂ (IsRow read?) rows points :=
    List.forall₂_map_left_iff.mpr (List.forall₂_same.mpr fun point _ => hrow point)
  have hlines : ∀ line ∈ lineOf (header.map String.toList) :: rows.map lineOf, '\n' ∉ line := by
    rw [List.forall_mem_cons, List.forall_mem_map, List.forall_mem_map]
    exact ⟨newline_notMem_lineOf (List.forall_mem_map.mpr hheader),
      fun point _ => newline_notMem_lineOf (hrow point).isUnquoted⟩
  rcases eq_or_ne points [] with rfl | hne
  · exact ⟨iff_of_true rfl rfl, fun h => absurd rfl h, rfl⟩
  · have htext : (table header (points.map cells)).toList.splitOn '\n' =
        lineOf (header.map String.toList) :: rows.map lineOf ++ [[]] := by
      rw [toList_table (List.map_eq_nil_iff.not.mpr hne), ← splitOn_flatMap hlines]
      simp [rows, Function.comp_def]
    refine ⟨iff_of_false ?_ hne, fun _ => ⟨rows, htext, hrows⟩, ?_⟩
    · rw [toList_table (List.map_eq_nil_iff.not.mpr hne), List.map_cons, List.flatMap_cons]
      simp
    · rw [readTable?, htext, List.dropLast_concat, List.drop_one, List.tail_cons]
      exact mapM_read?_of_forall₂ hrows

end Tables

end MixedWorkload.Csv

import MixedWorkload.Proofs.Csv.Rendering

/-!
# The records behind the first one

The first record of a file is its header, and nobody reads it. What it holds is of no
importance to the records behind it, as long as it ends where it should: two readers that
differ in the first record only go on differing there only
(`MixedWorkload.Csv.SameBehind.foldl`).

This settles what becomes of a file that has no byte-order mark and still begins with the
bytes of one. They are taken for a mark, so the header loses them, and the other records do
not notice unless the header now is an empty line or begins like a quoted cell
(`MixedWorkload.Csv.tail_records_rendering`).
-/

namespace MixedWorkload.Csv

/-! ### Readers that agree behind the first record -/

/-- **Two readers agree behind the first record**: either both are within it, or they differ
in nothing else. -/
structure SameBehind (v w : View) : Prop where
  /-- The next byte means the same to both. -/
  mode_eq : v.mode = w.mode
  /-- The first record is being read, or it is where they differ. -/
  within_or_behind :
    (v.mode ≠ .betweenRecords ∧ v.records = [] ∧ w.records = []) ∨
      v.field = w.field ∧ v.fields = w.fields ∧
        ∃ behind r r', v.records = behind ++ [r] ∧ w.records = behind ++ [r']

namespace SameBehind

variable {s t : Scanner}

/-- A byte of the first record that is not the first of its field. -/
theorem stepBare_first (hs : s.view.records = []) (ht : t.view.records = []) (byte : UInt8) :
    SameBehind (s.stepBare byte).view (t.stepBare byte).view := by
  unfold Scanner.stepBare
  split
  · exact ⟨rfl, Or.inl ⟨Mode.noConfusion, hs, ht⟩⟩
  split
  · -- the first record ends, and from here on it is the oldest of the finished ones
    refine ⟨rfl, Or.inr ⟨rfl, rfl, [], s.view.current, t.view.current, ?_, ?_⟩⟩
    · exact congrArg (s.view.current :: ·) hs
    · exact congrArg (t.view.current :: ·) ht
  · exact ⟨rfl, Or.inl ⟨Mode.noConfusion, hs, ht⟩⟩

theorem stepBare (h : SameBehind s.view t.view) (byte : UInt8) :
    SameBehind (s.stepBare byte).view (t.stepBare byte).view := by
  obtain ⟨-, ⟨-, hs, ht⟩ | ⟨hfield, hfields, behind, r, r', hs, ht⟩⟩ := h
  · exact stepBare_first hs ht byte
  unfold Scanner.stepBare
  split
  · refine ⟨rfl, Or.inr ⟨rfl, ?_, behind, r, r', hs, ht⟩⟩
    change s.view.field.reverse :: s.view.fields = t.view.field.reverse :: t.view.fields
    rw [hfield, hfields]
  split
  · have hcurrent : s.view.current = t.view.current := by
      rw [View.current, View.current, hfield, hfields]
    refine ⟨rfl, Or.inr ⟨rfl, rfl, s.view.current :: behind, r, r', ?_, ?_⟩⟩
    · exact congrArg (s.view.current :: ·) hs
    · rw [hcurrent]
      exact congrArg (t.view.current :: ·) ht
  · exact ⟨rfl, Or.inr ⟨congrArg (byte :: ·) hfield, hfields, behind, r, r', hs, ht⟩⟩

/-- One more byte for both, be it part of the field or not. -/
theorem push (h : SameBehind s.view t.view) (byte : UInt8) {mode : Mode}
    (hmode : mode ≠ .betweenRecords) :
    SameBehind (s.push byte mode).view (t.push byte mode).view := by
  obtain ⟨-, ⟨-, hs, ht⟩ | ⟨hfield, hfields, hbehind⟩⟩ := h
  · exact ⟨rfl, Or.inl ⟨hmode, hs, ht⟩⟩
  · exact ⟨rfl, Or.inr ⟨congrArg (byte :: ·) hfield, hfields, hbehind⟩⟩

/-- A quotation mark that belongs to no field. -/
theorem withMode (h : SameBehind s.view t.view) {mode : Mode} (hmode : mode ≠ .betweenRecords) :
    SameBehind ({ s with mode } : Scanner).view ({ t with mode } : Scanner).view := by
  obtain ⟨-, ⟨-, hs, ht⟩ | hbehind⟩ := h
  · exact ⟨rfl, Or.inl ⟨hmode, hs, ht⟩⟩
  · exact ⟨rfl, Or.inr hbehind⟩

theorem stepFieldStart (h : SameBehind s.view t.view) (byte : UInt8) :
    SameBehind (s.stepFieldStart byte).view (t.stepFieldStart byte).view := by
  unfold Scanner.stepFieldStart
  split
  · exact h.withMode Mode.noConfusion
  · exact h.stepBare byte

/-- **A step keeps the agreement.** -/
theorem step (h : SameBehind s.view t.view) (byte : UInt8) :
    SameBehind (s.step byte).view (t.step byte).view := by
  obtain ⟨mode, field, fields, start, here, records⟩ := s
  obtain ⟨mode', field', fields', start', here', records'⟩ := t
  obtain rfl : mode = mode' := h.mode_eq
  -- the places are no part of a view, so moving them on leaves the agreement as it is
  have h' : SameBehind (Scanner.mk mode field fields start (here.advance byte) records).view
      (Scanner.mk mode field' fields' start' (here'.advance byte) records').view := h
  cases mode with
  | betweenRecords =>
    simp only [Scanner.step]
    split
    · exact h'
    · exact h'.stepFieldStart byte
  | fieldStart => exact h'.stepFieldStart byte
  | bare => exact h'.stepBare byte
  | quoted =>
    simp only [Scanner.step]
    split
    · exact h'.withMode Mode.noConfusion
    · exact h'.push byte Mode.noConfusion
  | quoteInQuoted =>
    simp only [Scanner.step]
    split
    · exact h'.push byte Mode.noConfusion
    · exact h'.stepBare byte

theorem foldl (h : SameBehind s.view t.view) (bytes : List UInt8) :
    SameBehind (bytes.foldl Scanner.step s).view (bytes.foldl Scanner.step t).view := by
  induction bytes generalizing s t with
  | nil => exact h
  | cons byte bytes ih => exact ih (h.step byte)

/-- At the end of the file, readers that agree have the same records behind the first. -/
theorem tail_finish (h : SameBehind s.view t.view) :
    (s.finish.map Record.fields).tail = (t.finish.map Record.fields).tail := by
  rw [map_fields_finish, map_fields_finish, ← h.mode_eq]
  obtain ⟨-, ⟨hmode, hs, ht⟩ | ⟨hfield, hfields, behind, r, r', hs, ht⟩⟩ := h
  · rw [if_neg hmode, if_neg hmode, hs, ht]
    rfl
  · have hcurrent : s.view.current = t.view.current := by
      rw [View.current, View.current, hfield, hfields]
    rw [hs, ht, hcurrent]
    split
    · rw [List.reverse_append, List.reverse_append]
      rfl
    · rw [← List.cons_append, ← List.cons_append, List.reverse_append, List.reverse_append]
      rfl

end SameBehind

/-! ### Bytes that are taken for a mark -/

/-- **The header stands**: if a file has no byte-order mark but begins with the bytes of one,
then the line goes on behind them, and not with a quotation mark. -/
def Rendering.HeaderStands (file : Rendering) : Prop :=
  file.marked = false → ∀ byte rest, file.bytes = byteOrderMark ++ byte :: rest →
    isTerminator byte = false ∧ byte ≠ quote

/-- Taking the first three bytes for a mark changes the header only. -/
theorem tail_finish_byteOrderMark {byte : UInt8} (ht : isTerminator byte = false)
    (hq : byte ≠ quote) (rest : List UInt8) (p q : Position) :
    ((((byteOrderMark ++ byte :: rest).foldl Scanner.step (Scanner.init p)).finish).map
        Record.fields).tail =
      ((((byte :: rest).foldl Scanner.step (Scanner.init q)).finish).map Record.fields).tail := by
  have hq' : (byte == quote) = false := beq_eq_false_iff_ne.mpr hq
  rw [List.foldl_append, List.foldl_cons, List.foldl_cons]
  refine (SameBehind.foldl ?_ rest).tail_finish
  -- without the mark this byte is the first of its field, but it is no quotation mark
  have hfirst : ((Scanner.init q).step byte).view =
      (({ Scanner.init q with here := q.advance byte } : Scanner).stepBare byte).view := by
    simp only [Scanner.step, Scanner.init, ht, Scanner.stepFieldStart, hq', Bool.false_eq_true,
      if_false]
  rw [hfirst]
  exact SameBehind.stepBare_first rfl rfl byte

/-- **The records behind the header** come back however the file was written. -/
theorem tail_records_rendering (file : Rendering) (h : file.HeaderStands) :
    ((records file.bytes).map Record.fields).tail =
      file.others.map fun next => next.line.fields := by
  have hlines : (file.lines.map Line.fields).tail =
      file.others.map fun next => next.line.fields := by
    rw [Rendering.lines, List.map_cons, List.tail_cons, List.map_map]
    rfl
  by_cases hmark : file.marked = false ∧ byteOrderMark <+: file.bytes
  · obtain ⟨hmarked, rest, hbytes⟩ := hmark
    have hbody : file.body = file.bytes := by
      rw [Rendering.bytes, hmarked]
      rfl
    rw [← hlines, ← finish_foldl_body file (s := Scanner.init ⟨1, 0⟩) rfl, hbody, ← hbytes]
    cases rest with
    | nil => rfl
    | cons byte rest =>
      obtain ⟨ht, hq⟩ := h hmarked byte rest hbytes.symm
      exact (tail_finish_byteOrderMark ht hq rest _ _).symm
  · rw [records_rendering file fun hmarked hprefix => hmark ⟨hmarked, hprefix⟩, hlines]

end MixedWorkload.Csv

import MixedWorkload.Proofs.Decimal.Reading
import MixedWorkload.Proofs.Report.Words

/-!
# Comparing reports line by line

The text report is made so that two runs can be compared by their lines. A line ends with its
number, in which there is no line break, so a line of a report ends where it does whatever stands
in the report after it (`MixedWorkload.Report.line_append_inj`); and a number is written in one
way only, and no other number is written so. Hence equal reports are reports of equal metrics,
and the line about all workers makes two reports differ.
-/

namespace MixedWorkload.Report

open Decimal

theorem number_isReadable : number.IsReadable :=
  ⟨Or.inr rfl, Or.inl rfl⟩

theorem newline_notMem_number (x : Float) : '\n' ∉ (number.render x).toList :=
  number_isPlain.notMem_render (by decide) (by decide) x

/-- **A mark ends what does not have it.** -/
theorem append_mark_inj {a b s t : List Char} {c : Char} (ha : c ∉ a) (hb : c ∉ b) :
    a ++ c :: s = b ++ c :: t ↔ a = b ∧ s = t := by
  constructor
  · intro h
    rcases List.append_eq_append_iff.mp h with ⟨x, rfl, hx⟩ | ⟨x, rfl, hx⟩
    · cases x with
      | nil => exact ⟨(List.append_nil a).symm, (List.cons.inj hx).2⟩
      | cons d x =>
        rw [(List.cons.inj hx).1] at hb
        exact absurd (List.mem_append_right a List.mem_cons_self) hb
    · cases x with
      | nil => exact ⟨List.append_nil b, (List.cons.inj hx).2.symm⟩
      | cons d x =>
        rw [(List.cons.inj hx).1] at ha
        exact absurd (List.mem_append_right b List.mem_cons_self) ha
  · rintro ⟨rfl, rfl⟩
    rfl

/-- **A line tells its number, and where it ends.** -/
theorem line_append_inj (label : String) {x y : Float} {rest rest' : List Char} :
    (line label x).toList ++ rest = (line label y).toList ++ rest' ↔ x = y ∧ rest = rest' := by
  have htext (x : Float) (rest : List Char) : (line label x).toList ++ rest =
      (label ++ " ").toList ++ ((number.render x).toList ++ '\n' :: rest) := by
    simp [line]
  constructor
  · intro h
    rw [htext, htext, List.append_cancel_left_eq] at h
    obtain ⟨hnumber, hrest⟩ :=
      (append_mark_inj (newline_notMem_number x) (newline_notMem_number y)).mp h
    exact ⟨number_isReadable.render_injective (String.toList_inj.mp hnumber), hrest⟩
  · rintro ⟨rfl, rfl⟩
    rfl

/-- **The lines that every report has** tell their metrics, and where they end. -/
theorem mainText_append_inj {m m' : Metrics} {rest rest' : List Char} :
    (mainText m).toList ++ rest = (mainText m').toList ++ rest' ↔
      m.numbers.take 4 = m'.numbers.take 4 ∧ rest = rest' := by
  have htext (m : Metrics) (rest : List Char) : (mainText m).toList ++ rest = '\n' ::
      ((line "NewOrder Transactions per minute: \t" m.transactionalThroughput).toList ++
      ((line "Geometric Mean of Latencies: \t\t" m.geometricMeanLatency).toList ++
      ((line "Query Set Time: \t\t\t" m.querySetTime).toList ++
      ((line "Queries per Hour: \t\t\t" m.queriesPerHour).toList ++ rest)))) := by
    simp [mainText]
  rw [htext, htext, List.cons_inj_right, line_append_inj, line_append_inj, line_append_inj,
    line_append_inj]
  simp [Metrics.numbers, and_assoc]

/-- The report begins with the lines that every report has. -/
theorem toList_text (m : Metrics) (includeEffective : Bool) : (text m includeEffective).toList =
    (mainText m).toList ++ if includeEffective then (effectiveText m).toList else [] := by
  cases includeEffective with
  | true => exact String.toList_append
  | false => exact (List.append_nil _).symm

/-- **Reports can be compared line by line.** Equal reports are reports of the same metrics, which
are the same doubles down to the sign of a zero: of all five of them with the line about all
workers, and of the first four without it. The report without this line is the beginning of the
one with it, and no report of the one kind is one of the other. -/
theorem text_tells_metrics (m m' : Metrics) :
    (text m true = text m' true ↔ m.numbers = m'.numbers) ∧
    (text m false = text m' false ↔ m.numbers.take 4 = m'.numbers.take 4) ∧
    (text m false).toList <+: (text m true).toList ∧
    text m true ≠ text m' false := by
  have hnil : (effectiveText m).toList ≠ [] := by
    simp [effectiveText, line]
  refine ⟨?_, ?_, ?_, ?_⟩
  · have heffective : (effectiveText m).toList = (effectiveText m').toList ↔
        m.effectiveQueriesPerHour = m'.effectiveQueriesPerHour := by
      rw [effectiveText, effectiveText, ← List.append_left_inj [], line_append_inj]
      exact and_iff_left rfl
    rw [← String.toList_inj, toList_text, toList_text, mainText_append_inj, if_pos rfl,
      if_pos rfl, heffective]
    simp [Metrics.numbers, and_assoc]
  · rw [← String.toList_inj, toList_text, toList_text, mainText_append_inj]
    exact and_iff_left rfl
  · rw [toList_text, toList_text]
    simp
  · intro h
    rw [← String.toList_inj, toList_text, toList_text, mainText_append_inj] at h
    exact hnil h.2

end MixedWorkload.Report

import MixedWorkload.Evaluation
import Mathlib.Data.List.Basic

/-!
# Reports made at different times

A report for machines is an object, and the time at which it was made is its first member.
Objects are written with one member to a line, so the time has a line of its own, the
second one, and everything behind that line is the same at all times.
`MixedWorkload.Report.sameButTime_jsonReport` says so.
-/

namespace MixedWorkload.Report

/-- A report for machines that was made at a time: the time is on its second line. -/
def stamped (time rest : String) : List UInt8 :=
  Text.Utf8.encode ("\x7b\n  \"generated_at\": " ++ Json.quoted time ++ ",\n" ++ rest)

/-- Contents that are the same, or are reports made at the two times that are the same in
all other lines. -/
inductive SameButTime (time time' : String) : List UInt8 → List UInt8 → Prop
  | same (contents : List UInt8) : SameButTime time time' contents contents
  | document (rest : String) : SameButTime time time' (stamped time rest) (stamped time' rest)

/-- The first member of an object with more than one is on a line of its own. -/
theorem exists_pretty_object_cons (name : String) (second : String × Json)
    (members : List (String × Json)) :
    ∃ rest, ∀ value : String,
      (Json.object ((name, .text value) :: second :: members)).pretty =
        "\x7b\n  " ++ Json.quoted name ++ ": " ++ Json.quoted value ++ ",\n" ++ rest := by
  obtain ⟨part, parts, hparts⟩ : ∃ part parts,
      Json.renderMembers .indented 1 (second :: members) = part :: parts := ⟨_, _, rfl⟩
  -- the line of the second member ends the line of the first
  refine ⟨"  " ++ String.intercalate "," (part :: parts.map (Json.Layout.indented.lead 1 ++ ·)) ++
    "\n\x7d", fun value => ?_⟩
  have hmembers : Json.renderMembers .indented 1 ((name, .text value) :: second :: members) =
      (Json.quoted name ++ ": " ++ Json.quoted value) :: part :: parts := by
    rw [← hparts]
    rfl
  have hlead : Json.Layout.indented.lead 1 = "\n" ++ "  " := by decide
  have hend : Json.Layout.indented.lead 0 = "\n" := by decide
  have hopening : "\x7b\n  " = "\x7b" ++ ("\n" ++ "  ") := by decide
  have hcomma : ",\n" = "," ++ "\n" := by decide
  have hclosing : "\n\x7d" = "\n" ++ "\x7d" := by decide
  unfold Json.pretty Json.render Json.bracket
  rw [hmembers, List.map_cons, List.map_cons, String.intercalate_cons_cons,
    String.intercalate_cons_append, hlead, hend, hopening, hcomma, hclosing]
  simp only [List.isEmpty_cons, Bool.false_eq_true, ↓reduceIte, String.append_assoc]

/-- **Reports of one evaluation** differ in the line of their time only. -/
theorem sameButTime_jsonReport (e : Evaluation) (source : Option String) (time time' : String) :
    SameButTime time time' (Text.Utf8.encode (e.jsonReport time source))
      (Text.Utf8.encode (e.jsonReport time' source)) := by
  obtain ⟨rest, hrest⟩ := exists_pretty_object_cons "generated_at" _ _
  have hstamped (time : String) : Text.Utf8.encode (e.jsonReport time source) =
      stamped time rest := by
    rw [Evaluation.jsonReport, Report.json, hrest]
    rfl
  rw [hstamped, hstamped]
  exact .document rest

end MixedWorkload.Report

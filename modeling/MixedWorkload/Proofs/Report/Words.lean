import MixedWorkload.Evaluation
import MixedWorkload.Proofs.Decimal.Numerals

/-!
# Words in reports

A double that is not finite is written as a word: `NaN` or `inf` in the text report, `null` in
the report for machines. Whether such a word gets into a report can be seen from its numbers.

The words in question (`MixedWorkload.IsStandIn`) have a letter that no numeral has, so they do
not occur in a numeral; and they have none of the marks between numerals and other texts, so
they do not reach across one (`MixedWorkload.not_infix_append_cons`). For the text report this is
`MixedWorkload.Report.not_infix_text`. A JSON value may hold texts as well, which are written as
they are: `MixedWorkload.Json.Avoids` asks that the word is not in them, and that all doubles are
finite, and `MixedWorkload.Json.Avoids.not_infix_render` is by induction on this.
-/

namespace MixedWorkload

open Decimal

/-! ### Words in texts -/

section Infix

variable {w a b : List Char} {c : Char}

/-- **A word does not reach across a character** that it does not have. -/
theorem not_infix_append_cons (hc : c ∉ w) (ha : ¬w <:+: a) (hb : ¬w <:+: b) :
    ¬w <:+: a ++ c :: b := by
  rintro ⟨s, t, h⟩
  rw [List.append_assoc] at h
  rcases List.append_eq_append_iff.mp h with ⟨x, rfl, hx⟩ | ⟨x, rfl, hx⟩
  · -- the word starts before the character, so it has to end there as well
    rcases List.append_eq_append_iff.mp hx with ⟨y, rfl, -⟩ | ⟨y, rfl, hy⟩
    · exact ha ⟨s, y, by rw [List.append_assoc]⟩
    · cases y with
      | nil => exact ha ⟨s, [], by simp⟩
      | cons d y =>
        obtain ⟨rfl, -⟩ := List.cons.inj hy
        exact hc (List.mem_append_right _ List.mem_cons_self)
  · cases x with
    | nil =>
      cases w with
      | nil => exact ha List.nil_infix
      | cons d w =>
        obtain ⟨rfl, -⟩ := List.cons.inj hx
        exact hc List.mem_cons_self
    | cons d x =>
      obtain ⟨rfl, rfl⟩ := List.cons.inj hx
      exact hb ⟨x, t, List.append_assoc x w t⟩

/-- Characters that a word does not have may stand in front. -/
theorem not_infix_append_left (ha : ∀ c ∈ a, c ∉ w) (hb : ¬w <:+: b) : ¬w <:+: a ++ b := by
  induction a with
  | nil => exact hb
  | cons c a ih =>
    have hnil : ¬w <:+: [] := fun h => hb (List.infix_nil.mp h ▸ List.nil_infix)
    exact not_infix_append_cons (ha c List.mem_cons_self) hnil
      (ih fun d hd => ha d (List.mem_cons_of_mem c hd))

/-- Characters that a word does not have may follow. -/
theorem not_infix_append_right (hb : ∀ c ∈ b, c ∉ w) (ha : ¬w <:+: a) : ¬w <:+: a ++ b := by
  have hnil : ¬w <:+: [] := fun h => ha (List.infix_nil.mp h ▸ List.nil_infix)
  cases b with
  | nil => rwa [List.append_nil]
  | cons c b =>
    have hrest := not_infix_append_left (fun d hd => hb d (List.mem_cons_of_mem c hd)) hnil
    rw [List.append_nil] at hrest
    exact not_infix_append_cons (hb c List.mem_cons_self) ha hrest

end Infix

/-! ### Words in place of numbers -/

/-- **A word that stands for a number** where there is none: it has a letter of its own, and
none of the marks between numbers. -/
structure IsStandIn (w : List Char) : Prop where
  /-- No numeral has all of its letters. -/
  letter : ∃ c ∈ w, ¬IsNumeralChar c
  /-- It is not broken. -/
  marks : ∀ c ∈ [' ', '\n', ',', ':', '[', ']', '\x7b', '\x7d'], c ∉ w

theorem IsStandIn.not_infix_numeral {w cs : List Char} (h : IsStandIn w)
    (hcs : IsNumeralText cs) : ¬w <:+: cs := by
  intro hin
  obtain ⟨c, hc, hno⟩ := h.letter
  exact hno (hcs c (hin.subset hc))

theorem IsStandIn.not_infix_nil {w : List Char} (h : IsStandIn w) : ¬w <:+: [] :=
  h.not_infix_numeral fun _ hc => absurd hc List.not_mem_nil

/-! ### The text report -/

/-- The five metrics, in the order of the reports. -/
def Metrics.numbers (m : Metrics) : List Float :=
  [m.transactionalThroughput, m.geometricMeanLatency, m.querySetTime, m.queriesPerHour,
    m.effectiveQueriesPerHour]

namespace Report

/-- The labels of the lines. -/
def labels : List String :=
  ["NewOrder Transactions per minute: \t", "Geometric Mean of Latencies: \t\t",
    "Query Set Time: \t\t\t", "Queries per Hour: \t\t\t",
    "Effective Queries per Hour: \t\t"]

theorem number_isPlain : number.IsPlain :=
  ⟨by decide, by decide⟩

/-- A line with a finite number holds no word for another one, unless its label does. -/
theorem not_infix_line {w : List Char} (h : IsStandIn w) {label : String}
    (hlabel : ¬w <:+: label.toList) {x : Float} (hx : x.isFinite = true) {rest : List Char}
    (hrest : ¬w <:+: rest) : ¬w <:+: (line label x).toList ++ rest := by
  have htext : (line label x).toList ++ rest =
      label.toList ++ ' ' :: ((number.render x).toList ++ '\n' :: rest) := by
    simp [line]
  rw [htext]
  exact not_infix_append_cons (h.marks ' ' (by decide)) hlabel
    (not_infix_append_cons (h.marks '\n' (by decide))
      (h.not_infix_numeral (number_isPlain.isNumeralText_render hx)) hrest)

/-- **A report of finite metrics** holds no word that stands for another number. -/
theorem not_infix_text {w : List Char} (h : IsStandIn w)
    (hlabels : ∀ label ∈ labels, ¬w <:+: label.toList) {m : Metrics}
    (hm : ∀ x ∈ m.numbers, x.isFinite = true) (includeEffective : Bool) :
    ¬w <:+: (text m includeEffective).toList := by
  have hnil := h.not_infix_nil
  have hmain {rest : List Char} (hrest : ¬w <:+: rest) : ¬w <:+: (mainText m).toList ++ rest := by
    have htext : (mainText m).toList ++ rest = [] ++ '\n' ::
        ((line "NewOrder Transactions per minute: \t" m.transactionalThroughput).toList ++
        ((line "Geometric Mean of Latencies: \t\t" m.geometricMeanLatency).toList ++
        ((line "Query Set Time: \t\t\t" m.querySetTime).toList ++
        ((line "Queries per Hour: \t\t\t" m.queriesPerHour).toList ++ rest)))) := by
      simp [mainText]
    rw [htext]
    refine not_infix_append_cons (h.marks '\n' (by decide)) hnil ?_
    refine not_infix_line h (hlabels _ (by simp [labels])) (hm _ (by simp [Metrics.numbers])) ?_
    refine not_infix_line h (hlabels _ (by simp [labels])) (hm _ (by simp [Metrics.numbers])) ?_
    refine not_infix_line h (hlabels _ (by simp [labels])) (hm _ (by simp [Metrics.numbers])) ?_
    exact not_infix_line h (hlabels _ (by simp [labels])) (hm _ (by simp [Metrics.numbers])) hrest
  unfold text
  split
  · rw [String.toList_append]
    have heffective := not_infix_line h
      (hlabels "Effective Queries per Hour: \t\t" (by simp [labels]))
      (hm m.effectiveQueriesPerHour (by simp [Metrics.numbers])) hnil
    rw [List.append_nil] at heffective
    exact hmain heffective
  · have hend := hmain hnil
    rwa [List.append_nil] at hend

end Report

/-! ### Values in JSON -/

namespace Json

theorem number_isPlain : number.IsPlain :=
  ⟨by decide, by decide⟩

theorem isNumeralText_floatText {x : Float} (hx : x.isFinite = true) :
    IsNumeralText (floatText x).toList := by
  rw [floatText, if_pos hx]
  exact number_isPlain.isNumeralText_render hx

/-- **A value avoids a word**: its texts and names do not have it, and its doubles are finite. -/
inductive Avoids (w : List Char) : Json → Prop
  /-- The word for nothing is another one. -/
  | null (h : ¬w <:+: "null".toList) : Avoids w null
  /-- A text is between quotation marks. -/
  | text {s : String} (h : ¬w <:+: (quoted s).toList) : Avoids w (text s)
  /-- Natural numbers are numerals. -/
  | natural (n : ℕ) : Avoids w (natural n)
  /-- So are finite doubles. -/
  | float {x : Float} (h : x.isFinite = true) : Avoids w (float x)
  /-- All elements avoid the word. -/
  | list {elements : List Json} (h : ∀ element ∈ elements, Avoids w element) :
      Avoids w (list elements)
  /-- All names and all values avoid the word. -/
  | object {members : List (String × Json)}
      (hnames : ∀ member ∈ members, ¬w <:+: (quoted member.1).toList)
      (hvalues : ∀ member ∈ members, Avoids w member.2) : Avoids w (object members)

theorem renderElements_eq_map (layout : Layout) (level : ℕ) (elements : List Json) :
    renderElements layout level elements = elements.map (render layout level) := by
  induction elements with
  | nil => rfl
  | cons element elements ih => rw [renderElements, ih, List.map_cons]

theorem renderMembers_eq_map (layout : Layout) (level : ℕ) (members : List (String × Json)) :
    renderMembers layout level members =
      members.map fun p => quoted p.1 ++ layout.colon ++ render layout level p.2 := by
  induction members with
  | nil => rfl
  | cons member members ih => rw [renderMembers, ih, List.map_cons]

section Layout

variable {w : List Char} (h : IsStandIn w)

include h

theorem not_infix_intercalate {parts : List (List Char)}
    (hparts : ∀ part ∈ parts, ¬w <:+: part) : ¬w <:+: [','].intercalate parts := by
  induction parts with
  | nil => exact h.not_infix_nil
  | cons part parts ih =>
    obtain ⟨hpart, hrest⟩ := List.forall_mem_cons.mp hparts
    cases parts with
    | nil =>
      rw [List.intercalate_singleton]
      exact hpart
    | cons next parts =>
      rw [List.intercalate_cons_cons, List.append_assoc]
      exact not_infix_append_cons (h.marks ',' (by decide)) hpart (ih hrest)

theorem not_mem_lead (level : ℕ) : ∀ c ∈ (Layout.indented.lead level).toList, c ∉ w := by
  intro c hc
  have hlead : (Layout.indented.lead level).toList = '\n' :: List.replicate (2 * level) ' ' := by
    simp [Layout.indented]
  rw [hlead] at hc
  rcases List.mem_cons.mp hc with rfl | hc
  · exact h.marks '\n' (by decide)
  · rw [List.eq_of_mem_replicate hc]
    exact h.marks ' ' (by decide)

/-- **Brackets, commas and indentation** add no word to the parts. -/
theorem not_infix_bracket (level : ℕ) {opening closing : String}
    (hopening : ∀ c ∈ opening.toList, c ∉ w) (hclosing : ∀ c ∈ closing.toList, c ∉ w)
    {parts : List String} (hparts : ∀ part ∈ parts, ¬w <:+: part.toList) :
    ¬w <:+: (bracket .indented level opening closing parts).toList := by
  have hlist : ¬w <:+: [','].intercalate
      (parts.map fun part => (Layout.indented.lead (level + 1)).toList ++ part.toList) := by
    refine not_infix_intercalate h fun part hpart => ?_
    obtain ⟨p, hp, rfl⟩ := List.mem_map.mp hpart
    exact not_infix_append_left (not_mem_lead h (level + 1)) (hparts p hp)
  unfold bracket
  split
  · rw [String.toList_append]
    refine not_infix_append_left hopening ?_
    rw [← List.append_nil closing.toList]
    exact not_infix_append_left hclosing h.not_infix_nil
  · have htext : (opening ++ String.intercalate ","
        (parts.map (Layout.indented.lead (level + 1) ++ ·)) ++
        Layout.indented.lead level ++ closing).toList =
        opening.toList ++ [','].intercalate
          (parts.map fun part => (Layout.indented.lead (level + 1)).toList ++ part.toList) ++
        (Layout.indented.lead level).toList ++ closing.toList := by
      simp [Function.comp_def]
    rw [htext]
    exact not_infix_append_right hclosing (not_infix_append_right (not_mem_lead h level)
      (not_infix_append_left hopening hlist))

/-- **A value that avoids a word** is written without it. -/
theorem Avoids.not_infix_render {v : Json} (hv : v.Avoids w) (level : ℕ) :
    ¬w <:+: (v.render .indented level).toList := by
  have hbracket {s : String} {c : Char} (hs : s.toList = [c])
      (hc : c ∈ [' ', '\n', ',', ':', '[', ']', '\x7b', '\x7d']) : ∀ d ∈ s.toList, d ∉ w := by
    intro d hd
    rw [hs, List.mem_singleton] at hd
    exact h.marks d (hd ▸ hc)
  -- the value of a member or an element is written one level further in
  induction hv generalizing level with
  | null hnull => exact hnull
  | text htext => exact htext
  | natural n => exact h.not_infix_numeral (isNumeralText_toString n)
  | float hx => exact h.not_infix_numeral (isNumeralText_floatText hx)
  | list _ ih =>
    rw [render, renderElements_eq_map]
    refine not_infix_bracket h level (hbracket rfl (by decide)) (hbracket rfl (by decide)) ?_
    rw [List.forall_mem_map]
    exact fun element helement => ih element helement (level + 1)
  | object hnames _ ih =>
    rw [render, renderMembers_eq_map]
    refine not_infix_bracket h level (hbracket rfl (by decide)) (hbracket rfl (by decide)) ?_
    rw [List.forall_mem_map]
    intro member hmember
    have htext : (quoted member.1 ++ Layout.indented.colon ++
        render .indented (level + 1) member.2).toList = (quoted member.1).toList ++
          ':' :: ' ' :: (render .indented (level + 1) member.2).toList := by
      simp [Layout.indented]
    rw [htext]
    exact not_infix_append_cons (h.marks ':' (by decide)) (hnames member hmember)
      (not_infix_append_cons (a := []) (h.marks ' ' (by decide)) h.not_infix_nil
        (ih member hmember (level + 1)))

end Layout

theorem avoids_object {w : List Char} {members : List (String × Json)}
    (hnames : ∀ name ∈ members.map Prod.fst, ¬w <:+: (quoted name).toList)
    (hvalues : ∀ member ∈ members, member.2.Avoids w) : (Json.object members).Avoids w :=
  .object (fun _ hmember => hnames _ (List.mem_map_of_mem hmember)) hvalues

end Json

/-! ### The report for machines -/

/-- The doubles of a group. -/
def QueryGroup.numbers (g : QueryGroup) : List Float :=
  [g.meanLatency, g.minLatency, g.maxLatency, g.firstStart, g.lastStart]

namespace Report

/-- The word that stands in JSON for what is missing. -/
def missing : List Char := ['n', 'u', 'l', 'l']

theorem isStandIn_missing : IsStandIn missing :=
  ⟨⟨'n', by decide, by decide⟩, by simp [missing]⟩

theorem metricsJson_avoids {m : Metrics} (hm : ∀ x ∈ m.numbers, x.isFinite = true) :
    (metricsJson m).Avoids missing := by
  simp only [Metrics.numbers, List.forall_mem_cons] at hm
  obtain ⟨hthroughput, hmean, hset, hhour, heffective, -⟩ := hm
  refine Json.avoids_object ?_ ?_
  · simp only [List.map]
    decide
  · simp only [List.forall_mem_cons]
    exact ⟨.float hthroughput, .float hmean, .float hset, .float hhour, .float heffective,
      List.forall_mem_nil _⟩

theorem groupJson_avoids {g : QueryGroup} (hg : ∀ x ∈ g.numbers, x.isFinite = true) :
    (groupJson g).Avoids missing := by
  simp only [QueryGroup.numbers, List.forall_mem_cons] at hg
  obtain ⟨hmean, hmin, hmax, hfirst, hlast, -⟩ := hg
  refine Json.avoids_object ?_ ?_
  · simp only [List.map]
    decide
  · simp only [List.forall_mem_cons]
    exact ⟨.natural _, .natural _, .natural _, .float hmean, .float hmin, .float hmax,
      .float hfirst, .float hlast, .natural _, List.forall_mem_nil _⟩

theorem groupsJson_avoids {q : QueryGroups}
    (hq : ∀ g ∈ q.groups, ∀ x ∈ g.numbers, x.isFinite = true) :
    (groupsJson q).Avoids missing := by
  refine Json.avoids_object ?_ ?_
  · simp only [List.map]
    decide
  · simp only [List.forall_mem_cons]
    refine ⟨.list ?_, .natural _, List.forall_mem_nil _⟩
    rw [List.forall_mem_map]
    exact fun g hg => groupJson_avoids (hq g hg)

theorem modeJson_avoids (mode : NormalizationMode) : (modeJson mode).Avoids missing := by
  cases mode with
  | subtractive => exact .text (by decide)
  | divisive s =>
    have hs := s.isPositive
    rw [Config.isPositive, Bool.and_eq_true] at hs
    refine Json.avoids_object ?_ ?_
    · simp only [List.map]
      decide
    · simp only [List.forall_mem_cons]
      exact ⟨.float hs.1, List.forall_mem_nil _⟩

/-- **The document about a run with finite numbers**, if the texts that are passed through do
not have the word themselves. -/
theorem json_avoids {generatedAt source : String}
    (hgenerated : ¬missing <:+: (Json.quoted generatedAt).toList)
    (hsource : ¬missing <:+: (Json.quoted source).toList) {log : NormalizedLog}
    (hlog : log.correction.isFinite = true) {q : QueryGroups}
    (hq : ∀ g ∈ q.groups, ∀ x ∈ g.numbers, x.isFinite = true) {m : Metrics}
    (hm : ∀ x ∈ m.numbers, x.isFinite = true) :
    (json generatedAt (some source) log q m).Avoids missing := by
  refine Json.avoids_object ?_ ?_
  · simp only [List.map]
    decide
  · simp only [List.forall_mem_cons]
    exact ⟨.text hgenerated, .text hsource, .natural _, modeJson_avoids log.mode, .float hlog,
      metricsJson_avoids hm, groupsJson_avoids hq, List.forall_mem_nil _⟩

end Report

end MixedWorkload

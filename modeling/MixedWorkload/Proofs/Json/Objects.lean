import MixedWorkload.Proofs.Json.Spelling

/-!
# Objects in JSON

An object is a list of members between braces, with white space wherever tokens meet.
`MixedWorkload.Json.IsObject` relates the text of an object to its members, each with its name
and its number, if its value is a number and a finite double; any other value is there as a
value without a number. The reader makes factors of an object if all members have numbers, in the
order of the members, and refuses it otherwise (`MixedWorkload.Json.readFactors?_of_isObject`).

The lexer counts its steps, and the count is only there to bound them
(`MixedWorkload.Json.lexUpTo?_eq_lex?`). So the tokens of a text are found one by one, by the
equations `MixedWorkload.Json.lex?_spaces` and `MixedWorkload.Json.lex?_cons`.
-/

namespace MixedWorkload.Json

open Text

/-! ### Tokens one by one -/

/-- What follows a text is shorter than the text with what follows it. -/
theorem length_of_lexText? (cs : List Char) :
    ∀ p, lexText? cs = some p → p.2.length < cs.length := by
  -- a character that is read leaves less for the rest
  have hadd {c : Char} {cs longer : List Char} (hlonger : cs.length < longer.length)
      (ih : ∀ p, lexText? cs = some p → p.2.length < cs.length) :
      ∀ p, (lexText? cs).map (addChar c) = some p → p.2.length < longer.length := by
    intro p h
    obtain ⟨q, hq, rfl⟩ := Option.map_eq_some_iff.mp h
    exact lt_trans (ih q hq) hlonger
  fun_induction lexText? cs with
  | case1 cs =>
    intro p h
    cases h
    exact Nat.lt_succ_self _
  | case2 | case5 | case7 | case9 | case10 | case12 => exact fun p h => (nomatch h)
  | case3 => exact hadd (by simp only [List.length_cons]; omega) ‹_›
  | case4 => exact hadd (by simp only [List.length_cons]; omega) ‹_›
  | case6 => exact hadd (by simp only [List.length_cons]; omega) ‹_›
  | case8 => exact hadd (by simp only [List.length_cons]; omega) ‹_›
  | case11 => exact hadd (Nat.lt_succ_self _) ‹_›

theorem length_leading (cs : List Char) : (Digits.leading cs).2.length ≤ cs.length :=
  (List.dropWhile_sublist _).length_le

theorem length_of_lexPlaces? {cs digits rest : List Char}
    (h : lexPlaces? cs = some (digits, rest)) : rest.length ≤ cs.length := by
  unfold lexPlaces? at h
  split at h
  · next tail =>
    dsimp only at h
    split at h
    · cases h
    · cases h
      exact (length_leading tail).trans (Nat.le_succ _)
  · cases h
    exact le_rfl

theorem length_splitSign (cs : List Char) : (splitSign cs).2.length ≤ cs.length := by
  unfold splitSign
  split
  · exact Nat.le_succ _
  · exact Nat.le_succ _
  · exact le_rfl

theorem length_of_lexExponent? {cs rest : List Char} {e : ℤ}
    (h : lexExponent? cs = some (e, rest)) : rest.length ≤ cs.length := by
  unfold lexExponent? at h
  split at h
  · next c tail =>
    split at h
    · have hsign := length_splitSign tail
      generalize splitSign tail = split at *
      dsimp only at h
      split at h
      · cases h
      · cases h
        exact ((length_leading _).trans hsign).trans (Nat.le_succ _)
    · cases h
      exact le_rfl
  · cases h
    exact le_rfl

/-- What follows a number is shorter than the number with what follows it. -/
theorem length_of_lexUnsigned? {cs rest : List Char} {x : Float}
    (h : lexUnsigned? cs = some (x, rest)) : rest.length < cs.length := by
  unfold lexUnsigned? at h
  obtain ⟨⟨⟩, hguard, h⟩ := Option.bind_eq_some_iff.mp h
  obtain ⟨⟨places, afterPlaces⟩, hplaces, h⟩ := Option.bind_eq_some_iff.mp h
  obtain ⟨⟨exponent, afterExponent⟩, hexponent, h⟩ := Option.bind_eq_some_iff.mp h
  obtain ⟨y, -, h⟩ := Option.bind_eq_some_iff.mp h
  cases h
  -- a whole part is not empty
  have hwhole : 0 < (cs.takeWhile Char.isDigit).length := by
    rw [List.length_pos_iff]
    intro hnil
    change guard (isWholePart (cs.takeWhile Char.isDigit) = true) = _ at hguard
    rw [hnil] at hguard
    cases hguard
  have hlength : (cs.takeWhile Char.isDigit).length + (cs.dropWhile Char.isDigit).length =
      cs.length := by
    rw [← List.length_append, List.takeWhile_append_dropWhile]
  have hafterPlaces := length_of_lexPlaces? hplaces
  have hafterExponent := length_of_lexExponent? hexponent
  omega

theorem length_of_lexToken? {c : Char} {cs rest : List Char} {t : Token}
    (h : lexToken? c cs = some (t, rest)) : rest.length ≤ cs.length := by
  unfold lexToken? at h
  split at h
  · cases h
    exact le_rfl
  · split at h
    · obtain ⟨p, hp, heq⟩ := Option.map_eq_some_iff.mp h
      cases heq
      exact (length_of_lexText? cs p hp).le
    · split at h
      · obtain ⟨p, hp, heq⟩ := Option.map_eq_some_iff.mp h
        cases heq
        exact (length_of_lexUnsigned? hp).le
      · obtain ⟨p, hp, heq⟩ := Option.map_eq_some_iff.mp h
        cases heq
        exact Nat.lt_succ_iff.mp (length_of_lexUnsigned? hp)

/-- The count of steps does not matter, if it is large enough. -/
theorem lexUpTo?_eq_of_le {n m : ℕ} {cs : List Char} (hn : cs.length ≤ n) (hm : cs.length ≤ m) :
    lexUpTo? n cs = lexUpTo? m cs := by
  induction n generalizing m cs with
  | zero =>
    obtain rfl := List.eq_nil_of_length_eq_zero (Nat.le_zero.mp hn)
    cases m <;> rfl
  | succ n ih =>
    cases cs with
    | nil => cases m <;> rfl
    | cons c cs =>
      obtain ⟨m, rfl⟩ : ∃ k, m = k + 1 := ⟨m - 1, by rw [List.length_cons] at hm; omega⟩
      have hcs : cs.length ≤ n := Nat.succ_le_succ_iff.mp hn
      have hcs' : cs.length ≤ m := Nat.succ_le_succ_iff.mp hm
      rw [lexUpTo?, lexUpTo?, ih hcs hcs']
      split
      · rfl
      · cases htoken : lexToken? c cs with
        | none => rfl
        | some p =>
          have hle := length_of_lexToken? htoken
          dsimp only
          rw [ih (hle.trans hcs) (hle.trans hcs')]

/-- White space counts for nothing. -/
theorem lex?_spaces {spaces : List Char} (h : ∀ c ∈ spaces, isSpace c = true) (cs : List Char) :
    lex? (spaces ++ cs) = lex? cs := by
  induction spaces with
  | nil => rfl
  | cons c spaces ih =>
    obtain ⟨hc, hspaces⟩ := List.forall_mem_cons.mp h
    rw [← ih hspaces]
    change lexUpTo? ((spaces ++ cs).length + 1) (c :: (spaces ++ cs)) = _
    rw [lexUpTo?, if_pos hc]
    rfl

/-- **The first token of a text.** -/
theorem lex?_cons {c : Char} (hc : isSpace c = false) (cs : List Char) :
    lex? (c :: cs) = (lexToken? c cs).bind fun p => (lex? p.2).map (p.1 :: ·) := by
  change lexUpTo? (cs.length + 1) (c :: cs) = _
  rw [lexUpTo?, hc, if_neg Bool.false_ne_true]
  cases htoken : lexToken? c cs with
  | none => rfl
  | some p =>
    change (lexUpTo? cs.length p.2).map (p.1 :: ·) = (lexUpTo? p.2.length p.2).map (p.1 :: ·)
    rw [lexUpTo?_eq_of_le (length_of_lexToken? htoken) le_rfl]

/-! ### The grammar -/

/-- White space. -/
def IsSpaces (cs : List Char) : Prop :=
  ∀ c ∈ cs, isSpace c = true

instance (cs : List Char) : Decidable (IsSpaces cs) :=
  List.decidableBAll (isSpace · = true) cs

/-- **A value as it is written**, with white space around it. -/
structure Element where
  /-- White space. -/
  before : List Char
  /-- The value. -/
  value : List Char
  /-- White space. -/
  after : List Char
  /-- The double that the value is, if it is one. -/
  number? : Option Float

/-- **A member of an object as it is written.** -/
structure Member where
  /-- White space in front of the name. -/
  before : List Char
  /-- The name between its quotation marks. -/
  spelling : List Char
  /-- White space between the name and the colon. -/
  behind : List Char
  /-- The value. -/
  element : Element
  /-- The name that is spelt. -/
  name : String

/-- The text of a value with the white space around it. -/
def Element.text (e : Element) : List Char :=
  e.before ++ (e.value ++ e.after)

/-- There is nothing but white space around the value. -/
def Element.IsPadded (e : Element) : Prop :=
  IsSpaces e.before ∧ IsSpaces e.after

namespace Member

variable (m : Member)

/-- The text of a member. -/
def text : List Char :=
  m.before ++ '"' :: (m.spelling ++ '"' :: (m.behind ++ ':' :: m.element.text))

/-- The member without its spelling. -/
def entry : String × Option Float :=
  (m.name, m.element.number?)

/-- **A member is spelt** as the grammar has it, but for its value. -/
structure IsSpelt : Prop where
  /-- There is nothing but white space in front of the name. -/
  before : IsSpaces m.before
  /-- The name is spelt. -/
  name : SpellsText m.spelling m.name.toList
  /-- There is nothing but white space behind it. -/
  behind : IsSpaces m.behind
  /-- There is nothing but white space around the value. -/
  padded : m.element.IsPadded

end Member

/-- The text of a list. -/
def listText (elements : List Element) : List Char :=
  '[' :: ([','].intercalate (elements.map Element.text) ++ [']'])

/-- The text of an object. -/
def objectText (members : List Member) : List Char :=
  '\x7b' :: ([','].intercalate (members.map Member.text) ++ ['\x7d'])

/-- **The values of JSON**, each with the double that it is, if it is one. -/
inductive IsValue : List Char → Option Float → Prop
  /-- A number, which need not be a finite double. -/
  | number {cs : List Char} {x? : Option Float} (h : SpellsNumber cs x?) : IsValue cs x?
  /-- One of three words. -/
  | word {w : String} (hw : w ∈ ["true", "false", "null"]) : IsValue w.toList none
  /-- A text. -/
  | text {cs s : List Char} (h : SpellsText cs s) : IsValue ('"' :: (cs ++ ['"'])) none
  /-- A list without elements. -/
  | emptyList {cs : List Char} (h : IsSpaces cs) : IsValue ('[' :: (cs ++ [']'])) none
  /-- A list of values. -/
  | list {elements : List Element} (hne : elements ≠ []) (hpadded : ∀ e ∈ elements, e.IsPadded)
      (h : ∀ e ∈ elements, IsValue e.value e.number?) : IsValue (listText elements) none
  /-- An object without members. -/
  | emptyObject {cs : List Char} (h : IsSpaces cs) : IsValue ('\x7b' :: (cs ++ ['\x7d'])) none
  /-- An object of values. -/
  | object {members : List Member} (hne : members ≠ []) (hspelt : ∀ m ∈ members, m.IsSpelt)
      (h : ∀ m ∈ members, IsValue m.element.value m.element.number?) :
      IsValue (objectText members) none

/-- **An object of JSON** as a whole text, and its members. -/
inductive IsObject : List Char → List (String × Option Float) → Prop
  /-- There may be no members. -/
  | empty {before inside after : List Char} (hbefore : IsSpaces before) (hinside : IsSpaces inside)
      (hafter : IsSpaces after) :
      IsObject (before ++ '\x7b' :: (inside ++ '\x7d' :: after)) []
  /-- Members are separated by commas. -/
  | members {before after : List Char} {members : List Member} (hbefore : IsSpaces before)
      (hafter : IsSpaces after) (hne : members ≠ []) (hspelt : ∀ m ∈ members, m.IsSpelt)
      (hvalues : ∀ m ∈ members, IsValue m.element.value m.element.number?) :
      IsObject (before ++ (objectText members ++ after)) (members.map Member.entry)

/-! ### Reading a value -/

/-- A text of white space has no tokens. -/
theorem lex?_of_isSpaces {spaces : List Char} (h : IsSpaces spaces) : lex? spaces = some [] := by
  have hspaces := lex?_spaces h []
  rwa [List.append_nil] at hspaces

/-- White space does not go on with a number. -/
theorem endsNumber_spaces {spaces rest : List Char} (h : IsSpaces spaces)
    (hrest : EndsNumber rest) : EndsNumber (spaces ++ rest) := by
  cases spaces with
  | nil => exact hrest
  | cons c spaces =>
    intro d hd
    cases hd
    have hc := h c List.mem_cons_self
    simp only [isSpace, Bool.or_eq_true, beq_iff_eq] at hc
    rcases hc with ((rfl | rfl) | rfl) | rfl <;> decide

/-- A character that is no mark begins a number, if anything. -/
theorem lexToken?_eq_lexUnsigned? {c : Char} (hpunctuation : punctuation? c = none)
    (hquote : c ≠ '"') (hminus : c ≠ '-') (cs : List Char) :
    lexToken? c cs = (lexUnsigned? (c :: cs)).map fun p => (.number p.1, p.2) := by
  rw [lexToken?, hpunctuation]
  dsimp only
  rw [if_neg hquote, if_neg hminus]

/-- A number begins with a digit. -/
theorem lexUnsigned?_eq_none {c : Char} (hc : c.isDigit = false) (cs : List Char) :
    lexUnsigned? (c :: cs) = none := by
  have hlead : Digits.leading (c :: cs) = ([], c :: cs) := by
    have hc' : ¬c.isDigit = true := by
      rw [hc]
      exact Bool.false_ne_true
    rw [Digits.leading, List.takeWhile_cons_of_neg hc', List.dropWhile_cons_of_neg hc']
  rw [lexUnsigned?, hlead]
  rfl

/-- A digit is neither a mark nor white space. -/
theorem marks_of_isDigit {c : Char} (hc : c.isDigit = true) :
    isSpace c = false ∧ punctuation? c = none ∧ c ≠ '"' ∧ c ≠ '-' := by
  have hne {d : Char} (hd : d.isDigit = false) : c ≠ d := by
    rintro rfl
    rw [hd] at hc
    cases hc
  refine ⟨?_, ?_, hne rfl, hne rfl⟩
  · simp only [isSpace, Bool.or_eq_false_iff, beq_eq_false_iff_ne]
    exact ⟨⟨⟨hne rfl, hne rfl⟩, hne rfl⟩, hne rfl⟩
  · unfold punctuation?
    split <;> first | rfl | exact absurd rfl (hne rfl)

/-- **A number is read** if it is a finite double, and ends the text otherwise. -/
theorem lex?_number {cs rest : List Char} {x? : Option Float} (h : SpellsNumber cs x?)
    (hrest : EndsNumber rest) :
    lex? (cs ++ rest) = x?.bind fun x => (lex? rest).map (.number x :: ·) := by
  cases h with
  | unsigned h =>
    obtain ⟨c, cs, rfl, hc⟩ := head_of_spellsUnsigned h
    obtain ⟨hspace, hpunctuation, hquote, hminus⟩ := marks_of_isDigit hc
    have hread := lexUnsigned?_append h hrest
    rw [List.cons_append] at hread
    rw [List.cons_append, lex?_cons hspace, lexToken?_eq_lexUnsigned? hpunctuation hquote hminus,
      hread]
    cases x? <;> rfl
  | @minus cs x? h =>
    have htoken : lexToken? '-' (cs ++ rest) =
        (lexUnsigned? (cs ++ rest)).map fun p => (.number (-p.1), p.2) := rfl
    rw [List.cons_append, lex?_cons rfl, htoken, lexUnsigned?_append h hrest]
    cases x? <;> rfl

/-- A value that is a double is a number. -/
theorem spellsNumber_of_isValue {cs : List Char} {x : Float} (h : IsValue cs (some x)) :
    SpellsNumber cs (some x) := by
  generalize hsome : some x = x? at h
  cases h with
  | number h => exact h
  | _ => cases hsome

/-- Other values begin with other characters. -/
theorem head_of_isValue {cs : List Char} (h : IsValue cs none) :
    SpellsNumber cs none ∨
      ∃ c rest, cs = c :: rest ∧ c ∈ ['t', 'f', 'n', '"', '[', '\x7b'] := by
  generalize hnone : (none : Option Float) = x? at h
  cases h with
  | number h =>
    subst hnone
    exact Or.inl h
  | word hw =>
    right
    simp only [List.mem_cons, List.not_mem_nil, or_false] at hw
    rcases hw with rfl | rfl | rfl
    · exact ⟨'t', "rue".toList, rfl, by decide⟩
    · exact ⟨'f', "alse".toList, rfl, by decide⟩
    · exact ⟨'n', "ull".toList, rfl, by decide⟩
  | text h => exact Or.inr ⟨_, _, rfl, by decide⟩
  | emptyList h => exact Or.inr ⟨_, _, rfl, by decide⟩
  | list hne hpadded h => exact Or.inr ⟨_, _, rfl, by decide⟩
  | emptyObject h => exact Or.inr ⟨_, _, rfl, by decide⟩
  | object hne hspelt h => exact Or.inr ⟨_, _, rfl, by decide⟩

/-- **A value that is no finite double** is not read as a number. -/
theorem lex?_other {cs rest : List Char} (h : IsValue cs none) (hrest : EndsNumber rest) (x : Float)
    (ts : List Token) : lex? (cs ++ rest) ≠ some (.number x :: ts) := by
  rcases head_of_isValue h with hnumber | ⟨c, cs, rfl, hc⟩
  · rw [lex?_number hnumber hrest]
    exact fun h => nomatch h
  · have hfirst {t : Token} {cs : List Char} (ht : t ≠ .number x) :
        (lex? cs).map (t :: ·) ≠ some (.number x :: ts) := by
      intro heq
      obtain ⟨ts', -, heq⟩ := Option.map_eq_some_iff.mp heq
      exact ht (List.cons.inj heq).1
    have hword (hspace : isSpace c = false) (hpunctuation : punctuation? c = none)
        (hdigit : c.isDigit = false) (hquote : c ≠ '"') (hminus : c ≠ '-') :
        lex? (c :: cs ++ rest) ≠ some (.number x :: ts) := by
      rw [List.cons_append, lex?_cons hspace, lexToken?_eq_lexUnsigned? hpunctuation hquote hminus,
        lexUnsigned?_eq_none hdigit]
      exact fun h => nomatch h
    simp only [List.mem_cons, List.not_mem_nil, or_false] at hc
    rcases hc with rfl | rfl | rfl | rfl | rfl | rfl
    · exact hword rfl rfl rfl (by decide) (by decide)
    · exact hword rfl rfl rfl (by decide) (by decide)
    · exact hword rfl rfl rfl (by decide) (by decide)
    · have htoken : lexToken? '"' (cs ++ rest) =
          (lexText? (cs ++ rest)).map fun p => (.text (String.ofList p.1), p.2) := rfl
      rw [List.cons_append, lex?_cons rfl, htoken]
      cases lexText? (cs ++ rest) with
      | none => exact fun h => nomatch h
      | some p => exact hfirst fun h => nomatch h
    · rw [List.cons_append, lex?_cons rfl]
      exact hfirst fun h => nomatch h
    · rw [List.cons_append, lex?_cons rfl]
      exact hfirst fun h => nomatch h

/-! ### Reading an object -/

/-- What may follow a member: a mark. -/
theorem endsNumber_mark {c : Char} (hc : c = ',' ∨ c = '\x7d') (cs : List Char) :
    EndsNumber (c :: cs) := by
  intro d hd
  cases hd
  rcases hc with rfl | rfl <;> decide

/-- A name and a colon begin a member only in front of a number. -/
theorem members?_eq_none {s : String} {ts : List Token} (h : ∀ x ts', ts ≠ .number x :: ts') :
    members? (.text s :: .colon :: ts) = none := by
  unfold members?
  split
  · next heq => exact absurd (List.cons.inj (List.cons.inj heq).2).2 (h _ _)
  · next heq => exact absurd (List.cons.inj (List.cons.inj heq).2).2 (h _ _)
  · rfl

/-- The entry of a member with a number. -/
def numbered (entry : String × Option Float) : Option (String × Float) :=
  entry.2.map fun x => (entry.1, x)

namespace Member

variable {m : Member} (hspelt : m.IsSpelt) {rest : List Char}

include hspelt

/-- **The tokens of a member** before its value. -/
theorem lex?_text : lex? (m.text ++ rest) =
    (lex? (m.element.value ++ (m.element.after ++ rest))).map fun ts =>
      .text m.name :: .colon :: ts := by
  have htext : m.text ++ rest = m.before ++ '"' :: (m.spelling ++ '"' :: (m.behind ++ ':' ::
      (m.element.before ++ (m.element.value ++ (m.element.after ++ rest))))) := by
    simp [text, Element.text]
  have hquote (cs : List Char) : lexToken? '"' cs =
      (lexText? cs).map fun p => (.text (String.ofList p.1), p.2) := rfl
  have hcolon (cs : List Char) : lexToken? ':' cs = some (.colon, cs) := rfl
  rw [htext, lex?_spaces hspelt.before, lex?_cons rfl, hquote, lexText?_append hspelt.name,
    Option.map_some, Option.bind_some, lex?_spaces hspelt.behind, lex?_cons rfl, hcolon,
    Option.bind_some, lex?_spaces hspelt.padded.1, Option.map_map, String.ofList_toList]
  rfl

variable (hvalue : IsValue m.element.value m.element.number?) (hrest : EndsNumber rest)

include hvalue hrest

/-- **A member with a number** is read as its name and the number. -/
theorem lex?_text_of_number {x : Float} (hx : m.element.number? = some x) :
    lex? (m.text ++ rest) =
      (lex? rest).map fun ts => .text m.name :: .colon :: .number x :: ts := by
  rw [hx] at hvalue
  rw [lex?_text hspelt, lex?_number (spellsNumber_of_isValue hvalue)
    (endsNumber_spaces hspelt.padded.2 hrest), Option.bind_some, lex?_spaces hspelt.padded.2,
    Option.map_map]
  rfl

/-- **A member with another value** is no member of an object of numbers. -/
theorem members?_text_of_other (hx : m.element.number? = none) :
    (lex? (m.text ++ rest)).bind members? = none := by
  rw [hx] at hvalue
  have hother := lex?_other hvalue (endsNumber_spaces hspelt.padded.2 hrest)
  rw [lex?_text hspelt]
  cases hlex : lex? (m.element.value ++ (m.element.after ++ rest)) with
  | none => rfl
  | some ts => exact members?_eq_none fun x ts' heq => hother x ts' (heq ▸ hlex)

omit hrest

/-- **A member in front of others.** -/
theorem members?_text_comma : (lex? (m.text ++ ',' :: rest)).bind members? =
    (numbered m.entry).bind fun entry =>
      ((lex? rest).bind members?).map fun p => (entry :: p.1, p.2) := by
  have hend := endsNumber_mark (Or.inl rfl) rest
  have htoken : lexToken? ',' rest = some (.comma, rest) := rfl
  rw [numbered, entry]
  cases hx : m.element.number? with
  | none => rw [members?_text_of_other hspelt hvalue hend hx, Option.map_none, Option.bind_none]
  | some x =>
    rw [lex?_text_of_number hspelt hvalue hend hx, lex?_cons rfl, htoken, Option.bind_some]
    cases lex? rest <;> rfl

/-- **The last member.** -/
theorem members?_text_close (hrest : IsSpaces rest) :
    (lex? (m.text ++ '\x7d' :: rest)).bind members? =
      (numbered m.entry).map fun entry => ([entry], []) := by
  have hend := endsNumber_mark (Or.inr rfl) rest
  have htoken : lexToken? '\x7d' rest = some (.closeObject, rest) := rfl
  rw [numbered, entry]
  cases hx : m.element.number? with
  | none => rw [members?_text_of_other hspelt hvalue hend hx, Option.map_none, Option.map_none]
  | some x =>
    rw [lex?_text_of_number hspelt hvalue hend hx, lex?_cons rfl, htoken, Option.bind_some,
      lex?_of_isSpaces hrest]
    rfl

end Member

/-- **The members of an object** are read if they all have numbers. -/
theorem members?_of_text {members : List Member} (hne : members ≠ [])
    (hspelt : ∀ m ∈ members, m.IsSpelt)
    (hvalues : ∀ m ∈ members, IsValue m.element.value m.element.number?) {after : List Char}
    (hafter : IsSpaces after) :
    (lex? ([','].intercalate (members.map Member.text) ++ '\x7d' :: after)).bind members? =
      ((members.map Member.entry).mapM numbered).map fun entries => (entries, []) := by
  induction members with
  | nil => exact absurd rfl hne
  | cons m members ih =>
    obtain ⟨hm, hmembers⟩ := List.forall_mem_cons.mp hspelt
    obtain ⟨hvalue, hvalues⟩ := List.forall_mem_cons.mp hvalues
    rw [List.map_cons, List.map_cons, List.mapM_cons]
    cases members with
    | nil =>
      rw [List.map_nil, List.intercalate_singleton, Member.members?_text_close hm hvalue hafter]
      cases numbered m.entry <;> rfl
    | cons next members =>
      rw [List.map_cons, List.intercalate_cons_cons, ← List.map_cons, List.append_assoc,
        List.append_assoc, List.singleton_append, Member.members?_text_comma hm hvalue,
        ih (List.cons_ne_nil _ _) hmembers hvalues]
      cases numbered m.entry with
      | none => rfl
      | some entry => cases ((next :: members).map Member.entry).mapM numbered <;> rfl

/-- A document is an object if its members are read to the end. -/
theorem document?_of_members? {s : String} {ts : List Token}
    {entries? : Option (List (String × Float))}
    (h : members? (.text s :: ts) = entries?.map fun entries => (entries, [])) :
    document? (.openObject :: .text s :: ts) = entries?.map .mapping := by
  simp only [document?, h]
  cases entries? <;> rfl

/-- **An object is read** if all its members have numbers. -/
theorem readFactors?_of_isObject {cs : List Char} {entries : List (String × Option Float)}
    (h : IsObject cs entries) :
    readFactors? cs = (entries.mapM numbered).map .mapping := by
  have hopen (cs : List Char) : lexToken? '\x7b' cs = some (.openObject, cs) := rfl
  have hclose (cs : List Char) : lexToken? '\x7d' cs = some (.closeObject, cs) := rfl
  cases h with
  | empty hbefore hinside hafter =>
    rw [readFactors?, lex?_spaces hbefore, lex?_cons rfl, hopen, Option.bind_some,
      lex?_spaces hinside, lex?_cons rfl, hclose, Option.bind_some, lex?_of_isSpaces hafter]
    rfl
  | @members before after members hbefore hafter hne hspelt hvalues =>
    have hread := members?_of_text hne hspelt hvalues hafter
    have htext : before ++ (objectText members ++ after) = before ++ '\x7b' ::
        ([','].intercalate (members.map Member.text) ++ '\x7d' :: after) := by
      simp [objectText]
    rw [htext, readFactors?, lex?_spaces hbefore, lex?_cons rfl, hopen, Option.bind_some]
    -- there is a member, so the tokens behind the brace begin with a name
    obtain ⟨m, members, rfl⟩ := List.exists_cons_of_ne_nil hne
    obtain ⟨rest, hrest⟩ : ∃ rest, [','].intercalate ((m :: members).map Member.text) ++
        '\x7d' :: after = m.text ++ rest := by
      cases members with
      | nil => exact ⟨'\x7d' :: after, by rw [List.map_singleton, List.intercalate_singleton]⟩
      | cons next members =>
        refine ⟨[','] ++ ([','].intercalate ((next :: members).map Member.text) ++
          '\x7d' :: after), ?_⟩
        rw [List.map_cons, List.map_cons, List.intercalate_cons_cons, ← List.map_cons,
          List.append_assoc, List.append_assoc]
    rw [hrest, Member.lex?_text (hspelt m List.mem_cons_self)] at hread ⊢
    generalize ((m :: members).map Member.entry).mapM numbered = entries? at hread ⊢
    generalize lex? (m.element.value ++ (m.element.after ++ rest)) = tokens? at hread ⊢
    cases tokens? with
    | none =>
      cases entries? with
      | none => rfl
      | some entries => cases hread
    | some ts => exact document?_of_members? hread

end MixedWorkload.Json

import MixedWorkload.Json.Numbers
import MixedWorkload.Proofs.Text.Digits

/-!
# Spellings of texts and numbers in JSON

A text has many spellings in JSON: a character may stand for itself or be written as an escape,
by a letter or by its number, and one beyond the first plane by two numbers. A number may have a
point and an exponent. `MixedWorkload.Json.SpellsText` and `MixedWorkload.Json.SpellsNumber` are
the spellings, as the grammar has them, and the lexer reads each of them as what it spells
(`MixedWorkload.Json.lexText?_append`, `MixedWorkload.Json.lexUnsigned?_append`). A number beyond
the greatest finite double spells no double, and the lexer stops at it.
-/

namespace MixedWorkload.Json

open Text

/-! ### Texts -/

/-- **The spellings of a text**, between its quotation marks. -/
inductive SpellsText : List Char → List Char → Prop
  /-- There is nothing to spell. -/
  | nil : SpellsText [] []
  /-- Most characters stand for themselves. -/
  | plain {c : Char} {cs s : List Char} (hc : c ≠ '"' ∧ c ≠ '\\' ∧ 0x20 ≤ c.toNat)
      (h : SpellsText cs s) : SpellsText (c :: cs) (c :: s)
  /-- Some characters have a letter. -/
  | letter {l c : Char} {cs s : List Char} (hl : letterEscape? l = some c) (h : SpellsText cs s) :
      SpellsText ('\\' :: l :: cs) (c :: s)
  /-- A character of the first plane has a number. -/
  | single {a b c d ch : Char} {n : ℕ} {cs s : List Char} (hn : hexValue? [a, b, c, d] = some n)
      (hch : charOf? n = some ch) (h : SpellsText cs s) :
      SpellsText ('\\' :: 'u' :: a :: b :: c :: d :: cs) (ch :: s)
  /-- Other characters have two. -/
  | pair {a b c d a' b' c' d' ch : Char} {n n' : ℕ} {cs s : List Char}
      (hn : hexValue? [a, b, c, d] = some n) (hn' : hexValue? [a', b', c', d'] = some n')
      (hch : pairChar? n n' = some ch) (h : SpellsText cs s) :
      SpellsText ('\\' :: 'u' :: a :: b :: c :: d :: '\\' :: 'u' :: a' :: b' :: c' :: d' :: cs)
        (ch :: s)

/-- The first half of a pair is no character. -/
theorem charOf?_eq_none_of_pairChar? {n n' : ℕ} {ch : Char} (h : pairChar? n n' = some ch) :
    charOf? n = none := by
  unfold pairChar? at h
  split at h
  · next hbounds =>
    have hinvalid : ¬n.isValidChar := by
      rintro (hlow | hhigh) <;> omega
    rw [charOf?, if_neg hinvalid]
  · cases h

/-- A character that stands for itself. -/
theorem lexText?_cons {c : Char} (hc : c ≠ '"' ∧ c ≠ '\\' ∧ 0x20 ≤ c.toNat) (cs : List Char) :
    lexText? (c :: cs) = (lexText? cs).map (addChar c) := by
  obtain ⟨hquote, hslash, hspace⟩ := hc
  have hplain : ¬(c = '\\' ∨ c.toNat < 0x20) := by
    rintro (h | h)
    · exact hslash h
    · omega
  rw [lexText?, if_neg hplain]
  · exact hquote
  · exact fun _ _ _ _ _ _ _ _ _ h _ => hslash h
  · exact fun _ _ _ _ _ h _ => hslash h
  · exact fun _ _ h _ => hslash h

/-- A character by its letter. -/
theorem lexText?_letter {l c : Char} (hl : letterEscape? l = some c) (cs : List Char) :
    lexText? ('\\' :: l :: cs) = (lexText? cs).map (addChar c) := by
  have hu : l ≠ 'u' := by
    rintro rfl
    cases hl
  rw [lexText?, hl]
  · exact fun _ _ _ _ _ _ _ _ _ h _ => hu h
  · exact fun _ _ _ _ _ h _ => hu h

/-- A character by its number. What follows may be a number as well. -/
theorem lexText?_single {a b c d ch : Char} {n : ℕ} (hn : hexValue? [a, b, c, d] = some n)
    (hch : charOf? n = some ch) (cs : List Char) :
    lexText? ('\\' :: 'u' :: a :: b :: c :: d :: cs) = (lexText? cs).map (addChar ch) := by
  by_cases hnext : ∃ e f g h rest, cs = '\\' :: 'u' :: e :: f :: g :: h :: rest
  · obtain ⟨e, f, g, h, rest, rfl⟩ := hnext
    rw [lexText?, hn]
    dsimp only
    rw [hch]
  · rw [lexText?, hn, Option.bind_some, hch]
    exact fun e f g h rest heq => hnext ⟨e, f, g, h, rest, heq⟩

/-- **A spelling is read as what it spells.** -/
theorem lexText?_append {cs s : List Char} (h : SpellsText cs s) (rest : List Char) :
    lexText? (cs ++ '"' :: rest) = some (s, rest) := by
  induction h with
  | nil => rfl
  | plain hc h ih =>
    rw [List.cons_append, lexText?_cons hc, ih]
    rfl
  | letter hl h ih =>
    rw [List.cons_append, List.cons_append, lexText?_letter hl, ih]
    rfl
  | single hn hch h ih =>
    simp only [List.cons_append]
    rw [lexText?_single hn hch, ih]
    rfl
  | pair hn hn' hch h ih =>
    simp only [List.cons_append]
    rw [lexText?, hn]
    dsimp only
    rw [charOf?_eq_none_of_pairChar? hch]
    dsimp only
    rw [hn', Option.bind_some, hch, ih]
    rfl

/-! ### Numbers -/

/-- **The spellings of a fractional part** by its digits. -/
inductive SpellsPlaces : List Char → List Char → Prop
  /-- It may be missing. -/
  | none : SpellsPlaces [] []
  /-- There are digits behind a point. -/
  | point {ds : List Char} (hne : ds ≠ []) (hds : ∀ c ∈ ds, c.isDigit = true) :
      SpellsPlaces ('.' :: ds) ds

/-- **The spellings of an exponent.** -/
inductive SpellsExponent : List Char → ℤ → Prop
  /-- It may be missing. -/
  | none : SpellsExponent [] 0
  /-- There are digits behind a letter and a sign, which may be missing as well. -/
  | letter {e : Char} {sign ds : List Char} {negative : Bool} (he : e = 'e' ∨ e = 'E')
      (hsign : (sign, negative) ∈ [([], false), (['+'], false), (['-'], true)]) (hne : ds ≠ [])
      (hds : ∀ c ∈ ds, c.isDigit = true) :
      SpellsExponent (e :: (sign ++ ds))
        (if negative then -(Digits.value ds : ℤ) else Digits.value ds)

/-- **The spellings of a number** that is not negative, if it is a finite double. -/
inductive SpellsUnsigned : List Char → Option Float → Prop
  | digits {whole point places letter : List Char} {exponent : ℤ}
      (hwhole : ∀ c ∈ whole, c.isDigit = true) (hzero : isWholePart whole = true)
      (hplaces : SpellsPlaces point places) (hexponent : SpellsExponent letter exponent) :
      SpellsUnsigned (whole ++ (point ++ letter)) (numberOf? whole places exponent)

/-- **The spellings of a number**, if it is a finite double. -/
inductive SpellsNumber : List Char → Option Float → Prop
  /-- A number may have no sign. -/
  | unsigned {cs : List Char} {x? : Option Float} (h : SpellsUnsigned cs x?) : SpellsNumber cs x?
  /-- Or it may have a minus. -/
  | minus {cs : List Char} {x? : Option Float} (h : SpellsUnsigned cs x?) :
      SpellsNumber ('-' :: cs) (x?.map fun x => -x)

/-- What does not go on with a number. -/
def EndsNumber (rest : List Char) : Prop :=
  ∀ c ∈ rest.head?, c.isDigit = false ∧ c ≠ '.' ∧ c ≠ 'e' ∧ c ≠ 'E'

section Numbers

variable {point places letter rest : List Char} {exponent : ℤ}

/-- An exponent does not go on with the digits before it. -/
theorem head_of_spellsExponent (h : SpellsExponent letter exponent) (hrest : EndsNumber rest) :
    ∀ c ∈ (letter ++ rest).head?, c.isDigit = false ∧ c ≠ '.' := by
  cases h with
  | none => exact fun c hc => ⟨(hrest c hc).1, (hrest c hc).2.1⟩
  | letter he hsign hne hds =>
    intro c hc
    cases hc
    rcases he with rfl | rfl <;> decide

/-- Neither does a fractional part. -/
theorem head_of_spellsPlaces (h : SpellsPlaces point places)
    (hrest : ∀ c ∈ rest.head?, c.isDigit = false ∧ c ≠ '.') :
    ∀ c ∈ (point ++ rest).head?, c.isDigit = false := by
  cases h with
  | none => exact fun c hc => (hrest c hc).1
  | point hne hds =>
    intro c hc
    cases hc
    decide

theorem lexPlaces?_append (h : SpellsPlaces point places)
    (hrest : ∀ c ∈ rest.head?, c.isDigit = false ∧ c ≠ '.') :
    lexPlaces? (point ++ rest) = some (places, rest) := by
  cases h with
  | none =>
    rw [List.nil_append]
    unfold lexPlaces?
    split
    · exact absurd rfl (hrest '.' rfl).2
    · rfl
  | point hne hds =>
    rw [List.cons_append, lexPlaces?, Digits.leading_append hds fun c hc => (hrest c hc).1]
    dsimp only
    rw [List.isEmpty_eq_false_iff.mpr hne, if_neg Bool.false_ne_true]

theorem lexExponent?_append (h : SpellsExponent letter exponent) (hrest : EndsNumber rest) :
    lexExponent? (letter ++ rest) = some (exponent, rest) := by
  cases h with
  | none =>
    cases rest with
    | nil => rfl
    | cons c rest =>
      obtain ⟨-, -, hlower, hupper⟩ := hrest c rfl
      rw [List.nil_append, lexExponent?, if_neg (not_or.mpr ⟨hlower, hupper⟩)]
  | @letter e sign ds negative he hsign hne hds =>
    have hsplit : splitSign (sign ++ (ds ++ rest)) = (negative, ds ++ rest) := by
      simp only [List.mem_cons, Prod.mk.injEq, List.not_mem_nil, or_false] at hsign
      rcases hsign with ⟨rfl, rfl⟩ | ⟨rfl, rfl⟩ | ⟨rfl, rfl⟩
      · refine splitSign_of_isDigit fun c hc => hds c ?_
        rw [List.nil_append, List.head?_append_of_ne_nil _ hne] at hc
        exact List.mem_of_mem_head? hc
      · rfl
      · rfl
    rw [List.cons_append, List.append_assoc, lexExponent?, if_pos he, hsplit]
    dsimp only
    rw [Digits.leading_append hds fun c hc => (hrest c hc).1]
    dsimp only
    rw [List.isEmpty_eq_false_iff.mpr hne, if_neg Bool.false_ne_true]

/-- **A spelling of a number is read as what it spells**, if that is a finite double. -/
theorem lexUnsigned?_append {cs : List Char} {x? : Option Float} (h : SpellsUnsigned cs x?)
    (hrest : EndsNumber rest) : lexUnsigned? (cs ++ rest) = x?.map fun x => (x, rest) := by
  cases h with
  | @digits whole point places letter exponent hwhole hzero hplaces hexponent =>
    have hletter := head_of_spellsExponent hexponent hrest
    rw [List.append_assoc, List.append_assoc, lexUnsigned?,
      Digits.leading_append hwhole (head_of_spellsPlaces hplaces hletter)]
    dsimp only
    rw [hzero, lexPlaces?_append hplaces hletter]
    simp only [guard_true, pure, bind, Option.bind_some]
    rw [lexExponent?_append hexponent hrest, Option.bind_some]
    exact Option.map_eq_bind.symm

/-- A number begins with a digit. -/
theorem head_of_spellsUnsigned {cs : List Char} {x? : Option Float} (h : SpellsUnsigned cs x?) :
    ∃ c rest, cs = c :: rest ∧ c.isDigit = true := by
  cases h with
  | @digits whole point places letter exponent hwhole hzero hplaces hexponent =>
    cases whole with
    | nil => cases hzero
    | cons c whole => exact ⟨c, _, rfl, hwhole c List.mem_cons_self⟩

end Numbers

end MixedWorkload.Json

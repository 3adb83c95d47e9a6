import Mathlib
import MixedWorkload.Decimal.Style
import MixedWorkload.Proofs.Binary64.Nearest

/-!
# Numerals

However a style lays out a double, the text of a finite one is made of digits, signs, points
and the letter of an exponent (`MixedWorkload.Decimal.Style.IsPlain.isNumeralText_render`).
The texts of the other doubles are words, which have letters that no numeral has.
-/

namespace MixedWorkload.Decimal

open Binary64

/-! ### Characters of numerals -/

/-- The characters that numerals are made of. -/
def IsNumeralChar (c : Char) : Prop :=
  c.isDigit = true ∨ c ∈ ['-', '+', '.', 'e']

instance : DecidablePred IsNumeralChar :=
  fun c => inferInstanceAs (Decidable (c.isDigit = true ∨ c ∈ ['-', '+', '.', 'e']))

/-- A text of such characters only. -/
def IsNumeralText (cs : List Char) : Prop :=
  ∀ c ∈ cs, IsNumeralChar c

instance (cs : List Char) : Decidable (IsNumeralText cs) :=
  List.decidableBAll IsNumeralChar cs

theorem isNumeralText_append {cs ds : List Char} :
    IsNumeralText (cs ++ ds) ↔ IsNumeralText cs ∧ IsNumeralText ds :=
  List.forall_mem_append

theorem isNumeralText_cons {c : Char} {cs : List Char} :
    IsNumeralText (c :: cs) ↔ IsNumeralChar c ∧ IsNumeralText cs :=
  List.forall_mem_cons

theorem isNumeralText_digits (n : ℕ) : IsNumeralText (Nat.toDigits 10 n) :=
  fun _ hc => Or.inl (Nat.isDigit_of_mem_toDigits (by norm_num) (by norm_num) hc)

theorem isNumeralText_zeros (n : ℕ) : IsNumeralText (List.replicate n '0') := by
  intro c hc
  rw [List.eq_of_mem_replicate hc]
  decide

theorem isNumeralText_toString (z : ℤ) : IsNumeralText (toString z).toList := by
  have hrepr (n : ℕ) : (Nat.repr n).toList = Nat.toDigits 10 n := String.toList_ofList
  cases z with
  | ofNat n =>
    change IsNumeralText (Nat.repr n).toList
    rw [hrepr]
    exact isNumeralText_digits n
  | negSucc n =>
    change IsNumeralText ("-" ++ Nat.repr (n + 1)).toList
    rw [String.toList_append, hrepr, isNumeralText_append]
    exact ⟨by decide, isNumeralText_digits _⟩

theorem isNumeralText_positional {suffix : String} (hsuffix : IsNumeralText suffix.toList)
    (d : Decimal) : IsNumeralText (positional suffix d).toList := by
  have hdigits : IsNumeralText d.digits := isNumeralText_digits d.coefficient
  unfold positional
  split
  · rw [String.toList_append, String.toList_ofList, isNumeralText_append, isNumeralText_append]
    exact ⟨⟨hdigits, isNumeralText_zeros _⟩, hsuffix⟩
  · have hpadded : IsNumeralText (List.replicate ((-d.exponent).toNat + 1 - d.digits.length) '0' ++
        d.digits) := isNumeralText_append.mpr ⟨isNumeralText_zeros _, hdigits⟩
    dsimp only
    rw [String.toList_append, String.toList_append, isNumeralText_append, isNumeralText_append]
    simp only [String.toList_ofList]
    exact ⟨⟨fun c hc => hpadded c (List.mem_of_mem_take hc), by decide⟩,
      fun c hc => hpadded c (List.mem_of_mem_drop hc)⟩

theorem isNumeralText_scientific {plus : String} (hplus : IsNumeralText plus.toList)
    (d : Decimal) : IsNumeralText (scientific plus d).toList := by
  have hdigits : IsNumeralText d.digits := isNumeralText_digits d.coefficient
  unfold scientific
  dsimp only
  rw [String.toList_append, String.toList_append, String.toList_append, isNumeralText_append,
    isNumeralText_append, isNumeralText_append]
  refine ⟨⟨⟨?_, by decide⟩, ?_⟩, isNumeralText_toString _⟩
  · split
    · next first second rest h =>
      rw [h] at hdigits
      obtain ⟨hfirst, hrest⟩ := isNumeralText_cons.mp hdigits
      rw [String.toList_ofList, isNumeralText_cons, isNumeralText_cons]
      exact ⟨hfirst, by decide, hrest⟩
    · rw [String.toList_ofList]
      exact hdigits
  · split
    · exact hplus
    · exact fun _ hc => absurd hc List.not_mem_nil

/-! ### Finite doubles -/

/-- **The parts of a finite double.** -/
theorem exists_parts {x : Float} (hx : x.isFinite = true) :
    ∃ negative significand scale, Parts.ofFloat x = .finite negative significand scale := by
  rw [isFinite_eq] at hx
  rw [parts_ofFloat]
  cases hdecoded : decoded x with
  | notANumber | infinity s =>
    rw [hdecoded] at hx
    cases hx
  | zero s => exact ⟨_, _, _, rfl⟩
  | finite s m e hm => exact ⟨_, _, _, rfl⟩

/-- A style whose own marks are those of numerals. -/
structure Style.IsPlain (style : Style) : Prop where
  /-- What follows a whole number. -/
  wholeSuffix : IsNumeralText style.wholeSuffix.toList
  /-- What stands before a positive exponent. -/
  exponentPlus : IsNumeralText style.exponentPlus.toList

namespace Style.IsPlain

variable {style : Style} (h : style.IsPlain) {x : Float}

include h

theorem isNumeralText_of_parts {negative : Bool} {significand scale : ℕ}
    (hparts : Parts.ofFloat x = .finite negative significand scale) :
    IsNumeralText (style.render x).toList := by
  unfold render
  rw [hparts]
  dsimp only
  rw [String.toList_append, isNumeralText_append]
  refine ⟨by cases negative <;> decide, ?_⟩
  split
  · rw [String.toList_append, isNumeralText_append]
    exact ⟨by decide, h.wholeSuffix⟩
  · unfold layOut
    split
    · exact isNumeralText_scientific h.exponentPlus _
    · exact isNumeralText_positional h.wholeSuffix _

/-- **A finite double is written as a numeral.** -/
theorem isNumeralText_render (hx : x.isFinite = true) : IsNumeralText (style.render x).toList := by
  obtain ⟨negative, significand, scale, hparts⟩ := exists_parts hx
  exact h.isNumeralText_of_parts hparts

/-- **What stands between numbers is not in them**: a character that neither numerals nor the
words for the other doubles have. -/
theorem notMem_render {c : Char} (hc : ¬IsNumeralChar c)
    (hwords : c ∉ notANumberText.toList ∧ c ∉ infinityText.toList) (x : Float) :
    c ∉ (style.render x).toList := by
  intro hmem
  cases hparts : Parts.ofFloat x with
  | notANumber =>
    rw [render, hparts] at hmem
    exact hwords.1 hmem
  | infinite negative =>
    rw [render, hparts, String.toList_append, List.mem_append] at hmem
    rcases hmem with hsign | hword
    · have hplain : IsNumeralText (signText negative).toList := by cases negative <;> decide
      exact hc (hplain c hsign)
    · exact hwords.2 hword
  | finite negative significand scale => exact hc (h.isNumeralText_of_parts hparts c hmem)

end Style.IsPlain

end MixedWorkload.Decimal

import MixedWorkload.Proofs.Text.Digits
import MixedWorkload.Toml.Scalar

/-!
# Integers in digits

A run of digits without a leading zero is the integer that the digits denote
(`MixedWorkload.Toml.scalarOf?_digits`). Four kinds of values are looked for in a run before
integers are, and none of them is found in digits alone: each has a letter or a mark in it.
-/

namespace MixedWorkload.Toml

open scoped Powers

open Text

theorem ne_of_isDigit {c d : Char} (h : c.isDigit = true) (hd : d.isDigit = false) : c ≠ d := by
  rintro rfl
  exact absurd h (by simp [hd])

/-- Digits need no underscore between them. -/
theorem continuesDigits_digits {ds : List Char} (hds : ∀ c ∈ ds, c.isDigit = true) :
    continuesDigits Char.isDigit ds = true := by
  induction ds with
  | nil => rfl
  | cons c cs ih =>
    obtain ⟨hc, hcs⟩ := List.forall_mem_cons.mp hds
    unfold continuesDigits
    split
    · next heq => cases heq
    · next heq => exact absurd (List.cons.inj heq).1 (ne_of_isDigit hc rfl)
    · next heq =>
      obtain ⟨rfl, rfl⟩ := List.cons.inj heq
      rw [hc, ih hcs]
      rfl

section Digits

variable {ds : List Char} (hds : ∀ c ∈ ds, c.isDigit = true)

include hds

/-- There is no sign in front of digits. -/
theorem splitSign_digits : splitSign ds = (false, ds) :=
  splitSign_of_isDigit fun c hc => hds c (List.mem_of_mem_head? hc)

/-! ### What digits are not -/

theorem isMoment_digits : isMoment ds = false := by
  have hdate : date? ds = none := by
    unfold date?
    split
    · exact absurd (hds '-' (by simp)) (by decide)
    · rfl
  have htime : time? ds = none := by
    unfold time?
    split
    · exact absurd (hds ':' (by simp)) (by decide)
    · rfl
  rw [isMoment, hdate]
  dsimp only
  rw [htime]
  rfl

theorem namedFloat?_digits : namedFloat? ds = none := by
  rw [namedFloat?, splitSign_digits hds]
  dsimp only
  rw [if_neg]
  rintro (rfl | rfl)
  · exact absurd (hds 'i' List.mem_cons_self) (by decide)
  · exact absurd (hds 'n' List.mem_cons_self) (by decide)

theorem digitFloat?_digits : digitFloat? ds = none := by
  have hwhole : (ds.takeWhile fun c => c != '.' && !isExponentMark c) = ds := by
    rw [List.takeWhile_eq_self_iff]
    intro c hc
    have hdigit := hds c hc
    rw [Bool.and_eq_true, bne_iff_ne, Bool.not_eq_true', isExponentMark, Bool.or_eq_false_iff,
      beq_eq_false_iff_ne, beq_eq_false_iff_ne]
    exact ⟨ne_of_isDigit hdigit rfl, ne_of_isDigit hdigit rfl, ne_of_isDigit hdigit rfl⟩
  -- nothing follows the whole part
  rw [digitFloat?, splitSign_digits hds]
  dsimp only
  rw [hwhole, List.drop_length, if_neg]
  rw [isFloatTail, isExponent, Bool.and_false]
  · exact Bool.false_ne_true
  · nofun

/-! ### What digits are -/

variable (hne : ds ≠ []) (hzero : ds.head? ≠ some '0' ∨ ds.length = 1)
  (hfits : Digits.value ds < 2 ^ (63 : ℕ))

include hne hzero hfits

theorem integer?_digits : integer? ds = some (Digits.value ds : ℤ) := by
  have hungroup : ungroup ds = ds :=
    List.filter_eq_self.mpr fun c hc => bne_iff_ne.mpr (ne_of_isDigit (hds c hc) rfl)
  have hdecimal : isDecimal ds = true := by
    obtain ⟨c, cs, rfl⟩ := List.exists_cons_of_ne_nil hne
    obtain ⟨hc, hcs⟩ := List.forall_mem_cons.mp hds
    rw [isDecimal, isDigits, hc, continuesDigits_digits hcs, Bool.and_self, Bool.true_and,
      Bool.or_eq_true, bne_iff_ne, beq_iff_eq]
    exact hzero
  have hread : readInt64? ds = some (Int64.ofInt (Digits.value ds)) := by
    rw [readInt64?, splitSign_digits hds]
    dsimp only
    rw [Digits.read?_eq_some hne hds, Option.bind_some, if_neg Bool.false_ne_true, if_pos hfits]
  have hvalue : (Int64.ofInt (Digits.value ds)).toInt = Digits.value ds :=
    Int64.toInt_ofInt_of_le (by omega) (by omega)
  unfold integer?
  split
  · exact absurd (hds 'x' (by simp)) (by decide)
  · exact absurd (hds 'o' (by simp)) (by decide)
  · exact absurd (hds 'b' (by simp)) (by decide)
  · rw [splitSign_digits hds]
    dsimp only
    rw [if_pos hdecimal, hungroup, hread, Option.map_some, hvalue]

/-- **Digits without a leading zero** are the integer that they denote, if it fits. -/
theorem scalarOf?_digits : scalarOf? ds = some (.integer (Digits.value ds)) := by
  have htrue : ds ≠ ['t', 'r', 'u', 'e'] := by
    rintro rfl
    exact absurd (hds 't' List.mem_cons_self) (by decide)
  have hfalse : ds ≠ ['f', 'a', 'l', 's', 'e'] := by
    rintro rfl
    exact absurd (hds 'f' List.mem_cons_self) (by decide)
  rw [scalarOf?, if_neg htrue, if_neg hfalse, isMoment_digits hds, if_neg Bool.false_ne_true,
    namedFloat?_digits hds, digitFloat?_digits hds, integer?_digits hds hne hzero hfits]
  rfl

end Digits

end MixedWorkload.Toml

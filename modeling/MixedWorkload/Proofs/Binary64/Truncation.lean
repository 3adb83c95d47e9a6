import MixedWorkload.Proofs.Binary64.Arithmetic

/-!
# Cutting off the fraction of a double

A double becomes a machine word by cutting off its fraction, which for a number that is not
negative is rounding down. `MixedWorkload.Binary64.toNat_toUInt64` says so of every number
that fits into the word. The conversion aligns the mantissa with the exponent of one, and
what it drops are the residual bits of `MixedWorkload.Binary64.Describes`, so the mantissa
that is left is the integral part.
-/

namespace MixedWorkload.Binary64

open Float.Model (Format UnpackedFloat)

open Float.Model.UnpackedFloat

/-- **The mantissa at the exponent of one**, with the residual bits of what was shifted out. -/
theorem describes_atOne (m : ℕ) (e : ℤ) :
    Describes (shiftToExponent (decreaseExponent m e 0).1 (decreaseExponent m e 0).2 .exact 0).1
      (m * 2 ^ e) := by
  set k := (e - 0).toNat with hk
  set j := (0 - (e - (k : ℤ))).toNat with hj
  -- the exponent is first decreased to at most zero, and then made up for
  have h := (describes_exact (m <<< k)).shiftRight j
  have hvalue : ((m <<< k : ℕ) : ℚ) / 2 ^ j = m * 2 ^ e := by
    have hexp : e - (k : ℤ) = -(j : ℤ) := by omega
    rw [← shiftLeft_mul_zpow m k e, hexp, zpow_neg, zpow_natCast, div_eq_mul_inv]
  rw [hvalue] at h
  exact h

/-- **The integral part of a positive number.** -/
theorem roundToInt_positive (m : ℕ) (e : ℤ) :
    roundToInt .positive m e = ⌊(m * 2 ^ e : ℚ)⌋₊ := by
  have hbounds := (describes_atOne m e).bounds
  have hfloor := (Nat.floor_eq_iff (le_trans (Nat.cast_nonneg _) hbounds.1)).mpr hbounds
  rw [hfloor]
  rfl

/-- A finite double that is not negative, cut off without regard to the width of a word. -/
theorem toInt_decoded {x : Float} (hx : x.isFinite = true) (h : 0 ≤ toRat x) (low high : ℤ) :
    (decoded x).toInt low high = ⌊toRat x⌋₊ := by
  rcases finite_cases hx with ⟨s, hs, hx0⟩ | ⟨s, m, e, hm, hd, -, hvalue⟩
  · rw [hs, hx0, Nat.floor_zero]
    rfl
  · have hpos : (0 : ℚ) < m * 2 ^ e := mul_pos (Nat.cast_pos.mpr hm) (zpow_pos two_pos e)
    cases s with
    | positive =>
      rw [hd, hvalue]
      exact roundToInt_positive m e
    | negative =>
      rw [hvalue, signed] at h
      linarith

/-- **Cutting off the fraction** of a number that is not negative rounds it down. -/
theorem toNat_toUInt64 {x : Float} (hx : x.isFinite = true) (h : 0 ≤ toRat x)
    (hfits : ⌊toRat x⌋₊ < 2 ^ 64) : x.toUInt64.toNat = ⌊toRat x⌋₊ := by
  have hword : x.toUInt64 =
      UInt64.ofNatClamp ((decoded x).toInt 0 (UInt64.size - 1)).toNat := rfl
  rw [hword, toInt_decoded hx h, Int.toNat_natCast, UInt64.ofNatClamp_eq_ofNat _ hfits,
    UInt64.toNat_ofNat_of_lt' hfits]

end MixedWorkload.Binary64

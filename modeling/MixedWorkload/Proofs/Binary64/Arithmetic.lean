import MixedWorkload.Proofs.Binary64.Difference
import MixedWorkload.Proofs.Binary64.Shifting

/-!
# Arithmetic on doubles

A finite double stands for a rational number, its `MixedWorkload.Binary64.toRat`. Sums,
differences, products and quotients of finite doubles are those of the rational numbers,
rounded (`MixedWorkload.Binary64.rounds_add`, `MixedWorkload.Binary64.rounds_sub`,
`MixedWorkload.Binary64.rounds_mul`, `MixedWorkload.Binary64.rounds_div`), and a natural number
becomes the double that is nearest to it (`MixedWorkload.Binary64.rounds_toFloat`).

Each operation works on mantissas first, and exactly: it adds them at the lower of the two
exponents, multiplies them, or divides them with a remainder. Only then it rounds, once. What
is left to prove of an operation is that rounding gets as many bits as it needs.
-/

namespace MixedWorkload.Binary64

open Float.Model (Format UnpackedFloat totalExponent)

open Float.Model.UnpackedFloat

/-! ### The value of a double -/

/-- The number of binary places of the least positive double. -/
def unitPlaces : ℕ := 1074

/-- The number of units in one. -/
def unitsOfOne : ℚ := 2 ^ unitPlaces

/-- **The number that a finite double stands for.** An infinity counts as the power of two
beyond the greatest double. -/
def toRat (x : Float) : ℚ := units x / unitsOfOne

theorem unitsOfOne_pos : 0 < unitsOfOne :=
  pow_pos two_pos unitPlaces

theorem toRat_mul_unitsOfOne (x : Float) : toRat x * unitsOfOne = units x :=
  div_mul_cancel₀ _ unitsOfOne_pos.ne'

theorem scaled_eq (x : ℚ) (e : ℤ) : scaled x e = x * 2 ^ e * unitsOfOne := by
  have hplaces : (1074 : ℤ) = unitPlaces := rfl
  rw [scaled, hplaces, zpow_add₀ two_ne_zero, zpow_natCast, ← mul_assoc, unitsOfOne]

/-- **A rounded result**: the number that is nearest to a rational one. -/
structure Rounds (x : Float) (q : ℚ) : Prop where
  /-- It is a number. -/
  isNaN : x.isNaN = false
  /-- Its units are the rounded ones. -/
  units : units x = rounded (q * unitsOfOne)

theorem rounds_zero (s : Sign) : Rounds (packed (.zero s)) 0 := by
  have hunits : units (packed (.zero s)) = 0 := by
    rw [units, decoded_packed]
    cases s <;> rfl
  refine ⟨?_, by rw [hunits, zero_mul, rounded_zero]⟩
  cases s <;> rfl

/-- Doubles need no rounding. -/
theorem rounds_toRat {x : Float} (hx : x.isNaN = false) : Rounds x (toRat x) :=
  ⟨hx, by rw [toRat_mul_unitsOfOne, rounded_units]⟩

/-! ### Magnitudes with a sign -/

/-- A magnitude with a sign. -/
def signed (s : Sign) (q : ℚ) : ℚ :=
  match s with
  | .negative => -q
  | .positive => q

theorem rounded_signed (s : Sign) {q : ℚ} (hq : 0 ≤ q) :
    rounded (signed s q) = s.apply (roundedMagnitude q) := by
  cases s with
  | positive => exact rounded_of_nonneg hq
  | negative =>
    rw [signed, rounded_neg, rounded_of_nonneg hq]
    rfl

theorem cast_apply (s : Sign) (n : ℤ) : ((s.apply n : ℤ) : ℚ) = signed s n := by
  cases s with
  | positive => rfl
  | negative => exact Int.cast_neg n

theorem signed_mul_right (s : Sign) (p q : ℚ) : signed s (p * q) = signed s p * q := by
  cases s with
  | positive => rfl
  | negative => exact (neg_mul p q).symm

theorem signed_mul (s t : Sign) (p q : ℚ) : signed (s * t) (p * q) = signed s p * signed t q := by
  cases s <;> cases t
  · exact (neg_mul_neg p q).symm
  · exact (neg_mul p q).symm
  · exact (mul_neg p q).symm
  · rfl

theorem signed_div (s t : Sign) (p q : ℚ) : signed (s / t) (p / q) = signed s p / signed t q := by
  cases s <;> cases t
  · exact (neg_div_neg_eq p q).symm
  · exact (neg_div' q p)
  · exact (div_neg p).symm
  · rfl

/-! ### Rounding mantissas -/

/-- **The magnitude on the grid**, packed, is the rounded result. -/
theorem IsRounding.rounds {s : Sign} {x : ℚ} {e : ℤ} {v : UnpackedFloat}
    (h : IsRounding s (onGrid (scaled x e)) v) (hx : 0 ≤ x) :
    Rounds (packed v) (signed s (x * 2 ^ e)) := by
  obtain ⟨hn, hunits⟩ := h.unpack_pack
  have hpos : 0 ≤ scaled x e := mul_nonneg hx (zpow_nonneg zero_le_two _)
  refine ⟨hn, ?_⟩
  rw [← signed_mul_right, ← scaled_eq, rounded_signed s hpos]
  exact hunits

theorem log2_shiftLeft {m : ℕ} (hm : 0 < m) (k : ℕ) : (m <<< k).log2 = m.log2 + k := by
  rw [Nat.shiftLeft_eq, Nat.log2_eq_iff (Nat.mul_pos hm (Nat.two_pow_pos k)).ne']
  constructor
  · rw [pow_add]
    exact Nat.mul_le_mul_right _ (Nat.log2_self_le hm.ne')
  · rw [Nat.add_right_comm, pow_add]
    exact Nat.mul_lt_mul_of_pos_right Nat.lt_log2_self (Nat.two_pow_pos k)

/-- A mantissa shifted to the left stands for the same number with a lower exponent. -/
theorem shiftLeft_mul_zpow (m k : ℕ) (e : ℤ) :
    ((m <<< k : ℕ) : ℚ) * 2 ^ (e - k) = m * 2 ^ e := by
  rw [Nat.shiftLeft_eq, Nat.cast_mul, Nat.cast_pow, Nat.cast_ofNat, mul_assoc, ← zpow_natCast,
    ← zpow_add₀ two_ne_zero, add_sub_cancel]

/-- **Rounding a mantissa**, whose exponent is first decreased if that is too great. -/
theorem rounds_round (s : Sign) {m : ℕ} (hm : 0 < m) (e : ℤ) :
    Rounds (packed (UnpackedFloat.round Format.binary64 s m e)) (signed s (m * 2 ^ e)) := by
  have htarget := targetExponent_eq m e
  set t := max ((m.log2 : ℤ) + e - 52) (-1074) with ht
  have hlog := log2_shiftLeft hm (e - t).toNat
  have hbits : 52 ≤ (m <<< (e - t).toNat).log2 ∨ e - (e - t).toNat ≤ -1074 := by omega
  have h := (isRounding_roundWithAccuracy s (describes_exact (m <<< (e - t).toNat)) hbits).rounds
    (Nat.cast_nonneg _)
  rw [shiftLeft_mul_zpow] at h
  simp only [UnpackedFloat.round, decreaseExponent, htarget]
  exact h

/-- **Rounding a signed mantissa.** -/
theorem rounds_normalize (z e : ℤ) :
    Rounds (packed (normalize Format.binary64 z e .positive)) (z * 2 ^ e) := by
  unfold UnpackedFloat.normalize
  rcases lt_trichotomy z 0 with h | rfl | h
  · have hround := rounds_round .negative (m := (-z).toNat) (by omega) e
    have hcast : (((-z).toNat : ℕ) : ℚ) = -z := by
      rw [← Int.cast_natCast, Int.toNat_of_nonneg (by omega), Int.cast_neg]
    rw [hcast, signed, neg_mul, neg_neg] at hround
    rw [compare_lt_iff_lt.mpr h]
    exact hround
  · rw [compare_eq_iff_eq.mpr rfl, Int.cast_zero, zero_mul]
    exact rounds_zero .positive
  · have hround := rounds_round .positive (m := z.toNat) (by omega) e
    have hcast : ((z.toNat : ℕ) : ℚ) = z := by
      rw [← Int.cast_natCast, Int.toNat_of_nonneg h.le]
    rw [hcast] at hround
    rw [compare_gt_iff_gt.mpr h]
    exact hround

/-! ### Finite doubles -/

theorem toRat_of_decoded {x : Float} {s : Sign} {m : ℕ} {e : ℤ} {hm : 0 < m}
    (h : decoded x = .finite s m e hm) : toRat x = signed s (m * 2 ^ e) := by
  rw [toRat, units, h, partUnits, cast_apply, Int.cast_natCast,
    ← scaled_eq_magnitudeUnits m (isCanonical_of_decoded h).ge, scaled_eq, signed_mul_right,
    mul_div_cancel_right₀ _ unitsOfOne_pos.ne']

/-- **A finite double** is a zero, or has a mantissa and an exponent within bounds. -/
theorem finite_cases {x : Float} (hx : x.isFinite = true) :
    (∃ s, decoded x = .zero s ∧ toRat x = 0) ∨
      ∃ s m e hm, decoded x = .finite s m e hm ∧ IsCanonical m e ∧
        toRat x = signed s (m * 2 ^ e) := by
  rw [isFinite_eq] at hx
  cases h : decoded x with
  | notANumber | infinity =>
    rw [h] at hx
    cases hx
  | zero s =>
    refine Or.inl ⟨s, rfl, ?_⟩
    rw [toRat, units, h, partUnits, Int.cast_zero, zero_div]
  | finite s m e hm =>
    exact Or.inr ⟨s, m, e, hm, rfl, isCanonical_of_decoded h, toRat_of_decoded h⟩

theorem isNaN_of_isFinite {x : Float} (hx : x.isFinite = true) : x.isNaN = false :=
  (isFinite_iff.mp hx).1

/-- The parts of a double, packed, give it back. -/
theorem packed_decoded (x : Float) : packed (decoded x) = x := by
  refine decoded_injective ?_
  rw [decoded_packed]
  cases h : decoded x with
  | notANumber => rfl
  | infinity s | zero s => cases s <;> rfl
  | finite s m e hm => exact unpack_pack (isCanonical_of_decoded h)

/-! ### Sums and differences -/

theorem add_eq_packed (x y : Float) :
    x + y = packed (UnpackedFloat.add Format.binary64 (decoded x) (decoded y)) := rfl

/-- A mantissa with its exponent decreased. -/
theorem decreaseExponent_mul_zpow (m : ℕ) {e e' : ℤ} (hle : e' ≤ e) :
    ((decreaseExponent m e e').1 : ℚ) * 2 ^ e' = m * 2 ^ e := by
  have hexp : e - ((e - e').toNat : ℕ) = e' := by omega
  have h := shiftLeft_mul_zpow m (e - e').toNat e
  rw [hexp] at h
  exact h

/-- **A sum of finite doubles** is the rounded one. -/
theorem rounds_add {x y : Float} (hx : x.isFinite = true) (hy : y.isFinite = true) :
    Rounds (x + y) (toRat x + toRat y) := by
  rw [add_eq_packed]
  rcases finite_cases hx with ⟨s, hs, hx0⟩ | ⟨s, m, e, hm, hd, -, hvx⟩
  · rw [hs, hx0, zero_add]
    rcases finite_cases hy with ⟨t, ht, hy0⟩ | ⟨t, m', e', hm', hd', -, -⟩
    · rw [ht, hy0]
      cases s <;> cases t <;> exact rounds_zero _
    · have hadd : UnpackedFloat.add Format.binary64 (.zero s) (.finite t m' e' hm') =
          .finite t m' e' hm' := rfl
      rw [hd', hadd, ← hd', packed_decoded]
      exact rounds_toRat (isNaN_of_isFinite hy)
  · rcases finite_cases hy with ⟨t, ht, hy0⟩ | ⟨t, m', e', hm', hd', -, hvy⟩
    · have hadd : UnpackedFloat.add Format.binary64 (.finite s m e hm) (.zero t) =
          .finite s m e hm := rfl
      rw [ht, hy0, add_zero, hd, hadd, ← hd, packed_decoded]
      exact rounds_toRat (isNaN_of_isFinite hx)
    · -- both mantissas are brought to the lower exponent and added there
      have h := rounds_normalize (s.apply (decreaseExponent m e (min e e')).1 +
        t.apply (decreaseExponent m' e' (min e e')).1) (min e e')
      rw [Int.cast_add, cast_apply, cast_apply, add_mul, ← signed_mul_right, ← signed_mul_right,
        Int.cast_natCast, Int.cast_natCast, decreaseExponent_mul_zpow m (min_le_left e e'),
        decreaseExponent_mul_zpow m' (min_le_right e e'), ← hvx, ← hvy] at h
      rw [hd, hd']
      exact h

/-- The parts of the negated double. -/
theorem decoded_neg (x : Float) : decoded (-x) = (decoded x).neg := by
  have hneg : -x = packed (decoded x).neg := rfl
  rw [hneg, decoded_packed]
  cases h : decoded x with
  | notANumber => rfl
  | infinity s | zero s => cases s <;> rfl
  | finite s m e hm => exact unpack_pack (isCanonical_of_decoded h)

theorem neg_apply (s : Sign) (n : ℤ) : (-s).apply n = -s.apply n := by
  cases s
  · exact (neg_neg n).symm
  · rfl

/-- **A difference is a sum** with the negated double. -/
theorem sub_eq_add (x y : Float) : x - y = x + -y := by
  rw [sub_eq_packed, add_eq_packed, decoded_neg]
  congr 1
  cases decoded x with
  | notANumber => cases decoded y <;> rfl
  | infinity s => cases decoded y <;> rfl
  | zero s => cases decoded y <;> rfl
  | finite s m e hm =>
    cases decoded y with
    | notANumber | infinity t | zero t => rfl
    | finite t m' e' hm' =>
      simp only [UnpackedFloat.sub, UnpackedFloat.add, UnpackedFloat.neg, neg_apply,
        ← Int.sub_eq_add_neg]

theorem isFinite_neg (x : Float) : (-x).isFinite = x.isFinite := by
  rw [isFinite_eq, isFinite_eq, decoded_neg]
  cases decoded x <;> rfl

theorem isNaN_neg (x : Float) : (-x).isNaN = x.isNaN := by
  rw [isNaN_eq, isNaN_eq, decoded_neg]
  cases decoded x <;> rfl

theorem units_neg (x : Float) : units (-x) = -units x := by
  rw [units, units, decoded_neg]
  cases decoded x with
  | notANumber | zero s => rfl
  | infinity s | finite s m e hm => exact neg_apply s _

theorem toRat_neg (x : Float) : toRat (-x) = -toRat x := by
  rw [toRat, units_neg, Int.cast_neg, neg_div, toRat]

/-- **A difference of finite doubles** is the rounded one. -/
theorem rounds_sub {x y : Float} (hx : x.isFinite = true) (hy : y.isFinite = true) :
    Rounds (x - y) (toRat x - toRat y) := by
  have h := rounds_add hx ((isFinite_neg y).trans hy)
  rwa [← sub_eq_add, toRat_neg, ← sub_eq_add_neg] at h

/-! ### Products -/

theorem mul_eq_packed (x y : Float) :
    x * y = packed (UnpackedFloat.mul Format.binary64 (decoded x) (decoded y)) := rfl

/-- A product has all bits that are needed, if one of the factors has. -/
theorem le_log2_mul {m m' : ℕ} {e e' : ℤ} (h : IsCanonical m e) (h' : IsCanonical m' e')
    (hm : 0 < m) (hm' : 0 < m') : 52 ≤ (m * m').log2 ∨ e + e' ≤ -1074 := by
  have hbits : fractions ≤ m * m' → 52 ≤ (m * m').log2 :=
    (Nat.le_log2 (Nat.mul_pos hm hm').ne').mpr
  rcases h.normal with hlarge | he
  · exact Or.inl (hbits (hlarge.trans (Nat.le_mul_of_pos_right m hm')))
  · rcases h'.normal with hlarge' | he'
    · exact Or.inl (hbits (hlarge'.trans (Nat.le_mul_of_pos_left m' hm)))
    · exact Or.inr (by omega)

/-- **A product of finite doubles** is the rounded one. -/
theorem rounds_mul {x y : Float} (hx : x.isFinite = true) (hy : y.isFinite = true) :
    Rounds (x * y) (toRat x * toRat y) := by
  rw [mul_eq_packed]
  rcases finite_cases hx with ⟨s, hs, hx0⟩ | ⟨s, m, e, hm, hd, hcan, hvx⟩
  · rw [hs, hx0, zero_mul]
    rcases finite_cases hy with ⟨t, ht, -⟩ | ⟨t, m', e', hm', hd', -, -⟩
    · rw [ht]
      exact rounds_zero _
    · rw [hd']
      exact rounds_zero _
  · rcases finite_cases hy with ⟨t, ht, hy0⟩ | ⟨t, m', e', hm', hd', hcan', hvy⟩
    · rw [ht, hy0, mul_zero, hd]
      exact rounds_zero _
    · have h := (isRounding_roundWithAccuracy (s * t) (describes_exact (m * m'))
        (le_log2_mul hcan hcan' hm hm')).rounds (Nat.cast_nonneg _)
      rw [Nat.cast_mul, zpow_add₀ two_ne_zero, mul_mul_mul_comm, signed_mul, ← hvx, ← hvy] at h
      rw [hd, hd']
      exact h

/-! ### Quotients -/

theorem div_eq_packed (x y : Float) :
    x / y = packed (UnpackedFloat.div Format.binary64 (decoded x) (decoded y)) := rfl

/-- The dividend is shifted to the left until the quotient has all bits of a double, or until
its exponent is low enough. -/
theorem divCore_eq {m m' : ℕ} (hm : 0 < m) (hm' : 0 < m') (e e' : ℤ) :
    ∃ k : ℕ, divCore Format.binary64 m e m' e' =
        ((m <<< k) / m', e - e' - k, accuracyOfFraction ((m <<< k) % m') m') ∧
      (52 ≤ ((m <<< k) / m').log2 ∨ e - e' - k ≤ -1074) := by
  have htarget : Format.binary64.targetExponent (totalExponent m e - totalExponent m' e') =
      max ((m.log2 : ℤ) + e - (m'.log2 + e') - 53) (-1074) := by
    have hbits : (Format.binary64.mantissaBits : ℤ) = 53 := rfl
    have hleast : Format.binary64.minExponent = -1074 := rfl
    rw [Format.targetExponent, totalExponent, totalExponent, hbits, hleast]
    congr 2
    ring
  set t := min (e - e') (max ((m.log2 : ℤ) + e - (m'.log2 + e') - 53) (-1074)) with ht
  have hexp : e - e' - ((e - e' - t).toNat : ℕ) = t := by omega
  refine ⟨(e - e' - t).toNat, ?_, ?_⟩
  · rw [hexp, divCore, htarget]
  · rw [hexp]
    by_cases hlow : t ≤ -1074
    · exact Or.inr hlow
    · -- the dividend has fifty-three bits more than the divisor
      have hlog : m'.log2 + 53 ≤ (m <<< (e - e' - t).toNat).log2 := by
        rw [log2_shiftLeft hm]
        omega
      have hpos : 0 < m <<< (e - e' - t).toNat := by
        rw [Nat.shiftLeft_eq]
        exact Nat.mul_pos hm (Nat.two_pow_pos _)
      have hle : 2 ^ 52 * m' ≤ m <<< (e - e' - t).toNat :=
        calc 2 ^ 52 * m' ≤ 2 ^ 52 * 2 ^ (m'.log2 + 1) :=
              Nat.mul_le_mul_left _ Nat.lt_log2_self.le
          _ = 2 ^ (m'.log2 + 53) := by
              rw [← pow_add]
              congr 1
              omega
          _ ≤ m <<< (e - e' - t).toNat := (Nat.le_log2 hpos.ne').mp hlog
      have hquotient := (Nat.le_div_iff_mul_le hm').mpr hle
      exact Or.inl ((Nat.le_log2 (Nat.lt_of_lt_of_le (Nat.two_pow_pos _) hquotient).ne').mpr
        hquotient)

/-- **A quotient of finite doubles** is the rounded one, unless the divisor is a zero. -/
theorem rounds_div {x y : Float} (hx : x.isFinite = true) (hy : y.isFinite = true)
    (hy0 : toRat y ≠ 0) : Rounds (x / y) (toRat x / toRat y) := by
  rw [div_eq_packed]
  rcases finite_cases hy with ⟨t, -, hzero⟩ | ⟨t, m', e', hm', hd', hcan', hvy⟩
  · exact absurd hzero hy0
  · rcases finite_cases hx with ⟨s, hs, hx0⟩ | ⟨s, m, e, hm, hd, hcan, hvx⟩
    · rw [hs, hx0, zero_div, hd']
      exact rounds_zero _
    · obtain ⟨k, hcore, hbits⟩ := divCore_eq hm hm' e e'
      have h := (isRounding_roundWithAccuracy (s / t) (describes_quotient (m <<< k) hm')
        hbits).rounds (div_nonneg (Nat.cast_nonneg _) (Nat.cast_nonneg _))
      have hvalue : ((m <<< k : ℕ) : ℚ) / m' * 2 ^ (e - e' - k) = m * 2 ^ e / (m' * 2 ^ e') := by
        rw [div_mul_eq_mul_div, shiftLeft_mul_zpow, zpow_sub₀ two_ne_zero, ← mul_div_assoc,
          div_div, mul_comm (2 ^ e')]
      rw [hvalue, signed_div, ← hvx, ← hvy] at h
      rw [hd, hd']
      simp only [UnpackedFloat.div, hcore]
      exact h

/-! ### Natural numbers -/

/-- Natural numbers of fifty-three bits are doubles. -/
theorem Rounds.toRat_natCast {x : Float} {n : ℕ} (h : Rounds x n) (hn : n < 2 ^ 53) :
    x.isFinite = true ∧ toRat x = n := by
  have hlt : n * 2 ^ unitPlaces < infiniteUnits := by
    rw [infiniteUnits_eq]
    have hpow : 2 ^ unitPlaces ≤ 2 ^ lastGrid := by
      gcongr
      · exact one_le_two
      · decide
    exact Nat.mul_lt_mul_of_lt_of_le hn hpow (pow_pos two_pos lastGrid)
  have hunits := h.units
  have hcast : (n : ℚ) * unitsOfOne = (n * 2 ^ unitPlaces : ℕ) := by
    rw [unitsOfOne, Nat.cast_mul, Nat.cast_pow, Nat.cast_ofNat]
  rw [hcast, rounded_of_nonneg (Nat.cast_nonneg _), roundedMagnitude_magnitude hn hlt.le] at hunits
  constructor
  · refine isFinite_iff.mpr ⟨h.isNaN, ?_, ?_⟩ <;> omega
  · rw [toRat, hunits, Int.cast_natCast, ← hcast, mul_div_cancel_right₀ _ unitsOfOne_pos.ne']

theorem rounds_ofUInt64 (n : UInt64) : Rounds n.toFloat n.toNat := by
  have h := rounds_normalize n.toNat 0
  rw [zpow_zero, mul_one, Int.cast_natCast] at h
  exact h

theorem toRat_one : toRat (Float.ofBits 0x3FF0000000000000) = 1 := by
  have hd : decoded (Float.ofBits 0x3FF0000000000000) =
      .finite .positive fractions (-52) (by simp [fractions]) := rfl
  rw [toRat_of_decoded hd, signed, fractions]
  norm_num

/-- A natural number that does not fit into fifty-three bits is rounded as a product with the
power of ten that is one. -/
theorem ofScientific_zero {n : ℕ} (hn : 0 < n) :
    UnpackedFloat.ofScientific Format.binary64 n 0 =
      roundWithAccuracy Format.binary64 .positive (n <<< 53 * 10 ^ 0) (-53 + 0) .exact := by
  have hhigh : ¬(0 : ℤ) > 2 ^ Format.binary64.exponentBits := by decide
  have hlow : ¬(0 : ℤ) < -((2 ^ Format.binary64.exponentBits : ℤ) + n.log2) := by
    have hbits : (2 : ℤ) ^ Format.binary64.exponentBits = 2048 := rfl
    omega
  rw [UnpackedFloat.ofScientific, dif_neg hn.ne', if_neg hhigh, if_neg hlow, if_pos le_rfl]
  rfl

/-- **A natural number as a double** is the rounded one. -/
theorem rounds_toFloat (n : ℕ) : Rounds n.toFloat n := by
  change Rounds (Float.ofScientific n false 0) n
  unfold Float.ofScientific
  split
  · next h =>
    -- a number that needs no rounding, times one
    have hround := rounds_ofUInt64 n.toUInt64
    have hnat : n.toUInt64.toNat = n := Nat.mod_eq_of_lt (lt_trans h.1 (by norm_num))
    rw [hnat] at hround
    obtain ⟨hfinite, hvalue⟩ := hround.toRat_natCast h.1
    have hmul := rounds_mul hfinite (y := Float.ofBits 0x3FF0000000000000) rfl
    rw [hvalue, toRat_one, mul_one] at hmul
    exact hmul
  · next h =>
    have hn : 0 < n := by omega
    change Rounds (packed (UnpackedFloat.ofScientific Format.binary64 n 0)) n
    rw [ofScientific_zero hn, pow_zero, mul_one, add_zero]
    have hbits : 52 ≤ (n <<< 53).log2 ∨ (-53 : ℤ) ≤ -1074 := by
      rw [log2_shiftLeft hn]
      omega
    have hround := IsRounding.rounds
      (isRounding_roundWithAccuracy .positive (describes_exact (n <<< 53)) hbits)
      (Nat.cast_nonneg _)
    have hvalue := shiftLeft_mul_zpow n 53 0
    rw [Nat.cast_ofNat, zero_sub, zpow_zero, mul_one] at hvalue
    rw [hvalue] at hround
    exact hround

theorem toRat_toFloat {n : ℕ} (hn : n < 2 ^ 53) : toRat n.toFloat = n :=
  ((rounds_toFloat n).toRat_natCast hn).2

/-! ### The order of values -/

theorem lt_iff_toRat {x y : Float} (hx : x.isNaN = false) (hy : y.isNaN = false) :
    x < y ↔ toRat x < toRat y := by
  rw [lt_iff, and_iff_right hx, and_iff_right hy, toRat, toRat,
    div_lt_div_iff_of_pos_right unitsOfOne_pos, Int.cast_lt]

theorem le_iff_toRat {x y : Float} (hx : x.isNaN = false) (hy : y.isNaN = false) :
    x ≤ y ↔ toRat x ≤ toRat y := by
  rw [le_iff, and_iff_right hx, and_iff_right hy, toRat, toRat,
    div_le_div_iff_of_pos_right unitsOfOne_pos, Int.cast_le]

theorem beq_iff_toRat {x y : Float} (hx : x.isNaN = false) (hy : y.isNaN = false) :
    (x == y) = true ↔ toRat x = toRat y := by
  have hbeq : (x == y) = ((decoded x).compare (decoded y) == some .eq) := rfl
  rw [hbeq, compare_decoded hx hy, beq_iff_eq, Option.some_inj, compare_eq_iff_eq, toRat, toRat,
    div_left_inj' unitsOfOne_pos.ne', Int.cast_inj]

theorem toRat_zero : toRat 0.0 = 0 := by
  rw [toRat, units_zero, Int.cast_zero, zero_div]

theorem toRat_nonneg {x : Float} (h : 0.0 ≤ x) : 0 ≤ toRat x := by
  rw [← toRat_zero]
  exact (le_iff_toRat rfl (le_iff.mp h).2.1).mp h

theorem toRat_pos {x : Float} (h : 0.0 < x) : 0 < toRat x := by
  rw [← toRat_zero]
  exact (lt_iff_toRat rfl (lt_iff.mp h).2.1).mp h

/-- **Rounding keeps the order.** -/
theorem Rounds.toRat_le {x y : Float} {p q : ℚ} (hx : Rounds x p) (hy : Rounds y q)
    (h : p ≤ q) : toRat x ≤ toRat y := by
  rw [toRat, toRat, div_le_div_iff_of_pos_right unitsOfOne_pos, Int.cast_le, hx.units, hy.units]
  exact rounded_mono (mul_le_mul_of_nonneg_right h unitsOfOne_pos.le)

theorem Rounds.toRat_nonneg {x : Float} {q : ℚ} (h : Rounds x q) (hq : 0 ≤ q) : 0 ≤ toRat x := by
  have hunits := rounded_nonneg (mul_nonneg hq unitsOfOne_pos.le)
  rw [← h.units] at hunits
  exact div_nonneg (Int.cast_nonneg hunits) unitsOfOne_pos.le

/-- **What is not rounded to zero**: more than half a unit. -/
theorem Rounds.toRat_pos_iff {x : Float} {q : ℚ} (h : Rounds x q) (hq : 0 ≤ q) :
    0 < toRat x ↔ 1 / 2 < q * unitsOfOne := by
  have hu := mul_nonneg hq unitsOfOne_pos.le
  rw [toRat, div_pos_iff_of_pos_right unitsOfOne_pos, Int.cast_pos, h.units,
    (rounded_nonneg hu).lt_iff_ne', Ne, rounded_eq_zero_iff hu, ← lt_iff_not_ge]

/-- What is at least one unit is not rounded to zero. -/
theorem Rounds.toRat_pos {x : Float} {q : ℚ} (h : Rounds x q) (hq : 1 ≤ q * unitsOfOne) :
    0 < toRat x := by
  have hpos := (mul_pos_iff_of_pos_right unitsOfOne_pos).mp (one_pos.trans_le hq)
  exact (h.toRat_pos_iff hpos.le).mpr (by linarith)

/-- A natural number other than zero counts at least one. -/
theorem one_le_toRat_toFloat {n : ℕ} (hn : 0 < n) : 1 ≤ toRat n.toFloat := by
  have hone : toRat (1 : ℕ).toFloat = 1 := by
    rw [toRat_toFloat (by norm_num), Nat.cast_one]
  rw [← hone]
  exact (rounds_toFloat 1).toRat_le (rounds_toFloat n) (by exact_mod_cast hn)

end MixedWorkload.Binary64

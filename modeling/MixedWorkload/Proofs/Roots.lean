import Mathlib.Analysis.SpecialFunctions.Log.Deriv
import Mathlib.Analysis.SpecialFunctions.Pow.Real
import Mathlib.Analysis.Complex.ExponentialBounds
import MixedWorkload.Proofs.Binary64.Products

/-!
# Roots by a power function

The `n`-th root of a double is its power with the exponent `1 / n`, where both the degree and
its reciprocal are rounded. The power function is that of the mathematical library, and two
things are asked of it.

* `MixedWorkload.IsPower` is about which powers are finite, and all that is needed to say when a
  root is (`MixedWorkload.IsPower.isFinite_iff`).
* `MixedWorkload.IsAccuratePower` is about their values. A root is then accurate to the
  digits that the power is, since the exponent is off by so little that it does not matter:
  `MixedWorkload.IsAccuratePower.root` says so in the logarithm. There is such a function,
  `MixedWorkload.nearestPower`.
-/

namespace MixedWorkload

open Binary64

open Float.Model (Format UnpackedFloat)

/-! ### When a root is finite -/

/-- **A power function**, as far as it is used for roots: what the mathematical library promises
of powers with a positive exponent up to one. -/
structure IsPower (power : Float → Float → Float) : Prop where
  /-- The first power of a double is the double. -/
  one : ∀ x, power x 1.0 = x
  /-- A root of a finite double that is not negative is finite. -/
  isFinite_root : ∀ {x y}, x.isFinite = true → 0.0 ≤ x → 0.0 < y → y ≤ 1.0 →
    (power x y).isFinite = true
  /-- A negative double has no root that is a number. -/
  isNaN_root : ∀ {x y}, x.isFinite = true → x < 0.0 → 0.0 < y → y < 1.0 →
    (power x y).isNaN = true
  /-- What is not finite has no finite root. -/
  not_isFinite_root : ∀ {x y}, x.isFinite = false → 0.0 < y → (power x y).isFinite = false

/-- The exponent of a root: positive, and less than one unless the root is the first. -/
theorem exponent_cases {n : ℕ} (hn : 0 < n) (hfinite : n.toFloat.isFinite = true) :
    0.0 < 1.0 / n.toFloat ∧ (n ≠ 1 → 1.0 / n.toFloat < 1.0) := by
  obtain ⟨hone, hone_eq⟩ : (1.0 : Float).isFinite = true ∧ toRat 1.0 = 1 :=
    (rounds_toFloat 1).toRat_natCast (by norm_num)
  have hcount := one_le_toRat_toFloat hn
  have hround := rounds_div hone hfinite (by linarith)
  rw [hone_eq] at hround
  constructor
  · -- the reciprocal of the greatest double is more than one unit
    rw [lt_iff_toRat rfl hround.isNaN, toRat_zero]
    refine hround.toRat_pos ?_
    rw [one_div, inv_mul_eq_div, one_le_div (by linarith)]
    have hfits := (le_abs_self _).trans_lt (fits_toRat hfinite)
    have hpow : (2 : ℚ) ^ 1024 ≤ unitsOfOne := pow_le_pow_right₀ one_le_two (by decide)
    exact (hfits.le.trans (sub_le_self _ (pow_nonneg two_pos.le 970))).trans hpow
  · intro hne
    obtain ⟨htwo, htwo_eq⟩ := (rounds_toFloat 2).toRat_natCast (by norm_num)
    rw [Nat.cast_ofNat] at htwo_eq
    have hhalf := rounds_div hone htwo (by rw [htwo_eq]; exact two_ne_zero)
    rw [hone_eq, htwo_eq] at hhalf
    have hlt : 1.0 / (2 : ℕ).toFloat < 1.0 := by decide +kernel
    rw [lt_iff_toRat hhalf.isNaN rfl] at hlt
    rw [lt_iff_toRat hround.isNaN rfl]
    refine lt_of_le_of_lt (hround.toRat_le hhalf ?_) hlt
    have htwo_le : 2 ≤ n := by omega
    have hge := (rounds_toFloat 2).toRat_le (rounds_toFloat n) (by exact_mod_cast htwo_le)
    rw [htwo_eq] at hge
    exact one_div_le_one_div_of_le two_pos hge

namespace IsPower

variable {power : Float → Float → Float} (h : IsPower power)

include h

/-- **When a root is finite.** -/
theorem isFinite_iff {x : Float} {n : ℕ} (hn : 0 < n) (hfinite : n.toFloat.isFinite = true) :
    (power x (1.0 / n.toFloat)).isFinite = true ↔ x.isFinite = true ∧ (0.0 ≤ x ∨ n = 1) := by
  obtain ⟨hpos, hlt⟩ := exponent_cases hn hfinite
  by_cases hx : x.isFinite = true
  · rw [and_iff_right hx]
    by_cases hn1 : n = 1
    · subst hn1
      have hexponent : 1.0 / (1 : ℕ).toFloat = 1.0 := by decide +kernel
      rw [hexponent, h.one]
      exact iff_of_true hx (Or.inr rfl)
    · rw [or_iff_left hn1]
      have hlt := hlt hn1
      constructor
      · intro hroot
        by_contra hneg
        have hneg' := (not_le rfl (isNaN_of_isFinite hx)).mp hneg
        have hnan := h.isNaN_root hx hneg' hpos hlt
        rw [isNaN_of_isFinite hroot] at hnan
        cases hnan
      · intro hnonneg
        exact h.isFinite_root hx hnonneg hpos (le_of_less hlt)
  · rw [Bool.not_eq_true] at hx
    rw [hx, h.not_isFinite_root hx hpos]
    exact ⟨fun hroot => absurd hroot Bool.false_ne_true, fun hbase => absurd hbase.1
      Bool.false_ne_true⟩

end IsPower

/-! ### The exponent -/

/-- A degree is not far from its double, and the reciprocal of this is a normal number. -/
theorem degree_bounds {n : ℕ} (hn : 0 < n) (hlt : n < 2 ^ 64) :
    |toRat n.toFloat - n| ≤ n / 2 ^ 53 ∧ 1 ≤ toRat n.toFloat ∧ toRat n.toFloat ≤ 2 ^ 1022 := by
  have hone : (1 : ℚ) ≤ n := by exact_mod_cast hn
  have hword : (n : ℚ) ≤ 2 ^ 64 := by exact_mod_cast hlt.le
  have hnormal : (1 : ℚ) / 2 ^ 1022 ≤ n :=
    (div_le_one_of_le₀ (one_le_pow₀ one_le_two) (by positivity)).trans hone
  have herror := (rounds_toFloat n).abs_toRat_sub_le_of_normal (isFinite_toFloat_of_lt hlt) hnormal
  refine ⟨herror, one_le_toRat_toFloat hn, ?_⟩
  have hhigh := sub_le_iff_le_add'.mp (le_of_abs_le herror)
  have hpart : (n : ℚ) / 2 ^ 53 ≤ n := div_le_self (by positivity) (by norm_num)
  calc toRat n.toFloat ≤ 2 ^ 64 + 2 ^ 64 := by linarith
    _ = 2 ^ 65 := by norm_num
    _ ≤ 2 ^ 1022 := pow_le_pow_right₀ one_le_two (by norm_num)

/-- **The exponent of a root** is the reciprocal of the degree, up to two roundings. -/
theorem abs_exponent_sub_le {n : ℕ} (hn : 0 < n) (hlt : n < 2 ^ 64) :
    |toRat (1.0 / n.toFloat) - 1 / n| ≤ 1 / 2 ^ 52 := by
  obtain ⟨hdegree, hcount, hhigh⟩ := degree_bounds hn hlt
  have hfinite := isFinite_toFloat_of_lt hlt
  have hround := rounds_div isPositive_one.isFinite hfinite (by linarith)
  rw [toRat_one_literal] at hround
  have hpos : 0 < toRat n.toFloat := by linarith
  have hn' : (0 : ℚ) < n := by exact_mod_cast hn
  have hinv : 1 / toRat n.toFloat ≤ 1 := div_le_one_of_le₀ hcount hpos.le
  -- the reciprocal is rounded
  have hquotient : |toRat (1.0 / n.toFloat) - 1 / toRat n.toFloat| ≤ 1 / 2 ^ 53 := by
    have hnormal : 1 / 2 ^ 1022 ≤ 1 / toRat n.toFloat := one_div_le_one_div_of_le hpos hhigh
    have hfits : (1.0 / n.toFloat).isFinite = true := by
      refine hround.isFinite_iff.mpr ((fits_toRat isPositive_one.isFinite).of_abs_le ?_)
      rw [toRat_one_literal, abs_of_pos (by positivity), abs_one]
      exact hinv
    refine (hround.abs_toRat_sub_le_of_normal hfits hnormal).trans ?_
    gcongr
  -- the degree was rounded before
  have hreciprocal : |1 / toRat n.toFloat - 1 / n| ≤ 1 / 2 ^ 53 := by
    rw [one_div (toRat _), one_div (n : ℚ), inv_sub_inv hpos.ne' hn'.ne', abs_div, abs_sub_comm,
      abs_of_pos (mul_pos hpos hn'), div_le_iff₀ (mul_pos hpos hn')]
    refine hdegree.trans ?_
    rw [one_div_mul_eq_div]
    gcongr
    exact le_mul_of_one_le_left hn'.le hcount
  calc |toRat (1.0 / n.toFloat) - 1 / n|
      ≤ |toRat (1.0 / n.toFloat) - 1 / toRat n.toFloat| + |1 / toRat n.toFloat - 1 / n| :=
        abs_sub_le _ _ _
    _ ≤ 1 / 2 ^ 53 + 1 / 2 ^ 53 := add_le_add hquotient hreciprocal
    _ = 1 / 2 ^ 52 := by norm_num

/-- The exponent of the first root. -/
theorem exponent_one : 1.0 / (1 : ℕ).toFloat = 1.0 := by decide +kernel

/-- The exponent of a root is at most one. -/
theorem exponent_le_one {n : ℕ} (hn : 0 < n) (hfinite : n.toFloat.isFinite = true) :
    1.0 / n.toFloat ≤ 1.0 := by
  by_cases hn1 : n = 1
  · rw [hn1, exponent_one]
    decide +kernel
  · exact le_of_less ((exponent_cases hn hfinite).2 hn1)

/-! ### Accurate powers -/

/-- **An accurate power function**, as far as it is used for roots of positive numbers. -/
structure IsAccuratePower (power : Float → Float → Float) : Prop where
  /-- The first power of a double is the double. -/
  one : ∀ x, power x 1.0 = x
  /-- The powers of zero are zero. -/
  zero : ∀ {y}, 0.0 < y → power 0.0 y = 0.0
  /-- The powers of infinity are infinite. -/
  infinity : ∀ {y}, 0.0 < y → power infinity y = infinity
  /-- A root is accurate to ten digits, if it is at least the least normal double. -/
  accurate : ∀ {x y}, IsPositive x → 0.0 < y → y ≤ 1.0 →
    1 / 2 ^ 1022 ≤ (toRat x : ℝ) ^ (toRat y : ℝ) →
    (power x y).isFinite = true ∧
      |toRat (power x y) - (toRat x : ℝ) ^ (toRat y : ℝ)| ≤
        (toRat x : ℝ) ^ (toRat y : ℝ) * (1 / 10 ^ 10)

/-- The logarithms of positive doubles are bounded. -/
theorem abs_logValue_le {x : Float} (hx : IsPositive x) : |logValue x| ≤ 1074 * Real.log 2 := by
  have hpos : (0 : ℝ) < toRat x := by exact_mod_cast hx.toRat_pos
  have hlog := Real.log_pos one_lt_two
  have hlow := (Rat.cast_le (K := ℝ)).mpr (le_toRat_of_pos hx.toRat_pos)
  have hhigh : (toRat x : ℝ) ≤ 2 ^ 1074 := by
    have hfits := (le_abs_self _).trans (le_of_lt (fits_toRat hx.isFinite))
    have hle : toRat x ≤ 2 ^ 1074 :=
      (hfits.trans (sub_le_self _ (by positivity))).trans
        (pow_le_pow_right₀ one_le_two (by norm_num))
    exact_mod_cast hle
  have hlow' := Real.log_le_log (by push_cast; positivity) hlow
  have hhigh' := Real.log_le_log hpos hhigh
  rw [Rat.cast_div, Rat.cast_one, Rat.cast_pow, Rat.cast_ofNat, one_div, Real.log_inv,
    Real.log_pow] at hlow'
  rw [Real.log_pow] at hhigh'
  rw [abs_le, logValue]
  exact ⟨by exact_mod_cast hlow', by exact_mod_cast hhigh'⟩

/-- The logarithm of an exact power. -/
theorem log_rpow_toRat {x : Float} (hx : IsPositive x) (y : Float) :
    Real.log ((toRat x : ℝ) ^ (toRat y : ℝ)) = logValue x * toRat y := by
  rw [Real.log_rpow (by exact_mod_cast hx.toRat_pos), mul_comm, logValue]

/-- **What the rounding of the exponent changes.** -/
theorem abs_logValue_mul_exponent_sub_le {x : Float} (hx : IsPositive x) {n : ℕ} (hn : 0 < n)
    (hlt : n < 2 ^ 64) :
    |logValue x * toRat (1.0 / n.toFloat) - logValue x / n| ≤ 1 / 10 ^ 10 := by
  have hbound := abs_logValue_le hx
  have hlog := Real.log_two_lt_d9
  have hlog_pos := Real.log_pos one_lt_two
  have hreal := (Rat.cast_le (K := ℝ)).mpr (abs_exponent_sub_le hn hlt)
  push_cast at hreal
  rw [← mul_one_div, ← mul_sub, abs_mul]
  calc |logValue x| * |(toRat (1.0 / n.toFloat) : ℝ) - 1 / n|
      ≤ 1074 * Real.log 2 * (1 / 2 ^ 52) := mul_le_mul hbound hreal (abs_nonneg _) (by positivity)
    _ ≤ 1 / 10 ^ 10 := by
        norm_num
        linarith

/-- **Roots are far from the least doubles**, but for the first root. -/
theorem le_rpow_exponent {x : Float} (hx : IsPositive x) {n : ℕ} (htwo : 2 ≤ n)
    (hlt : n < 2 ^ 64) : 1 / 2 ^ 1022 ≤ (toRat x : ℝ) ^ (toRat (1.0 / n.toFloat) : ℝ) := by
  have hbase : (0 : ℝ) < toRat x := by exact_mod_cast hx.toRat_pos
  have hdegree : (2 : ℝ) ≤ n := by exact_mod_cast htwo
  have hroot : |logValue x / n| ≤ 537 * Real.log 2 := by
    have hlog_pos := Real.log_pos one_lt_two
    have hhalf : 1074 * Real.log 2 = 537 * Real.log 2 * 2 := by ring
    rw [abs_div, Nat.abs_cast, div_le_iff₀ (by linarith)]
    refine (abs_logValue_le hx).trans ?_
    rw [hhalf]
    gcongr
  have hroot_low := (abs_le.mp hroot).1
  have hexponent_low := (abs_le.mp (abs_logValue_mul_exponent_sub_le hx (by omega) hlt)).1
  rw [← Real.log_le_log_iff (by positivity) (Real.rpow_pos_of_pos hbase _), log_rpow_toRat hx,
    one_div, Real.log_inv, Real.log_pow]
  push_cast
  linarith [Real.log_two_gt_d9]

namespace IsAccuratePower

variable {power : Float → Float → Float} (h : IsAccuratePower power)

include h

/-- **A root of a positive double** is positive, and accurate in the logarithm. -/
theorem root {x : Float} (hx : IsPositive x) {n : ℕ} (hn : 0 < n) (hlt : n < 2 ^ 64) :
    IsPositive (power x (1.0 / n.toFloat)) ∧
      |logValue (power x (1.0 / n.toFloat)) - logValue x / n| ≤ 3 / 10 ^ 10 := by
  by_cases hn1 : n = 1
  · rw [hn1, exponent_one, h.one, Nat.cast_one, div_one, sub_self, abs_zero]
    exact ⟨hx, by positivity⟩
  have hfinite := isFinite_toFloat_of_lt hlt
  obtain ⟨hpos, -⟩ := exponent_cases hn hfinite
  have hle := exponent_le_one hn hfinite
  have hexponent := abs_logValue_mul_exponent_sub_le hx hn hlt
  have hexact := le_rpow_exponent hx (by omega) hlt
  generalize 1.0 / n.toFloat = y at *
  have hexact_pos : (0 : ℝ) < (toRat x : ℝ) ^ (toRat y : ℝ) :=
    Real.rpow_pos_of_pos (by exact_mod_cast hx.toRat_pos) _
  obtain ⟨hroot_finite, herror⟩ := h.accurate hx hpos hle hexact
  have hroot_pos : (0 : ℝ) < toRat (power x y) := by
    have hlow := (abs_le.mp herror).1
    linarith
  refine ⟨isPositive_iff.mpr ⟨hroot_finite, by exact_mod_cast hroot_pos⟩, ?_⟩
  have hdigits := abs_log_sub_log_le hexact_pos (by norm_num) (by norm_num) herror
  rw [log_rpow_toRat hx] at hdigits
  calc |logValue (power x y) - logValue x / n|
      ≤ |logValue (power x y) - logValue x * toRat y| +
          |logValue x * toRat y - logValue x / n| := abs_sub_le _ _ _
    _ ≤ 2 * (1 / 10 ^ 10) + 1 / 10 ^ 10 := add_le_add hdigits hexponent
    _ = 3 / 10 ^ 10 := by norm_num

end IsAccuratePower

/-! ### The nearest power -/

open Classical in
/-- The double nearest to a power of a positive double, by way of so many binary places that it
makes no difference. Zero and infinity stay what they are. -/
noncomputable def nearestPower (x y : Float) : Float :=
  if y = 1.0 ∨ ¬IsPositive x then x
  else packed (UnpackedFloat.normalize Format.binary64
    ⌊(toRat x : ℝ) ^ (toRat y : ℝ) * 2 ^ 1200⌋ (-1200) .positive)

/-- What is left of a positive number when its binary places are cut off. -/
theorem floor_places_bounds {r : ℝ} (hr : 1 / 2 ^ 1022 ≤ r) :
    ((⌊r * 2 ^ 1200⌋ * 2 ^ (-1200 : ℤ) : ℚ) : ℝ) ≤ r ∧
      r - r / 2 ^ 53 ≤ ((⌊r * 2 ^ 1200⌋ * 2 ^ (-1200 : ℤ) : ℚ) : ℝ) ∧
      (1 : ℚ) / 2 ^ 1022 ≤ ⌊r * 2 ^ 1200⌋ * 2 ^ (-1200 : ℤ) := by
  have hsplit : (2 : ℝ) ^ 1200 = 2 ^ 178 * 2 ^ 1022 := by rw [← pow_add]
  have hlarge : (2 : ℝ) ^ 178 ≤ r * 2 ^ 1200 := by
    calc (2 : ℝ) ^ 178 = 1 / 2 ^ 1022 * 2 ^ 1200 := by
          rw [hsplit, one_div_mul_eq_div, mul_div_cancel_right₀ _ (by positivity)]
      _ ≤ r * 2 ^ 1200 := by gcongr
  have hcast : ((⌊r * 2 ^ 1200⌋ * 2 ^ (-1200 : ℤ) : ℚ) : ℝ) = ⌊r * 2 ^ 1200⌋ / 2 ^ 1200 := by
    rw [Rat.cast_mul, Rat.cast_intCast, Rat.cast_zpow, Rat.cast_ofNat, zpow_neg, zpow_ofNat,
      div_eq_mul_inv]
  have hplaces : (0 : ℝ) < 2 ^ 1200 := by positivity
  have hfloor := Int.floor_le (r * 2 ^ 1200)
  have hnext := Int.lt_floor_add_one (r * 2 ^ 1200)
  refine ⟨?_, ?_, ?_⟩
  · rwa [hcast, div_le_iff₀ hplaces]
  · have hpart : (1 : ℝ) ≤ r * 2 ^ 1200 / 2 ^ 53 := by
      rw [one_le_div (by positivity)]
      exact (pow_le_pow_right₀ one_le_two (by norm_num)).trans hlarge
    rw [hcast, le_div_iff₀ hplaces, sub_mul, div_mul_eq_mul_div]
    generalize r * 2 ^ 1200 = v at *
    linarith
  · have hint : (2 : ℤ) ^ 178 ≤ ⌊r * 2 ^ 1200⌋ := Int.le_floor.mpr (by exact_mod_cast hlarge)
    have hrat : (2 : ℚ) ^ 178 ≤ ⌊r * 2 ^ 1200⌋ := by exact_mod_cast hint
    have hsplit' : (2 : ℚ) ^ 1200 = 2 ^ 178 * 2 ^ 1022 := by rw [← pow_add]
    rw [zpow_neg, zpow_ofNat, ← div_eq_mul_inv, div_le_div_iff₀ (by positivity) (by positivity),
      one_mul, hsplit']
    gcongr

/-- A power with an exponent up to one is not more than the base, or one. -/
theorem rpow_le_max {x y : ℝ} (hx : 0 < x) (hy : 0 ≤ y) (hle : y ≤ 1) : x ^ y ≤ max x 1 := by
  rcases le_total x 1 with h | h
  · exact le_max_of_le_right (Real.rpow_le_one hx.le h hy)
  · refine le_max_of_le_left ?_
    exact (Real.rpow_le_rpow_of_exponent_le h hle).trans_eq (Real.rpow_one x)

/-- **The nearest power is accurate.** -/
theorem isAccuratePower_nearestPower : IsAccuratePower nearestPower where
  one x := if_pos (Or.inl rfl)
  zero _ := if_pos (Or.inr fun h => absurd h.pos (by decide))
  infinity _ := if_pos (Or.inr fun h => absurd h.isFinite (by decide))
  accurate := by
    intro x y hx hy hle hexact
    have hbase : (0 : ℝ) < toRat x := by exact_mod_cast hx.toRat_pos
    by_cases hy1 : y = 1.0
    · rw [nearestPower, if_pos (Or.inl hy1), hy1, toRat_one_literal, Rat.cast_one, Real.rpow_one,
        sub_self, abs_zero]
      exact ⟨hx.isFinite, by positivity⟩
    · rw [nearestPower, if_neg (not_or_intro hy1 (not_not_intro hx))]
      have hmax : (toRat x : ℝ) ^ (toRat y : ℝ) ≤ max (toRat x : ℝ) 1 := by
        refine rpow_le_max hbase (by exact_mod_cast (toRat_pos hy).le) ?_
        rw [le_iff_toRat (lt_iff.mp hy).2.1 rfl, toRat_one_literal] at hle
        exact_mod_cast hle
      obtain ⟨hhigh, hlow, hnormal⟩ := floor_places_bounds hexact
      generalize (toRat x : ℝ) ^ (toRat y : ℝ) = r at *
      have hround := rounds_normalize ⌊r * 2 ^ 1200⌋ (-1200)
      generalize (⌊r * 2 ^ 1200⌋ * 2 ^ (-1200 : ℤ) : ℚ) = q at *
      generalize packed (UnpackedFloat.normalize Format.binary64 ⌊r * 2 ^ 1200⌋ (-1200) .positive)
        = p at *
      have hq : 0 < q := lt_of_lt_of_le (by positivity) hnormal
      have hfinite : p.isFinite = true := by
        refine hround.isFinite_iff.mpr ?_
        have hle : q ≤ max (toRat x) 1 := by exact_mod_cast hhigh.trans hmax
        rcases le_max_iff.mp hle with hle | hle
        · refine (fits_toRat hx.isFinite).of_abs_le ?_
          rwa [abs_of_pos hq, abs_of_pos hx.toRat_pos]
        · refine (fits_toRat isPositive_one.isFinite).of_abs_le ?_
          rwa [toRat_one_literal, abs_of_pos hq, abs_one]
      have herror := (Rat.cast_le (K := ℝ)).mpr (hround.abs_toRat_sub_le_of_normal hfinite hnormal)
      push_cast at herror
      have hcut : |(q : ℝ) - r| ≤ r / 2 ^ 53 := abs_le.mpr ⟨by linarith, by linarith⟩
      refine ⟨hfinite, (abs_sub_le _ _ _).trans ((add_le_add herror hcut).trans ?_)⟩
      linarith

end MixedWorkload

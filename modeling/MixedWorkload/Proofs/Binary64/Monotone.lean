import MixedWorkload.Proofs.Binary64.Overflow

/-!
# Operations keep the order

Rounding keeps the order, and so does every operation on doubles that keeps it on rational
numbers. This file says so where infinities may be among the operands or the results, since
the corrections of latencies are not known to be finite.

* Two doubles in order stay in order when the same double is added to both or taken off both
  (`MixedWorkload.Binary64.not_add_lt`, `MixedWorkload.Binary64.not_sub_lt`). The result may be
  no number, so what is said is that the order is not inverted.
* More added to a finite number is more, infinities included
  (`MixedWorkload.Binary64.add_le_of_le_of_le`).
* What is added to a number without being negative makes it no less
  (`MixedWorkload.Binary64.le_add_of_zero_le`).
* Dividing by a positive number keeps the sign, and makes the less of a finite number the
  greater the divisor is (`MixedWorkload.Binary64.exists_rounds_div`).
-/

namespace MixedWorkload.Binary64

open Float.Model (Format UnpackedFloat)

open Float.Model.UnpackedFloat

/-! ### Rounded results -/

/-- **Rounded results are in the order of the exact ones.** -/
theorem Rounds.le {x y : Float} {p q : ℚ} (hx : Rounds x p) (hy : Rounds y q) (h : p ≤ q) :
    x ≤ y :=
  (le_iff_toRat hx.isNaN hy.isNaN).mpr (hx.toRat_le hy h)

/-- No double is less than itself. -/
theorem not_lt_self (x : Float) : ¬x < x :=
  fun h => absurd (lt_iff.mp h).2.2 (lt_irrefl _)

theorem not_lt_of_le {x y : Float} (h : x ≤ y) : ¬y < x :=
  (not_lt (le_iff.mp h).2.1 (le_iff.mp h).1).mpr h

theorem less_of_less_of_le {x y z : Float} (h : x < y) (h' : y ≤ z) : x < z := by
  obtain ⟨hx, -, hxy⟩ := lt_iff.mp h
  obtain ⟨-, hz, hyz⟩ := le_iff.mp h'
  exact lt_iff.mpr ⟨hx, hz, hxy.trans_le hyz⟩

theorem le_of_le_of_le {x y z : Float} (h : x ≤ y) (h' : y ≤ z) : x ≤ z := by
  obtain ⟨hx, -, hxy⟩ := le_iff.mp h
  obtain ⟨-, hz, hyz⟩ := le_iff.mp h'
  exact le_iff.mpr ⟨hx, hz, hxy.trans hyz⟩

/-- What is between zero and a finite double is finite. -/
theorem isFinite_of_le {x y : Float} (hx : 0.0 ≤ x) (hle : x ≤ y) (hy : y.isFinite = true) :
    x.isFinite = true := by
  have hpos := infiniteUnits_pos
  have hlow := (le_iff.mp hx).2.2
  have hhigh := (le_iff.mp hle).2.2
  have hbound := (isFinite_iff.mp hy).2.2
  rw [units_zero] at hlow
  exact isFinite_iff.mpr ⟨(le_iff.mp hle).1, by omega, by omega⟩

/-! ### The infinities -/

/-- An infinity is one of two. -/
theorem eq_infinity_or {x : Float} (hx : x.isInf = true) : x = infinity ∨ x = -infinity := by
  rw [isInf_eq] at hx
  cases h : decoded x with
  | infinity s =>
    cases s with
    | positive => exact Or.inl (decoded_injective h)
    | negative => exact Or.inr (decoded_injective h)
  | notANumber | zero | finite =>
    rw [h] at hx
    cases hx

/-- **Nothing lies beyond infinity.** -/
theorem not_infinity_lt (x : Float) : ¬infinity < x :=
  fun h => absurd (lt_iff.mp h).2.2 (units_bounds x).2.not_gt

theorem not_lt_neg_infinity (x : Float) : ¬x < -infinity := by
  intro h
  have hlt := (lt_iff.mp h).2.2
  rw [units_neg_infinity] at hlt
  exact absurd hlt (units_bounds x).1.not_gt

/-! ### Sums and differences -/

/-- Packing makes no number of what is none. -/
theorem isNaN_of_packed {u : UnpackedFloat} (h : (packed u).isNaN = false) : u.isNaN = false := by
  cases u with
  | notANumber => cases h
  | infinity | zero | finite => rfl

/-- Packing an infinity gives the infinity. -/
theorem packed_infinity {x : Float} {s : Sign} (h : decoded x = .infinity s) :
    packed (.infinity s) = x := by
  rw [← h, packed_decoded]

/-- **A sum that is a number has summands that are numbers**, and if one of them is infinite, it
is the sum. -/
theorem number_add {x y : Float} (h : (x + y).isNaN = false) :
    x.isNaN = false ∧ y.isNaN = false ∧
      (x.isInf = true → x + y = x) ∧ (y.isInf = true → x + y = y) := by
  rw [add_eq_packed] at h ⊢
  replace h := isNaN_of_packed h
  rw [isNaN_eq x, isNaN_eq y, isInf_eq x, isInf_eq y]
  cases hx : decoded x with
  | notANumber =>
    rw [hx] at h
    generalize decoded y = v at h
    cases v <;> cases h
  | infinity s =>
    cases hy : decoded y with
    | notANumber =>
      rw [hx, hy] at h
      cases h
    | zero | finite => exact ⟨rfl, rfl, fun _ => packed_infinity hx, nofun⟩
    | infinity t =>
      -- two infinities have a sum if they are the same
      rw [hx, hy] at h
      cases s <;> cases t
      · exact ⟨rfl, rfl, fun _ => packed_infinity hx, fun _ => packed_infinity hy⟩
      · cases h
      · cases h
      · exact ⟨rfl, rfl, fun _ => packed_infinity hx, fun _ => packed_infinity hy⟩
  | zero | finite =>
    cases hy : decoded y with
    | notANumber =>
      rw [hx, hy] at h
      cases h
    | zero | finite => exact ⟨rfl, rfl, nofun, nofun⟩
    | infinity t => exact ⟨rfl, rfl, nofun, fun _ => packed_infinity hy⟩

/-- A finite number and a number have a sum. -/
theorem isNaN_add_of_isFinite {x y : Float} (hx : x.isFinite = true) (hy : y.isNaN = false) :
    (x + y).isNaN = false := by
  rcases isFinite_or_isInf hy with hfin | hinf
  · exact (rounds_add hx hfin).isNaN
  · exact (isInf_ne_zero (isInf_add hx hinf)).1

/-- **Adding the same does not invert the order.** -/
theorem not_add_lt {x y : Float} (h : x ≤ y) (z : Float) : ¬y + z < x + z := by
  intro hlt
  obtain ⟨hyz, hxz, -⟩ := lt_iff.mp hlt
  obtain ⟨hx, hz, hxsum, hzsum⟩ := number_add hxz
  obtain ⟨hy, -, hysum, hzsum'⟩ := number_add hyz
  rcases isFinite_or_isInf hz with hzfin | hzinf
  · rcases isFinite_or_isInf hx with hxfin | hxinf
    · rcases isFinite_or_isInf hy with hyfin | hyinf
      · -- between finite doubles, rounding decides
        have hexact : toRat x + toRat z ≤ toRat y + toRat z := by
          have hrat := (le_iff_toRat hx hy).mp h
          linarith
        have hsums := (rounds_add hxfin hzfin).le (rounds_add hyfin hzfin) hexact
        exact (not_lt hyz hxz).mpr hsums hlt
      · rw [hysum hyinf] at hlt
        rcases eq_infinity_or hyinf with rfl | rfl
        · exact not_infinity_lt _ hlt
        · rw [eq_of_le_neg_infinity h] at hxfin
          cases hxfin
    · rw [hxsum hxinf] at hlt
      rcases eq_infinity_or hxinf with rfl | rfl
      · obtain rfl := eq_of_infinity_le h
        rw [hysum rfl] at hlt
        exact not_lt_self _ hlt
      · exact not_lt_neg_infinity _ hlt
  · rw [hzsum hzinf, hzsum' hzinf] at hlt
    exact not_lt_self z hlt

/-- **Adding more to more** gives more, if what it is added to is finite. -/
theorem add_le_of_le_of_le {x x' y y' : Float} (hx : x.isFinite = true) (hx' : x'.isFinite = true)
    (hxx : x ≤ x') (hyy : y ≤ y') : x + y ≤ x' + y' := by
  obtain ⟨hy, hy', -⟩ := le_iff.mp hyy
  have hsum := isNaN_add_of_isFinite hx hy
  have hsum' := isNaN_add_of_isFinite hx' hy'
  rcases isFinite_or_isInf hy' with hyfin' | hyinf'
  · rcases isFinite_or_isInf hy with hyfin | hyinf
    · -- between finite doubles, rounding decides
      refine (rounds_add hx hyfin).le (rounds_add hx' hyfin') (add_le_add ?_ ?_)
      · exact (le_iff_toRat (isNaN_of_isFinite hx) (isNaN_of_isFinite hx')).mp hxx
      · exact (le_iff_toRat hy hy').mp hyy
    · -- the lower sum is the infinity, which is the negative one
      rw [(number_add hsum).2.2.2 hyinf]
      rcases eq_infinity_or hyinf with rfl | rfl
      · rw [eq_of_infinity_le hyy] at hyfin'
        cases hyfin'
      · refine le_iff.mpr ⟨rfl, hsum', ?_⟩
        rw [units_neg_infinity]
        exact (units_bounds _).1
  · have htop := (number_add hsum').2.2.2 hyinf'
    rw [htop]
    rcases eq_infinity_or hyinf' with rfl | rfl
    · exact le_iff.mpr ⟨hsum, rfl, (units_bounds _).2⟩
    · obtain rfl := eq_of_le_neg_infinity hyy
      rw [(number_add hsum).2.2.2 rfl]
      exact hyy

theorem neg_le_of_le {x y : Float} (h : x ≤ y) : -y ≤ -x := by
  obtain ⟨hx, hy, hxy⟩ := le_iff.mp h
  refine le_iff.mpr ⟨(isNaN_neg y).trans hy, (isNaN_neg x).trans hx, ?_⟩
  rw [units_neg, units_neg]
  omega

/-- **Taking off the same does not invert the order.** -/
theorem not_sub_lt {x y : Float} (h : x ≤ y) (z : Float) : ¬y - z < x - z := by
  rw [sub_eq_add, sub_eq_add]
  exact not_add_lt h (-z)

/-- **What is taken off itself** leaves the positive zero. -/
theorem sub_self_of_isFinite {x : Float} (hx : x.isFinite = true) : x - x = 0.0 := by
  rw [sub_eq_packed]
  rw [isFinite_eq] at hx
  cases h : decoded x with
  | notANumber | infinity =>
    rw [h] at hx
    cases hx
  | zero s => cases s <;> rfl
  | finite s m e hm =>
    simp only [UnpackedFloat.sub, Int.sub_self, UnpackedFloat.normalize]
    rfl

/-- **Different doubles have a difference**: only the positive zero is left of a number when as
much as it is taken off. -/
theorem sub_eq_zero_of_units {x y : Float} (hx : x.isNaN = false) (hy : y.isFinite = true)
    (hy0 : units y ≠ 0) (hle : units y ≤ units x) (h : units (x - y) = 0) : x - y = 0.0 := by
  have hnumber := (le_iff.mp (sub_nonneg hx hy hle)).2.1
  rcases isFinite_or_isInf hx with hxfin | hxinf
  · rcases hle.eq_or_lt with heq | hlt
    · rw [eq_of_units_eq heq hy0]
      exact sub_self_of_isFinite hxfin
    · -- one unit is not rounded to zero
      have hone : 1 ≤ (toRat x - toRat y) * unitsOfOne := by
        rw [sub_mul, toRat_mul_unitsOfOne, toRat_mul_unitsOfOne, ← Int.cast_sub]
        exact_mod_cast Int.le_sub_left_of_add_le (Int.add_one_le_iff.mpr hlt)
      have hpos := (rounds_sub hxfin hy).toRat_pos hone
      exact absurd h (toRat_ne_zero_iff.mp hpos.ne')
  · rw [sub_eq_add] at h hnumber
    rw [(number_add hnumber).2.2.1 hxinf] at h
    exact absurd h (toRat_ne_zero_iff.mp (isInf_ne_zero hxinf).2)

/-- **What is not negative adds to a finite number**, or adds nothing. -/
theorem le_add_of_zero_le {x y : Float} (hx : x.isFinite = true) (hy : 0.0 ≤ y) : x ≤ x + y := by
  have hnumber := (le_iff.mp hy).2.1
  rcases isFinite_or_isInf hnumber with hfin | hinf
  · refine (rounds_toRat (isNaN_of_isFinite hx)).le (rounds_add hx hfin) ?_
    linarith [toRat_nonneg hy]
  · -- the sum is the infinity, which is the positive one
    have hsum := (number_add (isInf_ne_zero (isInf_add hx hinf)).1).2.2.2 hinf
    rw [hsum]
    rcases eq_infinity_or hinf with rfl | rfl
    · exact le_iff.mpr ⟨isNaN_of_isFinite hx, rfl, (units_bounds x).2⟩
    · exact absurd hy (by decide +kernel)

/-! ### Quotients -/

/-- **Dividing a finite number by a positive one** multiplies it by something that is not
negative, and the more so the less the divisor is. -/
theorem exists_rounds_div {x y : Float} (hx : x.isFinite = true) (hy : 0.0 < y) :
    ∃ q, Rounds (x / y) (toRat x * q) ∧ 0 ≤ q ∧ q ≤ (toRat y)⁻¹ := by
  have hnumber := (lt_iff.mp hy).2.1
  have hpos := toRat_pos hy
  rcases isFinite_or_isInf hnumber with hfin | hinf
  · refine ⟨(toRat y)⁻¹, ?_, (inv_pos.mpr hpos).le, le_rfl⟩
    rw [← div_eq_mul_inv]
    exact rounds_div hx hfin hpos.ne'
  · refine ⟨0, ?_, le_rfl, (inv_pos.mpr hpos).le⟩
    rw [mul_zero]
    exact rounds_div_of_isInf hx hinf

/-! ### Magnitudes -/

/-- The parts of the magnitude of a double. -/
theorem decoded_abs (x : Float) : decoded x.abs = (decoded x).abs := by
  have habs : x.abs = packed (decoded x).abs := rfl
  rw [habs, decoded_packed]
  cases h : decoded x with
  | notANumber => rfl
  | infinity s | zero s => cases s <;> rfl
  | finite s m e hm => exact unpack_pack (isCanonical_of_decoded h)

theorem isNaN_abs (x : Float) : x.abs.isNaN = x.isNaN := by
  rw [isNaN_eq, isNaN_eq, decoded_abs]
  cases decoded x <;> rfl

theorem units_abs (x : Float) : units x.abs = |units x| := by
  rw [units, units, decoded_abs]
  cases decoded x with
  | notANumber | zero => rfl
  | infinity s | finite s m e hm =>
    cases s with
    | positive => exact (Nat.abs_cast _).symm
    | negative => exact ((abs_neg _).trans (Nat.abs_cast _)).symm

theorem rounded_abs (u : ℚ) : rounded |u| = |rounded u| := by
  rcases le_total 0 u with hu | hu
  · rw [abs_of_nonneg hu, abs_of_nonneg (rounded_nonneg hu)]
  · have hneg := rounded_nonneg (neg_nonneg.mpr hu)
    rw [abs_of_nonpos hu, rounded_neg, abs_of_nonpos]
    rw [rounded_neg] at hneg
    omega

/-- **The magnitude of a rounded result** is the rounded magnitude. -/
theorem Rounds.abs {x : Float} {q : ℚ} (h : Rounds x q) : Rounds x.abs |q| := by
  refine ⟨(isNaN_abs x).trans h.isNaN, ?_⟩
  rw [units_abs, h.units, ← rounded_abs, abs_mul, abs_of_pos unitsOfOne_pos]

end MixedWorkload.Binary64

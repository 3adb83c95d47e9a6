import MixedWorkload.Proofs.Binary64.Arithmetic

/-!
# How far doubles are apart

Two neighbouring doubles are apart by one step of the grid that the lower one is on, and
rounding moves a number by half a step of its grid at most. Both have to do with the number
itself: fifty-three bits fit above a step, so a step is more than the `2 ^ 53`-th part of the
lower neighbour, and half a step is no more than the `2 ^ 53`-th part of the number that is
rounded, unless this is below the least normal double.

So a double that is less than another is so by more than rounding can make good
(`MixedWorkload.Binary64.toRat_mul_lt`, `MixedWorkload.Binary64.Rounds.toRat_lt_natCast`). That
is how a quotient of two doubles stays below a natural number for every dividend that is less
than some double whose exact quotient does not exceed the number.
-/

namespace MixedWorkload.Binary64

open Float.Model.UnpackedFloat

/-! ### Neighbours -/

/-- **A double that is not negative, on its grid.** -/
theorem exists_units_eq {x : Float} (h : 0 ≤ units x) :
    ∃ m g : ℕ, units x = (m * 2 ^ g : ℕ) ∧ m < 2 ^ 53 ∧ (g = 0 ∨ 2 ^ 52 ≤ m) := by
  rw [units] at h ⊢
  cases hd : decoded x with
  | notANumber | zero => exact ⟨0, 0, rfl, by norm_num, Or.inl rfl⟩
  | infinity s =>
    rw [hd] at h
    cases s with
    | positive =>
      exact ⟨fractions, (972 + 1074 : ℤ).toNat, rfl, by norm_num [fractions], Or.inr le_rfl⟩
    | negative =>
      have hpos := infiniteUnits_pos
      simp only [partUnits, Sign.apply] at h
      omega
  | finite s m e hm =>
    rw [hd] at h
    cases s with
    | positive =>
      have hcan := isCanonical_of_decoded hd
      have hlt := hcan.lt
      refine ⟨m, (e + 1074).toNat, rfl, ?_, ?_⟩
      · rw [fractions] at hlt
        omega
      · rcases hcan.normal with hnormal | he
        · exact Or.inr hnormal
        · exact Or.inl (by omega)
    | negative =>
      have hpos := magnitudeUnits_pos e hm
      simp only [partUnits, Sign.apply] at h
      omega

/-- Two magnitudes on their grids are apart by the step of the lower one. -/
theorem add_step_le {m m' g g' : ℕ} (hm : g = 0 ∨ 2 ^ 52 ≤ m) (hm' : m' < 2 ^ 53)
    (h : m * 2 ^ g < m' * 2 ^ g') : m * 2 ^ g + 2 ^ g ≤ m' * 2 ^ g' := by
  have hle : g ≤ g' := by
    rcases hm with rfl | hm
    · exact Nat.zero_le g'
    · have hlow : 2 ^ (52 + g) ≤ m * 2 ^ g := by
        rw [pow_add]
        exact Nat.mul_le_mul_right _ hm
      have hhigh : m' * 2 ^ g' < 2 ^ (53 + g') := by
        rw [pow_add]
        exact Nat.mul_lt_mul_of_pos_right hm' (Nat.two_pow_pos g')
      have hexp := (Nat.pow_lt_pow_iff_right (by norm_num)).mp ((hlow.trans_lt h).trans hhigh)
      omega
  -- both are multiples of the lower step
  have hsplit : m' * 2 ^ g' = m' * 2 ^ (g' - g) * 2 ^ g := by
    rw [mul_assoc, ← pow_add, Nat.sub_add_cancel hle]
  rw [hsplit] at h ⊢
  calc m * 2 ^ g + 2 ^ g = (m + 1) * 2 ^ g := (Nat.succ_mul m _).symm
    _ ≤ m' * 2 ^ (g' - g) * 2 ^ g :=
      Nat.mul_le_mul_right _ (Nat.lt_of_mul_lt_mul_right h)

/-- **A lesser double is less by more than its `2 ^ 53`-th part.** -/
theorem toRat_mul_lt {x y : Float} (hx : 0 ≤ toRat x) (h : toRat x < toRat y) :
    toRat x * (1 + 1 / 2 ^ 53) < toRat y := by
  rw [toRat, toRat, div_lt_div_iff_of_pos_right unitsOfOne_pos, Int.cast_lt] at h
  rw [toRat, le_div_iff₀ unitsOfOne_pos, zero_mul, Int.cast_nonneg_iff] at hx
  rw [toRat, toRat, div_mul_eq_mul_div, div_lt_div_iff_of_pos_right unitsOfOne_pos]
  obtain ⟨m, g, hxunits, hm, hmg⟩ := exists_units_eq hx
  obtain ⟨m', g', hyunits, hm', -⟩ := exists_units_eq (hx.trans h.le)
  rw [hxunits, hyunits, Int.ofNat_lt] at h
  have hstep : ((m * 2 ^ g : ℕ) : ℚ) + 2 ^ g ≤ (m' * 2 ^ g' : ℕ) := by
    exact_mod_cast add_step_le hmg hm' h
  have hpart : (m : ℚ) / 2 ^ 53 < 1 := by
    rw [div_lt_one (by norm_num)]
    exact_mod_cast hm
  have hpos : (0 : ℚ) < 2 ^ g := by positivity
  rw [hxunits, hyunits, Int.cast_natCast, Int.cast_natCast]
  calc ((m * 2 ^ g : ℕ) : ℚ) * (1 + 1 / 2 ^ 53)
    _ = (m * 2 ^ g : ℕ) + m / 2 ^ 53 * 2 ^ g := by
      push_cast
      ring
    _ < (m * 2 ^ g : ℕ) + 1 * 2 ^ g := by gcongr
    _ ≤ (m' * 2 ^ g' : ℕ) := by rwa [one_mul]

/-! ### Rounding errors -/

/-- The natural number nearest to a number is off by a half at most. -/
theorem abs_nearestNatural_sub_le {x : ℚ} (hx : 0 ≤ x) :
    |(nearestNatural x : ℚ) - x| ≤ 1 / 2 := by
  have hfloor := Nat.floor_le hx
  have hnext := Nat.lt_floor_add_one x
  rw [abs_le]
  unfold nearestNatural
  split_ifs
  · constructor <;> linarith
  · push_cast
    constructor <;> linarith
  · have heven : ((⌊x⌋₊ % 2 : ℕ) : ℚ) ≤ 1 := by
      exact_mod_cast Nat.le_of_lt_succ (Nat.mod_lt ⌊x⌋₊ two_pos)
    have hnonneg : (0 : ℚ) ≤ (⌊x⌋₊ % 2 : ℕ) := Nat.cast_nonneg _
    push_cast at heven hnonneg ⊢
    constructor <;> linarith

/-- **What rounding changes** is the `2 ^ 53`-th part at most, or half a unit. -/
theorem abs_onGrid_sub_le {u : ℚ} (hu : 0 ≤ u) :
    |(onGrid u : ℚ) - u| ≤ max (u / 2 ^ 53) (1 / 2) := by
  have hgrid := isGrid_gridExponent hu
  have hpos : (0 : ℚ) < 2 ^ gridExponent u := by positivity
  have hhalf : |(onGrid u : ℚ) - u| ≤ 2 ^ gridExponent u / 2 := by
    have hsplit : (onGrid u : ℚ) - u =
        (nearestNatural (u / 2 ^ gridExponent u) - u / 2 ^ gridExponent u) *
          2 ^ gridExponent u := by
      rw [sub_mul, div_mul_cancel₀ _ hpos.ne', onGrid]
      push_cast
      ring
    have hnear := abs_nearestNatural_sub_le (div_nonneg hu hpos.le)
    rw [hsplit, abs_mul, abs_of_pos hpos]
    exact (mul_le_mul_of_nonneg_right hnear hpos.le).trans_eq (one_div_mul_eq_div _ _)
  refine hhalf.trans ?_
  rcases hgrid.le with hzero | hle
  · rw [hzero, pow_zero]
    exact le_max_right _ _
  · refine le_max_of_le_left ?_
    rw [div_le_div_iff₀ two_pos (by norm_num)]
    calc (2 : ℚ) ^ gridExponent u * 2 ^ 53 = 2 ^ (gridExponent u + 52) * 2 := by ring
      _ ≤ u * 2 := by gcongr

/-- There are more units in one than steps on any grid. -/
theorem steps_lt_unitsOfOne : (2 : ℚ) ^ 53 < unitsOfOne :=
  pow_lt_pow_right₀ one_lt_two (by decide)

/-- **A rounded result stays below a natural number** if the exact one does so by more than its
`2 ^ 53`-th part. -/
theorem Rounds.toRat_lt_natCast {x : Float} {q : ℚ} {k : ℕ} (h : Rounds x q) (hq : 0 ≤ q)
    (hk : q * (1 + 1 / 2 ^ 53) < k) : toRat x < k := by
  have hunits := unitsOfOne_pos
  have hu : 0 ≤ q * unitsOfOne := mul_nonneg hq hunits.le
  have hround : (Binary64.units x : ℚ) ≤ onGrid (q * unitsOfOne) := by
    rw [h.units, rounded_of_nonneg hu, Int.cast_natCast]
    exact_mod_cast min_le_left _ _
  rw [toRat, div_lt_iff₀ hunits]
  have herror := sub_le_iff_le_add'.mp (le_of_abs_le (abs_onGrid_sub_le hu))
  refine (hround.trans herror).trans_lt ?_
  rcases max_cases (q * unitsOfOne / 2 ^ 53) (1 / 2) with ⟨hmax, -⟩ | ⟨hmax, hlt⟩
  · rw [hmax]
    calc q * unitsOfOne + q * unitsOfOne / 2 ^ 53 = q * (1 + 1 / 2 ^ 53) * unitsOfOne := by ring
      _ < k * unitsOfOne := mul_lt_mul_of_pos_right hk hunits
  · -- so little is far below one
    have hone : (1 : ℚ) ≤ k := by
      have hpos : (0 : ℚ) < k := lt_of_le_of_lt (by positivity) hk
      exact_mod_cast hpos
    have hsteps := steps_lt_unitsOfOne
    rw [hmax]
    rw [div_lt_iff₀ (by norm_num)] at hlt
    calc q * unitsOfOne + 1 / 2 < 2 ^ 53 := by linarith
      _ < unitsOfOne := hsteps
      _ ≤ k * unitsOfOne := le_mul_of_one_le_left hunits.le hone

end MixedWorkload.Binary64

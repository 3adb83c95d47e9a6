import MixedWorkload.Binary64.Nearest
import MixedWorkload.Proofs.Binary64.Arithmetic

/-!
# The double nearest to a fraction

A fraction of natural numbers is rounded by one division, in the unit of the last place that the
result will have. `MixedWorkload.Binary64.rounds_nearest` says that the result is the rounded
fraction, in the sense of `MixedWorkload.Binary64.Rounds`. The unit is found by comparing the
lengths of numerator and denominator, which leaves two candidates, and then by the quotient in
the finer one; it is the step of the grid around the fraction
(`MixedWorkload.Binary64.isGrid_unitExponent`).

The result is put together from its magnitude, where the steps of the grid are simply added to
the exponent field. That a carry ends in the next binade, and an overflow at infinity, is
`MixedWorkload.Binary64.units_ofMagnitude`.

The opposite way, taking a double apart, is `MixedWorkload.Binary64.parts_ofFloat`: the parts are
those of the core library, with the exponent counted from the least one.
-/

namespace MixedWorkload.Binary64

open Float.Model (Format UnpackedFloat)

open Float.Model.UnpackedFloat

/-! ### Taking a double apart -/

/-- Whether a sign is a minus. -/
def isMinus : Sign → Bool
  | .negative => true
  | .positive => false

/-- The bits below the sign hold the other two fields. -/
theorem mod_signPlace (bits : ℕ) :
    bits % signPlace = exponentField bits * fractions + fractionField bits := by
  unfold signPlace exponentField fractionField fractions
  omega

theorem decide_signPlace_le (bits : ℕ) :
    decide (signPlace ≤ bits) = isMinus (signField bits) := by
  unfold signField
  split
  · exact decide_eq_false (by omega)
  · exact decide_eq_true (by omega)

/-- **A double taken apart** has the parts of the core library. -/
theorem parts_ofFloat (x : Float) :
    Parts.ofFloat x = match decoded x with
      | .notANumber => .notANumber
      | .infinity s => .infinite (isMinus s)
      | .zero s => .finite (isMinus s) 0 0
      | .finite s m e _ => .finite (isMinus s) m (e + 1074).toNat := by
  rw [decoded_eq_unpack, unpack_eq]
  have hE := exponentField_lt x.toBits.toBitVec.toNat
  have hF := fractionField_lt x.toBits.toBitVec.toNat
  have hmagnitude := mod_signPlace x.toBits.toBitVec.toNat
  have hsign := decide_signPlace_le x.toBits.toBitVec.toNat
  have hbits : x.toBits.toNat = x.toBits.toBitVec.toNat := rfl
  rw [Parts.ofFloat, hbits]
  dsimp only
  rw [hsign, hmagnitude]
  generalize exponentField x.toBits.toBitVec.toNat = E at *
  generalize fractionField x.toBits.toBitVec.toNat = F at *
  have hquotient : (E * fractions + F) / fractions = E := by
    rw [Nat.add_comm, Nat.add_mul_div_right _ _ (by simp [fractions]), Nat.div_eq_of_lt hF,
      Nat.zero_add]
  have hremainder : (E * fractions + F) % fractions = F := by
    rw [Nat.add_comm, Nat.add_mul_mod_self_right, Nat.mod_eq_of_lt hF]
  rw [hquotient, hremainder]
  unfold infiniteMagnitude
  unfold fractions at *
  by_cases hall : E = 2047
  · rw [if_pos hall]
    by_cases hnone : F = 0
    · rw [if_neg (by omega), if_pos (by omega), if_pos hnone]
    · rw [if_pos (by omega), if_neg hnone]
  · rw [if_neg (by omega), if_neg (by omega), if_neg hall]
    by_cases hfirst : E = 0
    · rw [if_pos hfirst, if_pos hfirst]
      by_cases hnone : F = 0
      · rw [dif_pos hnone, hnone]
      · rw [dif_neg hnone]
        rfl
    · have hscale : ((E : ℤ) - 1075 + 1074).toNat = E - 1 := by omega
      rw [if_neg hfirst, if_neg hfirst]
      dsimp only
      rw [hscale, Nat.add_comm]

/-! ### Magnitudes -/

/-- **The parts of a bit pattern** are those of the double it is made into. -/
theorem decoded_ofBits (b : UInt64) :
    decoded (Float.ofBits b) = unpack Format.binary64 b.toBitVec := by
  have hpacked : decoded (Float.ofBits b) =
      unpack Format.binary64 (pack Format.binary64 (unpack Format.binary64 b.toBitVec)) := rfl
  rw [hpacked]
  cases h : unpack Format.binary64 b.toBitVec with
  | notANumber => rfl
  | infinity s | zero s => cases s <;> rfl
  | finite s m e hm => exact unpack_pack (isCanonical_of_unpack h)

theorem fractions_pos : 0 < fractions :=
  Nat.two_pow_pos 52

/-- The parts of a magnitude, by its fields. -/
theorem decoded_ofMagnitude {magnitude : ℕ} (h : magnitude < signPlace) :
    decoded (ofMagnitude magnitude) =
      if magnitude / fractions = 2047 then
        if magnitude % fractions = 0 then .infinity .positive else .notANumber
      else if magnitude / fractions = 0 then
        if h : magnitude % fractions = 0 then .zero .positive
        else .finite .positive (magnitude % fractions) (-1074) (Nat.pos_of_ne_zero h)
      else .finite .positive (fractions + magnitude % fractions)
        ((magnitude / fractions : ℕ) - 1075) (Nat.add_pos_left fractions_pos _) := by
  have hbits : (UInt64.ofNat magnitude).toBitVec.toNat = magnitude :=
    UInt64.toNat_ofNat_of_lt' (lt_trans h (by norm_num [signPlace]))
  have hfield : exponentField magnitude = magnitude / fractions := by
    refine Nat.mod_eq_of_lt ?_
    unfold signPlace at h
    unfold fractions
    omega
  rw [ofMagnitude, decoded_ofBits, unpack_eq]
  simp only [hbits, hfield, fractionField, signField, if_pos h]

/-- **The magnitude of a mantissa on a grid** is that of the double it makes. -/
theorem units_ofMagnitude_of_lt {m g : ℕ} (hm : m < 2 * fractions) (hg : g = 0 ∨ fractions ≤ m)
    (hlt : g * fractions + m < infiniteMagnitude) :
    (ofMagnitude (g * fractions + m)).isNaN = false ∧
      units (ofMagnitude (g * fractions + m)) = (m * 2 ^ g : ℕ) := by
  have hsign : g * fractions + m < signPlace := lt_trans hlt (by decide)
  have hpos := fractions_pos
  rw [isNaN_eq, units, decoded_ofMagnitude hsign]
  rcases lt_or_ge m fractions with hsmall | hlarge
  · -- there is no leading bit, and the mantissa is all there is
    obtain rfl : g = 0 := hg.resolve_right (by omega)
    rw [Nat.zero_mul, Nat.zero_add, Nat.div_eq_of_lt hsmall, Nat.mod_eq_of_lt hsmall,
      if_neg (by decide), if_pos rfl, pow_zero, mul_one]
    split
    · next h0 => exact ⟨rfl, by rw [h0]; rfl⟩
    · next h0 =>
      refine ⟨rfl, ?_⟩
      rw [partUnits, magnitudeUnits, Int.add_left_neg, Int.toNat_zero, pow_zero, mul_one]
      rfl
  · -- the leading bit counts in the field of the exponent
    have hsplit : g * fractions + m = (m - fractions) + (g + 1) * fractions := by
      rw [Nat.succ_mul]
      omega
    have hfraction : m - fractions < fractions := by omega
    have hfield : g + 1 < 2047 := by
      rw [infiniteMagnitude, hsplit] at hlt
      exact Nat.lt_of_mul_lt_mul_right (lt_of_le_of_lt (Nat.le_add_left _ _) hlt)
    have hexp : (((g + 1 : ℕ) : ℤ) - 1075 + 1074).toNat = g := by omega
    rw [hsplit, Nat.add_mul_div_right _ _ hpos, Nat.div_eq_of_lt hfraction, Nat.zero_add,
      Nat.add_mul_mod_self_right, Nat.mod_eq_of_lt hfraction, if_neg (by omega), if_neg (by omega)]
    refine ⟨rfl, ?_⟩
    rw [partUnits, magnitudeUnits, hexp, Nat.add_sub_cancel' hlarge]
    rfl

theorem infiniteUnits_eq_mul : infiniteUnits = fractions * 2 ^ (lastGrid + 1) := by
  rw [infiniteUnits_eq, fractions, pow_succ 2 52, pow_succ 2 lastGrid, mul_assoc,
    mul_comm 2 (2 ^ lastGrid)]

/-- A mantissa on a grid is not beyond infinity if its magnitude is not. -/
theorem mul_le_infiniteUnits {m e : ℕ} (hm : m < 2 * fractions) (he : e = 0 ∨ fractions ≤ m)
    (h : e * fractions + m < infiniteMagnitude) : m * 2 ^ e ≤ infiniteUnits := by
  have hlast : e ≤ lastGrid := by
    rcases he with rfl | hlarge
    · exact Nat.zero_le _
    · have hfield : (e + 1) * fractions < 2047 * fractions := by
        rw [Nat.succ_mul]
        exact lt_of_le_of_lt (Nat.add_le_add_left hlarge _) h
      have hexp := Nat.lt_of_mul_lt_mul_right hfield
      rw [lastGrid]
      omega
  calc m * 2 ^ e ≤ 2 * fractions * 2 ^ lastGrid := by gcongr; exact one_le_two
    _ = infiniteUnits := by rw [infiniteUnits_eq_mul]; ring

/-- A mantissa on a grid is infinite if its magnitude is. -/
theorem infiniteUnits_le_mul {m e : ℕ} (hm : m < 2 * fractions) (he : e = 0 ∨ fractions ≤ m)
    (h : infiniteMagnitude ≤ e * fractions + m) : infiniteUnits ≤ m * 2 ^ e := by
  have hlast : lastGrid + 1 ≤ e := by
    have hfield : 2047 * fractions < (e + 2) * fractions := by
      rw [Nat.add_mul]
      exact lt_of_le_of_lt h (Nat.add_lt_add_left hm _)
    have hexp := Nat.lt_of_mul_lt_mul_right hfield
    rw [lastGrid]
    omega
  have hlarge : fractions ≤ m := he.resolve_left (by omega)
  rw [infiniteUnits_eq_mul]
  gcongr
  exact one_le_two

/-- **The magnitude of a rounded quotient on a grid**, where a carry makes a double of the next
grid, and what is too large the infinity. -/
theorem units_ofMagnitude {k g : ℕ} (hk : k ≤ 2 * fractions) (hg : g = 0 ∨ fractions ≤ k) :
    (ofMagnitude (min (g * fractions + k) infiniteMagnitude)).isNaN = false ∧
      units (ofMagnitude (min (g * fractions + k) infiniteMagnitude)) =
        (min (k * 2 ^ g) infiniteUnits : ℕ) := by
  have hpos := fractions_pos
  -- a carry is a mantissa of the next grid
  obtain ⟨m, e, hm, he, hmagnitude, hunits⟩ : ∃ m e, m < 2 * fractions ∧
      (e = 0 ∨ fractions ≤ m) ∧ e * fractions + m = g * fractions + k ∧
      m * 2 ^ e = k * 2 ^ g := by
    rcases hk.eq_or_lt with rfl | hlt
    · exact ⟨fractions, g + 1, by omega, Or.inr le_rfl, by ring, by ring⟩
    · exact ⟨k, g, hlt, hg, rfl, rfl⟩
  rw [← hmagnitude, ← hunits]
  rcases lt_or_ge (e * fractions + m) infiniteMagnitude with hlt | hge
  · rw [min_eq_left hlt.le, min_eq_left (mul_le_infiniteUnits hm he hlt)]
    exact units_ofMagnitude_of_lt hm he hlt
  · rw [min_eq_right hge, min_eq_right (infiniteUnits_le_mul hm he hge)]
    exact ⟨rfl, rfl⟩

/-! ### Rounding a fraction -/

/-- **Dividing to the nearest natural number.** -/
theorem divideToEven_eq (num : ℕ) {den : ℕ} (hden : 0 < den) :
    divideToEven num den = nearestNatural (num / den) := by
  have hpos : (0 : ℚ) < den := by exact_mod_cast hden
  have hrest : (num : ℚ) / den - (num / den : ℕ) = (num % den : ℕ) / den := by
    rw [eq_div_iff hpos.ne', sub_mul, div_mul_cancel₀ _ hpos.ne', sub_eq_iff_eq_add']
    exact_mod_cast (Nat.div_add_mod' num den).symm
  have hbelow : ((num % den : ℕ) : ℚ) / den < 1 / 2 ↔ 2 * (num % den) < den := by
    rw [div_lt_div_iff₀ hpos two_pos, one_mul, mul_comm]
    exact_mod_cast Iff.rfl
  have habove : 1 / 2 < ((num % den : ℕ) : ℚ) / den ↔ den < 2 * (num % den) := by
    rw [div_lt_div_iff₀ two_pos hpos, one_mul, mul_comm]
    exact_mod_cast Iff.rfl
  rw [nearestNatural, Nat.floor_div_eq_div, hrest, divideToEven]
  simp only [hbelow, habove]
  split_ifs <;> omega

/-- A fraction in other units. -/
theorem inUnits_div (num den : ℕ) (e : ℤ) :
    ((inUnits num den e).1 : ℚ) / (inUnits num den e).2 = num / den / 2 ^ e := by
  have hpow : (2 : ℚ) ^ e.toNat = 2 ^ e * 2 ^ (-e).toNat := by
    rw [← zpow_natCast, ← zpow_natCast, ← zpow_add₀ two_ne_zero]
    congr 1
    omega
  have hunits : inUnits num den e = (num * 2 ^ (-e).toNat, den * 2 ^ e.toNat) := rfl
  rw [hunits]
  push_cast
  rw [hpow, ← mul_assoc, mul_div_mul_right _ _ (by positivity), div_div]

theorem inUnits_pos (num : ℕ) {den : ℕ} (hden : 0 < den) (e : ℤ) : 0 < (inUnits num den e).2 :=
  Nat.mul_pos hden (Nat.two_pow_pos _)

/-- A number in the unit with an exponent, counted in units of the least double. -/
theorem mul_unitsOfOne_div (v : ℚ) {e : ℤ} (he : -1074 ≤ e) :
    v * unitsOfOne / 2 ^ (e + 1074).toNat = v / 2 ^ e := by
  have hsplit : (2 : ℚ) ^ (e + 1074).toNat = 2 ^ e * unitsOfOne := by
    rw [unitsOfOne, ← zpow_natCast, ← zpow_natCast, ← zpow_add₀ two_ne_zero, unitPlaces]
    congr 1
    omega
  rw [hsplit, mul_div_mul_right _ _ unitsOfOne_pos.ne']

/-- The grid around a number, by the size of the number in steps. -/
theorem isGrid_of_div {v : ℚ} {e : ℤ} (he : -1074 ≤ e) (hlt : v / 2 ^ e < 2 ^ 53)
    (hle : e = -1074 ∨ 2 ^ 52 ≤ v / 2 ^ e) : IsGrid (v * unitsOfOne) (e + 1074).toNat := by
  have hpos : (0 : ℚ) < 2 ^ (e + 1074).toNat := by positivity
  rw [← mul_unitsOfOne_div v he] at hlt hle
  refine ⟨?_, hle.imp (fun heq => by omega) fun hlarge => ?_⟩
  · rwa [div_lt_iff₀ hpos, ← pow_add, add_comm] at hlt
  · rwa [le_div_iff₀ hpos, ← pow_add, add_comm] at hlarge

/-- A fraction lies within a factor of two of the power of two that the lengths of its numerator
and its denominator give. -/
theorem fraction_bounds {num den : ℕ} (hnum : 0 < num) (hden : 0 < den) :
    2 ^ ((num.log2 : ℤ) - den.log2 - 1) < (num / den : ℚ) ∧
      (num / den : ℚ) < 2 ^ ((num.log2 : ℤ) - den.log2 + 1) := by
  have hpos : (0 : ℚ) < den := by exact_mod_cast hden
  have hlow : (2 : ℚ) ^ num.log2 ≤ num := by exact_mod_cast Nat.log2_self_le hnum.ne'
  have hhigh : (num : ℚ) < 2 ^ (num.log2 + 1) := by exact_mod_cast Nat.lt_log2_self
  have hlow' : (2 : ℚ) ^ den.log2 ≤ den := by exact_mod_cast Nat.log2_self_le hden.ne'
  have hhigh' : (den : ℚ) < 2 ^ (den.log2 + 1) := by exact_mod_cast Nat.lt_log2_self
  constructor
  · rw [lt_div_iff₀ hpos]
    calc (2 : ℚ) ^ ((num.log2 : ℤ) - den.log2 - 1) * den
        < 2 ^ ((num.log2 : ℤ) - den.log2 - 1) * 2 ^ (den.log2 + 1) := by gcongr
      _ = 2 ^ num.log2 := by
        rw [← zpow_natCast, ← zpow_natCast, ← zpow_add₀ two_ne_zero]
        congr 1
        push_cast
        ring
      _ ≤ num := hlow
  · rw [div_lt_iff₀ hpos]
    calc (num : ℚ) < 2 ^ (num.log2 + 1) := hhigh
      _ = 2 ^ ((num.log2 : ℤ) - den.log2 + 1) * 2 ^ den.log2 := by
        rw [← zpow_natCast, ← zpow_natCast, ← zpow_add₀ two_ne_zero]
        congr 1
        push_cast
        ring
      _ ≤ 2 ^ ((num.log2 : ℤ) - den.log2 + 1) * den := by gcongr

/-- **The unit in the last place** is the step of the grid around a fraction. -/
theorem isGrid_unitExponent {num den : ℕ} (hnum : 0 < num) (hden : 0 < den) :
    -1074 ≤ unitExponent num den ∧
      IsGrid (num / den * unitsOfOne) (unitExponent num den + 1074).toNat := by
  obtain ⟨hlow, hhigh⟩ := fraction_bounds hnum hden
  have hleast : leastExponent = -1074 := rfl
  rw [unitExponent, hleast]
  set guess := max ((num.log2 : ℤ) - den.log2 - 53) (-1074) with hguess
  have hge : -1074 ≤ guess := le_max_right _ _
  have hunit : (0 : ℚ) < 2 ^ guess := by positivity
  have htest : 2 * fractions ≤ (inUnits num den guess).1 / (inUnits num den guess).2 ↔
      (2 : ℚ) ^ 53 ≤ num / den / 2 ^ guess := by
    have hpos : (0 : ℚ) < (inUnits num den guess).2 := by exact_mod_cast inUnits_pos num hden guess
    rw [Nat.le_div_iff_mul_le (inUnits_pos num hden guess), ← inUnits_div, le_div_iff₀ hpos]
    exact_mod_cast Iff.rfl
  dsimp only
  split
  · next hlarge =>
    rw [htest] at hlarge
    refine ⟨by omega, isGrid_of_div (by omega) ?_ (Or.inr ?_)⟩
    · rw [div_lt_iff₀ (by positivity)]
      calc (num / den : ℚ) < 2 ^ ((num.log2 : ℤ) - den.log2 + 1) := hhigh
        _ ≤ 2 ^ ((53 : ℕ) + (guess + 1)) := zpow_le_zpow_right₀ one_le_two (by omega)
        _ = 2 ^ 53 * 2 ^ (guess + 1) := by rw [zpow_add₀ two_ne_zero, zpow_natCast]
    · rw [zpow_add_one₀ two_ne_zero, ← div_div, le_div_iff₀ two_pos]
      exact le_trans (by norm_num) hlarge
  · next hsmall =>
    rw [htest] at hsmall
    replace hsmall := lt_of_not_ge hsmall
    refine ⟨hge, isGrid_of_div hge hsmall ?_⟩
    by_cases hleast : guess = -1074
    · exact Or.inl hleast
    · right
      rw [le_div_iff₀ hunit]
      calc (2 : ℚ) ^ 52 * 2 ^ guess = 2 ^ ((52 : ℕ) + guess) := by
            rw [zpow_add₀ two_ne_zero, zpow_natCast]
        _ ≤ 2 ^ ((num.log2 : ℤ) - den.log2 - 1) := zpow_le_zpow_right₀ one_le_two (by omega)
        _ ≤ num / den := hlow.le

/-- **The double nearest to a fraction** is the rounded fraction. -/
theorem rounds_nearest (num : ℕ) {den : ℕ} (hden : 0 < den) :
    Rounds (nearest num den) (num / den) := by
  rw [nearest, nearestMagnitude]
  split
  · next h0 =>
    rw [h0, Nat.cast_zero, zero_div]
    exact rounds_zero .positive
  · next h0 =>
    obtain ⟨hge, hgrid⟩ := isGrid_unitExponent (Nat.pos_of_ne_zero h0) hden
    have hden' := inUnits_pos num hden (unitExponent num den)
    have hnonneg : (0 : ℚ) ≤ num / den * unitsOfOne := by
      have hpos := unitsOfOne_pos
      positivity
    have hleast : unitExponent num den - leastExponent = unitExponent num den + 1074 := by
      rw [leastExponent, sub_neg_eq_add]
    dsimp only
    rw [hleast]
    -- the quotient counts the steps of the grid
    have hsteps : divideToEven (inUnits num den (unitExponent num den)).1
        (inUnits num den (unitExponent num den)).2 =
          nearestNatural (num / den * unitsOfOne / 2 ^ (unitExponent num den + 1074).toNat) := by
      rw [divideToEven_eq _ hden', inUnits_div, mul_unitsOfOne_div _ hge]
    have hle := hgrid.steps_le
    have hnormal := hgrid.le.symm.imp_left le_steps
    have honGrid := onGrid_eq hgrid hnonneg
    rw [← hsteps] at hle hnormal honGrid
    obtain ⟨hn, hunits⟩ := units_ofMagnitude hle hnormal.symm
    refine ⟨hn, ?_⟩
    rw [rounded_of_nonneg hnonneg, roundedMagnitude, honGrid]
    exact hunits

end MixedWorkload.Binary64

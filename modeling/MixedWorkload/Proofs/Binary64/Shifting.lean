import MixedWorkload.Proofs.Binary64.Rounding

/-!
# Rounding the parts of a double

The core library rounds a mantissa by shifting it to the right. It keeps two bits of what
falls out: the one next to the mantissa, and whether there was another one below. Two bits
are enough, for together with the mantissa they tell on which side of the half a number lies
(`MixedWorkload.Binary64.Describes`), and so where the nearest natural number is
(`MixedWorkload.Binary64.Describes.roundedMantissa`).

`MixedWorkload.Binary64.isRounding_roundWithAccuracy` says that the shifts end on the grid of
`MixedWorkload.Binary64.onGrid`, and `MixedWorkload.Binary64.IsRounding.unpack_pack` that
packing the parts stops them at infinity. Both together are the rounding of
`MixedWorkload.Binary64.rounded`, as far as magnitudes go.
-/

namespace MixedWorkload.Binary64

open Float.Model (Format UnpackedFloat totalExponent)

open Float.Model.UnpackedFloat

/-! ### Mantissas with residual bits -/

/-- A mantissa with the half that its round bit stands for. -/
def cutOff (em : ExtendedMantissa) : ℚ :=
  em.mantissa + em.roundBit.toNat / 2

/-- **What the residual bits say** about a number: it is what the mantissa and the round bit
say, or lies less than a half above it, and the sticky bit tells which. -/
structure Describes (em : ExtendedMantissa) (x : ℚ) : Prop where
  /-- Cutting off makes nothing greater. -/
  le : cutOff em ≤ x
  /-- Less than a half is cut off. -/
  lt : x < cutOff em + 1 / 2
  /-- The sticky bit is for anything cut off. -/
  sticky : em.stickyBit = false ↔ x = cutOff em

theorem describes_exact (m : ℕ) : Describes (.ofMantissaAndAccuracy m .exact) m := by
  have hcut : cutOff (.ofMantissaAndAccuracy m .exact) = m := by
    simp [cutOff, ExtendedMantissa.ofMantissaAndAccuracy]
  refine ⟨hcut.le, ?_, fun _ => hcut.symm, fun _ => rfl⟩
  rw [hcut]
  linarith

/-- **One step to the right** halves the number. -/
theorem Describes.shiftRightOne {em : ExtendedMantissa} {x : ℚ} (h : Describes em x) :
    Describes em.shiftRightOne (x / 2) := by
  -- the last bit of the mantissa becomes the round bit, so nothing of it is lost
  have hcut : cutOff em.shiftRightOne = (em.mantissa : ℚ) / 2 := by
    have hbit : (em.mantissa % 2 != 0).toNat = em.mantissa % 2 := by
      rcases Nat.mod_two_eq_zero_or_one em.mantissa with h | h <;> rw [h] <;> rfl
    have hsplit : (2 : ℚ) * (em.mantissa / 2 : ℕ) + (em.mantissa % 2 : ℕ) = em.mantissa := by
      exact_mod_cast Nat.div_add_mod em.mantissa 2
    rw [cutOff]
    simp only [ExtendedMantissa.shiftRightOne, hbit]
    linarith
  obtain ⟨hle, hlt, hsticky⟩ := h
  have hround : (0 : ℚ) ≤ em.roundBit.toNat ∧ (em.roundBit.toNat : ℚ) ≤ 1 :=
    ⟨Nat.cast_nonneg _, by exact_mod_cast em.roundBit.toNat_le⟩
  rw [cutOff] at hle hlt hsticky
  refine ⟨by linarith, by linarith, ?_⟩
  have hor : em.shiftRightOne.stickyBit = (em.roundBit || em.stickyBit) := rfl
  rw [hor, hcut, Bool.or_eq_false_iff, hsticky]
  constructor
  · rintro ⟨hr, hx⟩
    rw [hx, hr]
    simp
  · intro hx
    have hr : (em.roundBit.toNat : ℚ) = 0 := by linarith
    have hr' : em.roundBit = false := by simpa using hr
    exact ⟨hr', by linarith⟩

theorem Describes.shiftRight {em : ExtendedMantissa} {x : ℚ} (h : Describes em x) (n : ℕ) :
    Describes (em >>> n) (x / 2 ^ n) := by
  induction n with
  | zero =>
    rw [pow_zero, div_one]
    exact h
  | succ n ih =>
    rw [pow_succ, ← div_div]
    exact ih.shiftRightOne

/-- The mantissa is the integral part of the number. -/
theorem Describes.bounds {em : ExtendedMantissa} {x : ℚ} (h : Describes em x) :
    em.mantissa ≤ x ∧ x < em.mantissa + 1 := by
  have hround : (0 : ℚ) ≤ em.roundBit.toNat ∧ (em.roundBit.toNat : ℚ) ≤ 1 :=
    ⟨Nat.cast_nonneg _, by exact_mod_cast em.roundBit.toNat_le⟩
  obtain ⟨hle, hlt, -⟩ := h
  rw [cutOff] at hle hlt
  constructor <;> linarith

/-- **Rounding by the residual bits** goes to the nearest natural number. -/
theorem Describes.roundedMantissa {em : ExtendedMantissa} {x : ℚ} (h : Describes em x) :
    em.roundedMantissa = nearestNatural x := by
  have hfloor : ⌊x⌋₊ = em.mantissa :=
    (Nat.floor_eq_iff (le_trans (Nat.cast_nonneg _) h.bounds.1)).mpr h.bounds
  obtain ⟨m, roundBit, stickyBit⟩ := em
  obtain ⟨hle, hlt, hsticky⟩ := h
  rw [nearestNatural, hfloor]
  unfold cutOff at hle hlt hsticky
  cases roundBit with
  | false =>
    -- less than a half is left, so either way the number goes down
    have hbelow : x - m < 1 / 2 := by simpa [sub_lt_iff_lt_add'] using hlt
    rw [if_pos hbelow]
    cases stickyBit <;> rfl
  | true =>
    have hhalf : ¬x - m < 1 / 2 := by
      simp at hle
      linarith
    rw [if_neg hhalf]
    cases stickyBit with
    | false =>
      have hx : x = m + 1 / 2 := by simpa using hsticky
      rw [if_neg (by linarith)]
      rfl
    | true =>
      have hx : x ≠ m + 1 / 2 := by simpa using hsticky
      have habove : 1 / 2 < x - m := by
        refine lt_of_le_of_ne (le_of_not_gt hhalf) fun heq => hx ?_
        linarith
      rw [if_pos habove]
      rfl

/-- A fraction compared with the half gives the residual bits. -/
theorem describes_inexact (m : ℕ) {f : ℚ} (hf₀ : 0 < f) (hf₁ : f < 1) :
    Describes (.ofMantissaAndAccuracy m (.inexact (compare f (1 / 2)))) (m + f) := by
  have hbelow : cutOff ⟨m, false, true⟩ = m := by simp [cutOff]
  have habove (sticky : Bool) : cutOff ⟨m, true, sticky⟩ = m + 1 / 2 := by simp [cutOff]
  rcases lt_trichotomy f (1 / 2) with h | h | h
  · rw [compare_lt_iff_lt.mpr h]
    refine ⟨?_, ?_, nofun, fun heq => ?_⟩ <;>
      simp only [ExtendedMantissa.ofMantissaAndAccuracy, hbelow] at * <;> linarith
  · rw [compare_eq_iff_eq.mpr h]
    refine ⟨?_, ?_, fun _ => ?_, fun _ => rfl⟩ <;>
      simp only [ExtendedMantissa.ofMantissaAndAccuracy, habove] <;> linarith
  · rw [compare_gt_iff_gt.mpr h]
    refine ⟨?_, ?_, nofun, fun heq => ?_⟩ <;>
      simp only [ExtendedMantissa.ofMantissaAndAccuracy, habove] at * <;> linarith

/-- The fraction that a remainder makes of the divisor, compared with the half. -/
theorem compare_remainder (r : ℕ) {d : ℕ} (hd : 0 < d) :
    compare (2 * r) d = compare ((r : ℚ) / d) (1 / 2) := by
  have hpos : (0 : ℚ) < d := by exact_mod_cast hd
  rcases lt_trichotomy (2 * r) d with h | h | h
  · have h' : 2 * (r : ℚ) < d := by exact_mod_cast h
    rw [compare_lt_iff_lt.mpr h, eq_comm, compare_lt_iff_lt, div_lt_iff₀ hpos]
    linarith
  · have h' : 2 * (r : ℚ) = d := by exact_mod_cast h
    rw [compare_eq_iff_eq.mpr h, eq_comm, compare_eq_iff_eq, div_eq_iff hpos.ne']
    linarith
  · have h' : (d : ℚ) < 2 * r := by exact_mod_cast h
    rw [compare_gt_iff_gt.mpr h, eq_comm, compare_gt_iff_gt, lt_div_iff₀ hpos]
    linarith

/-- **The remainder of a division** says what the residual bits of the quotient are. -/
theorem describes_quotient (a : ℕ) {d : ℕ} (hd : 0 < d) :
    Describes (.ofMantissaAndAccuracy (a / d) (accuracyOfFraction (a % d) d)) (a / d) := by
  have hpos : (0 : ℚ) < d := by exact_mod_cast hd
  have hsplit : (a : ℚ) / d = (a / d : ℕ) + (a % d : ℕ) / d := by
    rw [div_eq_iff hpos.ne', add_mul, div_mul_cancel₀ _ hpos.ne']
    exact_mod_cast (Nat.div_add_mod' a d).symm
  rw [hsplit, accuracyOfFraction]
  split
  · next h0 =>
    rw [h0, Nat.cast_zero, zero_div, add_zero]
    exact describes_exact _
  · next h0 =>
    have hr : (0 : ℚ) < (a % d : ℕ) := by exact_mod_cast Nat.pos_of_ne_zero h0
    have hlt : ((a % d : ℕ) : ℚ) / d < 1 := by
      rw [div_lt_one hpos]
      exact_mod_cast Nat.mod_lt a hd
    rw [compare_remainder _ hd]
    exact describes_inexact _ (div_pos hr hpos) hlt

/-! ### Shifting to the grid -/

theorem targetExponent_eq (m : ℕ) (e : ℤ) :
    Format.binary64.targetExponent (totalExponent m e) = max (m.log2 + e - 52) (-1074) := by
  have hbits : Format.binary64.mantissaBits = 53 := rfl
  have hleast : Format.binary64.minExponent = -1074 := rfl
  rw [Format.targetExponent, totalExponent, hbits, hleast]
  push_cast
  congr 1
  ring

/-- The number of units that a mantissa with an exponent stands for, where the mantissa need
not be an integer. -/
def scaled (x : ℚ) (e : ℤ) : ℚ := x * 2 ^ (e + 1074)

theorem scaled_eq_magnitudeUnits (m : ℕ) {e : ℤ} (he : -1074 ≤ e) :
    scaled m e = magnitudeUnits m e := by
  obtain ⟨k, hk⟩ := Int.eq_ofNat_of_zero_le (by omega : 0 ≤ e + 1074)
  rw [scaled, magnitudeUnits, hk, Int.toNat_natCast, zpow_natCast]
  push_cast
  rfl

/-- The exponent that rounding aims at, and what remains of a number when it is reached. -/
theorem scaled_shift (x : ℚ) {e t : ℤ} (ht : -1074 ≤ t) (hle : e ≤ t) :
    x / 2 ^ (t - e).toNat = scaled x e / 2 ^ (t + 1074).toNat := by
  have hpow (k : ℤ) (hk : 0 ≤ k) : (2 : ℚ) ^ k.toNat = 2 ^ k := by
    rw [← zpow_natCast, Int.toNat_of_nonneg hk]
  rw [hpow _ (by omega), hpow _ (by omega), scaled, div_eq_div_iff (by positivity) (by positivity),
    mul_assoc, ← zpow_add₀ two_ne_zero]
  congr 2
  ring

theorem mantissa_ofMantissaAndAccuracy (m : ℕ) (accuracy : Accuracy) :
    (ExtendedMantissa.ofMantissaAndAccuracy m accuracy).mantissa = m := by
  cases accuracy with
  | exact => rfl
  | inexact c => cases c <;> rfl

/-- **The exponent that rounding aims at is that of the grid**, for a number whose integral
part has all its bits, or is to be cut off anyway. -/
theorem isGrid_scaled {m : ℕ} {e : ℤ} {x : ℚ} (hle : m ≤ x) (hlt : x < m + 1)
    (hbits : 52 ≤ m.log2 ∨ e ≤ -1074) :
    IsGrid (scaled x e) (max (m.log2 + e - 52) (-1074) + 1074).toNat := by
  set g := (max (m.log2 + e - 52) (-1074) + 1074).toNat with hg
  have hpos : (0 : ℚ) < 2 ^ (e + 1074) := by positivity
  constructor
  · have hlog : x < 2 ^ (m.log2 + 1) :=
      calc x < (m + 1 : ℕ) := by exact_mod_cast hlt
        _ ≤ (2 ^ (m.log2 + 1) : ℕ) := by exact_mod_cast Nat.lt_log2_self
        _ = 2 ^ (m.log2 + 1) := by push_cast; rfl
    calc scaled x e < 2 ^ (m.log2 + 1) * 2 ^ (e + 1074) := mul_lt_mul_of_pos_right hlog hpos
      _ = 2 ^ (((m.log2 + 1 : ℕ) : ℤ) + (e + 1074)) := by
        rw [zpow_add₀ two_ne_zero ((m.log2 + 1 : ℕ) : ℤ), zpow_natCast]
      _ ≤ 2 ^ ((g + 53 : ℕ) : ℤ) := zpow_le_zpow_right₀ one_le_two (by omega)
      _ = 2 ^ (g + 53) := zpow_natCast _ _
  · by_cases hleast : m.log2 + e - 52 ≤ -1074
    · exact Or.inl (by omega)
    · right
      have hne : m ≠ 0 := by
        rintro rfl
        rw [Nat.log2_zero] at hbits hleast
        omega
      have hlog : (2 : ℚ) ^ m.log2 ≤ x :=
        calc (2 : ℚ) ^ m.log2 = (2 ^ m.log2 : ℕ) := by push_cast; rfl
          _ ≤ m := by exact_mod_cast Nat.log2_self_le hne
          _ ≤ x := hle
      calc (2 : ℚ) ^ (g + 52) = 2 ^ ((g + 52 : ℕ) : ℤ) := (zpow_natCast _ _).symm
        _ = 2 ^ ((m.log2 : ℤ) + (e + 1074)) := by
          congr 1
          omega
        _ = 2 ^ m.log2 * 2 ^ (e + 1074) := by
          rw [zpow_add₀ two_ne_zero (m.log2 : ℤ), zpow_natCast]
        _ ≤ scaled x e := mul_le_mul_of_nonneg_right hlog hpos.le

/-- The bounds of a mantissa and an exponent that are not yet known to be those of a double,
as the exponent may be too great. -/
structure IsNormalized (m : ℕ) (e : ℤ) : Prop where
  /-- A mantissa has at most fifty-three bits. -/
  lt : m < 2 * fractions
  /-- No exponent is less than that of the least double. -/
  ge : -1074 ≤ e
  /-- Only at the least exponent is the leading bit missing. -/
  normal : fractions ≤ m ∨ e = -1074

/-- **The parts of a rounded magnitude**, a number of units with a sign. -/
inductive IsRounding (s : Sign) (n : ℕ) : UnpackedFloat → Prop
  /-- Nothing is left of the magnitude. -/
  | zero (h : n = 0) : IsRounding s n (.zero s)
  /-- The magnitude has a mantissa and an exponent. -/
  | finite {m : ℕ} {e : ℤ} {hm : 0 < m} (h : magnitudeUnits m e = n)
      (hbounds : IsNormalized m e) : IsRounding s n (.finite s m e hm)

/-- Rounding may carry into a fifty-fourth bit. Then the mantissa is a power of two, and one
more step to the right loses nothing. -/
theorem shiftToTargetExponent_carry {r : ℕ} {t : ℤ} (ht : -1074 ≤ t) (hr : r ≤ 2 * fractions)
    (hnormal : fractions ≤ r ∨ t = -1074) :
    let p := shiftToTargetExponent Format.binary64 r t .exact
    magnitudeUnits p.1.mantissa p.2 = magnitudeUnits r t ∧ IsNormalized p.1.mantissa p.2 := by
  simp only [shiftToTargetExponent, shiftToExponent, targetExponent_eq]
  rcases hr.eq_or_lt with rfl | hlt
  · have hlog : (2 * fractions).log2 = 53 := by decide +kernel
    have hshift : (max (((2 * fractions).log2 : ℤ) + t - 52) (-1074) - t).toNat = 1 := by
      rw [hlog]
      omega
    have hhalf : 2 * fractions / 2 = fractions := Nat.mul_div_cancel_left fractions two_pos
    have hexp : (t + (1 : ℕ) + 1074).toNat = (t + 1074).toNat + 1 := by omega
    rw [hshift]
    change magnitudeUnits (2 * fractions / 2) _ = _ ∧ IsNormalized (2 * fractions / 2) _
    rw [hhalf, magnitudeUnits, magnitudeUnits, hexp, pow_succ', ← mul_assoc, mul_comm fractions]
    refine ⟨rfl, ?_, by omega, Or.inl le_rfl⟩
    simp [fractions]
  · have hlog : r.log2 ≤ 52 := by
      rcases Nat.eq_zero_or_pos r with rfl | hpos
      · simp
      · refine Nat.lt_succ_iff.mp ((Nat.log2_lt hpos.ne').mpr ?_)
        rw [fractions] at hlt
        omega
    have hshift : (max ((r.log2 : ℤ) + t - 52) (-1074) - t).toNat = 0 := by omega
    rw [hshift, Nat.cast_zero, add_zero]
    exact ⟨rfl, hlt, ht, hnormal⟩

/-- **Rounding with residual bits** goes to the nearest point of the grid, if the mantissa has
all bits of a double or its exponent is low enough. -/
theorem isRounding_roundWithAccuracy (s : Sign) {m : ℕ} {e : ℤ} {accuracy : Accuracy} {x : ℚ}
    (h : Describes (.ofMantissaAndAccuracy m accuracy) x) (hbits : 52 ≤ m.log2 ∨ e ≤ -1074) :
    IsRounding s (onGrid (scaled x e))
      (roundWithAccuracy Format.binary64 s m e accuracy) := by
  obtain ⟨hle, hlt⟩ := h.bounds
  rw [mantissa_ofMantissaAndAccuracy] at hle hlt
  have hgrid := isGrid_scaled hle hlt hbits
  have hpos : 0 ≤ scaled x e :=
    mul_nonneg (le_trans (Nat.cast_nonneg m) hle) (zpow_nonneg zero_le_two _)
  -- the first shift leaves the number in steps of the grid
  have htarget := targetExponent_eq m e
  set t := max ((m.log2 : ℤ) + e - 52) (-1074)
  have hge : -1074 ≤ t := le_max_right _ _
  have hexp : e + (t - e).toNat = t := by omega
  have hround := (h.shiftRight (t - e).toNat).roundedMantissa
  rw [scaled_shift x hge (by omega)] at hround
  have hunits : magnitudeUnits _ t = _ := (onGrid_eq hgrid hpos).symm
  -- the second one takes up the carry
  have hnormal : fractions ≤ nearestNatural (scaled x e / 2 ^ (t + 1074).toNat) ∨ t = -1074 :=
    hgrid.le.symm.imp le_steps fun h0 => by omega
  obtain ⟨hfinal, hbounds⟩ := shiftToTargetExponent_carry hge hgrid.steps_le hnormal
  rw [hunits] at hfinal
  have hfirst : shiftToTargetExponent Format.binary64 m e accuracy =
      (ExtendedMantissa.ofMantissaAndAccuracy m accuracy >>> (t - e).toNat, t) := by
    rw [shiftToTargetExponent, shiftToExponent, htarget, hexp]
  simp only [roundWithAccuracy, hfirst, hround]
  split
  · next h0 =>
    rw [h0, magnitudeUnits, Nat.zero_mul] at hfinal
    exact .zero hfinal.symm
  · exact .finite hfinal hbounds

/-! ### Packing -/

/-- Packing, by the biased exponent. -/
theorem pack_finite (s : Sign) (m : ℕ) (e : ℤ) (hm : 0 < m) :
    pack Format.binary64 (.finite s m e hm) =
      if 2048 ≤ (e + 1075).toNat + 1 then packedInfinity Format.binary64 s
      else if m.log2 + 1 = 53 then
        packComponents Format.binary64 s (BitVec.ofNat _ (e + 1075).toNat) (BitVec.ofNat _ m)
      else packComponents Format.binary64 s 0#_ (BitVec.ofNat _ m) := by
  have hbias : e + (Format.binary64.exponentBias : ℤ) +
      (Format.binary64.mantissaBitsWithoutImplicit : ℤ) = e + 1075 := by
    have hbias : (Format.binary64.exponentBias : ℤ) = 1023 := rfl
    have hplaces : (Format.binary64.mantissaBitsWithoutImplicit : ℤ) = 52 := rfl
    omega
  unfold UnpackedFloat.pack
  dsimp only
  rw [hbias]
  rfl

theorem unpack_packedInfinity (s : Sign) :
    unpack Format.binary64 (packedInfinity Format.binary64 s) = .infinity s := by
  cases s <;> rfl

/-- The parts of a bit pattern with given components, of a mantissa the lower bits only. -/
theorem unpack_packComponents (s : Sign) (m : ℕ) {E : ℕ} (hE : E < 2047) :
    unpack Format.binary64 (packComponents Format.binary64 s (BitVec.ofNat _ E)
      (BitVec.ofNat _ m)) =
      if E = 0 then
        if h : m % fractions = 0 then .zero s
        else .finite s (m % fractions) (-1074) (Nat.pos_of_ne_zero h)
      else .finite s (fractions + m % fractions) (E - 1075) (by simp [fractions]) := by
  have hexponent : exponentField (packComponents Format.binary64 s (BitVec.ofNat _ E)
      (BitVec.ofNat _ m)).toNat = E := by
    rw [← toNat_unpackExponent, unpackExponent_packComponents, BitVec.toNat_ofNat]
    exact Nat.mod_eq_of_lt (lt_trans hE (by decide))
  have hfraction : fractionField (packComponents Format.binary64 s (BitVec.ofNat _ E)
      (BitVec.ofNat _ m)).toNat = m % fractions := by
    rw [← toNat_unpackMantissa, unpackMantissa_packComponents, BitVec.toNat_ofNat]
    rfl
  have hsign : signField (packComponents Format.binary64 s (BitVec.ofNat _ E)
      (BitVec.ofNat _ m)).toNat = s := by
    rw [← ofBitVec_unpackSign, unpackSign_packComponents]
  rw [unpack_eq]
  simp only [hexponent, hfraction, hsign]
  rw [if_neg hE.ne]

/-- **Packing keeps the parts of a double.** -/
theorem unpack_pack {s : Sign} {m : ℕ} {e : ℤ} {hm : 0 < m} (h : IsCanonical m e) :
    unpack Format.binary64 (pack Format.binary64 (.finite s m e hm)) = .finite s m e hm := by
  obtain ⟨hlt, hge, hle, hnormal⟩ := h
  rw [pack_finite, if_neg (by omega)]
  rcases lt_or_ge m fractions with hsmall | hlarge
  · -- without its leading bit, the mantissa is all there is
    obtain rfl : e = -1074 := hnormal.resolve_left (by omega)
    have hlog : ¬m.log2 + 1 = 53 := by
      have h52 : m.log2 < 52 := (Nat.log2_lt hm.ne').mpr hsmall
      omega
    have hmod : m % fractions = m := Nat.mod_eq_of_lt hsmall
    have hfield := unpack_packComponents s m (E := 0) (by norm_num)
    simp only [hmod, if_true, dif_neg hm.ne'] at hfield
    rw [if_neg hlog]
    exact hfield
  · have hlog : m.log2 + 1 = 53 := by
      have hge52 : 52 ≤ m.log2 := (Nat.le_log2 hm.ne').mpr hlarge
      have hlt53 : m.log2 < 53 := (Nat.log2_lt hm.ne').mpr hlt
      omega
    have hmod : fractions + m % fractions = m := by
      rw [Nat.mod_eq_sub_mod hlarge, Nat.mod_eq_of_lt (by omega)]
      omega
    have hfield := unpack_packComponents s m (E := (e + 1075).toNat) (by omega)
    rw [if_neg (by omega : ¬(e + 1075).toNat = 0)] at hfield
    have hexp : ((e + 1075).toNat : ℤ) - 1075 = e := by omega
    simp only [hmod, hexp] at hfield
    rw [if_pos hlog]
    exact hfield

theorem magnitudeUnits_mono {m₁ m₂ : ℕ} {e₁ e₂ : ℤ} (hm : m₁ ≤ m₂) (he : e₁ ≤ e₂) :
    magnitudeUnits m₁ e₁ ≤ magnitudeUnits m₂ e₂ :=
  Nat.mul_le_mul hm (Nat.pow_le_pow_right two_pos (by omega))

/-- Packing makes an infinity of an exponent that is too great. -/
theorem unpack_pack_overflow {s : Sign} {m : ℕ} {e : ℤ} {hm : 0 < m} (h : 972 ≤ e) :
    unpack Format.binary64 (pack Format.binary64 (.finite s m e hm)) = .infinity s := by
  rw [pack_finite, if_pos (by omega), unpack_packedInfinity]

/-- **A rounded magnitude, packed**: what is too large becomes the infinity. -/
theorem IsRounding.unpack_pack {s : Sign} {n : ℕ} {u : UnpackedFloat} (h : IsRounding s n u) :
    (unpack Format.binary64 (pack Format.binary64 u)).isNaN = false ∧
      partUnits (unpack Format.binary64 (pack Format.binary64 u)) =
        s.apply (min n infiniteUnits : ℕ) := by
  cases h with
  | zero h =>
    rw [h, Nat.zero_min]
    cases s <;> exact ⟨rfl, rfl⟩
  | @finite m e hm h hbounds =>
    subst h
    rcases le_or_gt e 971 with hle | hgt
    · have hcan : IsCanonical m e := ⟨hbounds.lt, hbounds.ge, hle, hbounds.normal⟩
      rw [Binary64.unpack_pack hcan, min_eq_left hcan.lt_infiniteUnits.le]
      exact ⟨rfl, rfl⟩
    · have hm' : fractions ≤ m := hbounds.normal.resolve_right (by omega)
      have hge : infiniteUnits ≤ magnitudeUnits m e := magnitudeUnits_mono hm' hgt
      rw [unpack_pack_overflow hgt, min_eq_right hge]
      exact ⟨rfl, rfl⟩

end MixedWorkload.Binary64

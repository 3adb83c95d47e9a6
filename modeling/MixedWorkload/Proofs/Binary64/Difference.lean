import MixedWorkload.Proofs.Binary64.Order

/-!
# The sign of a difference

A difference of doubles is rounded, and rounding may turn it into a zero or an infinity,
but it never changes sides: `MixedWorkload.Binary64.sub_nonneg` says that a number less
another one that is finite and not greater stays at or above zero. The one hypothesis that
cannot be spared is that the subtrahend is finite, since the difference of two equal
infinities is no number (`MixedWorkload.Binary64.sub_infinities`).

A difference does not tell the two zeros apart either, except for the sign of a zero result
(`MixedWorkload.Binary64.sub_congr`).
-/

namespace MixedWorkload.Binary64

open Float.Model (Format UnpackedFloat)

open Float.Model.UnpackedFloat

/-! ### Parts that are not negative -/

/-- The parts of a number that is at least zero, by which either zero may be meant. -/
def IsNonneg (u : UnpackedFloat) : Prop :=
  u.isNaN = false ∧ 0 ≤ partUnits u

theorem isNonneg_of_hasSign {u : UnpackedFloat} (h : HasSign .positive u) : IsNonneg u := by
  cases u with
  | notANumber => exact absurd h id
  | zero s => exact ⟨rfl, le_rfl⟩
  | infinity s =>
    obtain rfl : s = .positive := h
    exact ⟨rfl, Int.natCast_nonneg infiniteUnits⟩
  | finite s m e hm =>
    obtain rfl : s = .positive := h
    exact ⟨rfl, Int.natCast_nonneg (magnitudeUnits m e)⟩

/-- **Packing does not change sides.** -/
theorem isNonneg_unpack_pack {u : UnpackedFloat} (h : IsNonneg u) :
    IsNonneg (unpack Format.binary64 (pack Format.binary64 u)) := by
  cases u with
  | notANumber => exact absurd h.1 (by simp [UnpackedFloat.isNaN])
  | zero s => cases s <;> exact ⟨rfl, le_rfl⟩
  | infinity s =>
    cases s with
    | positive => exact isNonneg_of_hasSign (hasSign_unpack_packComponents _ fun _ => rfl)
    | negative =>
      have hpos := infiniteUnits_pos
      have hle := h.2
      simp only [partUnits, Sign.apply] at hle
      omega
  | finite s m e hm =>
    cases s with
    | positive => exact isNonneg_of_hasSign (hasSign_unpack_pack .positive m e hm)
    | negative =>
      have hpos := magnitudeUnits_pos e hm
      have hle := h.2
      simp only [partUnits, Sign.apply] at hle
      omega

/-- A double of parts that are not negative is at least zero. -/
theorem zero_le_packed {u : UnpackedFloat} (h : IsNonneg u) : 0.0 ≤ packed u := by
  obtain ⟨hn, hle⟩ := isNonneg_unpack_pack h
  exact le_iff.mpr ⟨rfl, hn, hle⟩

/-! ### Rounding a difference -/

/-- Rounding keeps the sign, whatever is left of the mantissa. -/
theorem hasSign_round (s : Sign) (m : ℕ) (e : ℤ) :
    HasSign s (UnpackedFloat.round Format.binary64 s m e) := by
  simp only [UnpackedFloat.round, roundWithAccuracy]
  split <;> rfl

/-- A signed mantissa that is not negative stays so. -/
theorem isNonneg_normalize {m : ℤ} (e : ℤ) (hm : 0 ≤ m) :
    IsNonneg (UnpackedFloat.normalize Format.binary64 m e .positive) := by
  unfold UnpackedFloat.normalize
  rcases hm.eq_or_lt with rfl | hpos
  · exact ⟨rfl, le_rfl⟩
  · rw [compare_gt_iff_gt.mpr hpos]
    exact isNonneg_of_hasSign (hasSign_round .positive m.toNat e)

/-- **Aligned mantissas**: brought to a lower exponent, a mantissa still measures the same
number of units. -/
theorem decreaseExponent_units (m : ℕ) {e e' : ℤ} (hge : -1074 ≤ e') (hle : e' ≤ e) :
    (decreaseExponent m e e').1 * 2 ^ (e' + 1074).toNat = magnitudeUnits m e := by
  have hsplit : (e + 1074).toNat = (e - e').toNat + (e' + 1074).toNat := by omega
  simp only [decreaseExponent, magnitudeUnits]
  rw [Nat.shiftLeft_eq, mul_assoc, ← pow_add, hsplit]

theorem apply_mul (s : Sign) (a b : ℤ) : s.apply (a * b) = s.apply a * b := by
  cases s
  · exact (Int.neg_mul a b).symm
  · rfl

/-- The mantissa of a difference of finite values has the sign of the difference. -/
theorem aligned_sub_nonneg {s₁ s₂ : Sign} {m₁ m₂ : ℕ} {e₁ e₂ : ℤ} {h₁ : 0 < m₁} {h₂ : 0 < m₂}
    (hge₁ : -1074 ≤ e₁) (hge₂ : -1074 ≤ e₂)
    (h : partUnits (.finite s₂ m₂ e₂ h₂) ≤ partUnits (.finite s₁ m₁ e₁ h₁)) :
    0 ≤ s₁.apply (decreaseExponent m₁ e₁ (min e₁ e₂)).1 -
      s₂.apply (decreaseExponent m₂ e₂ (min e₁ e₂)).1 := by
  have hge : -1074 ≤ min e₁ e₂ := le_min hge₁ hge₂
  -- both sides are multiples of the unit of the lower exponent, which cancels
  have hpos : (0 : ℤ) < 2 ^ (min e₁ e₂ + 1074).toNat := by positivity
  simp only [partUnits, ← decreaseExponent_units m₁ hge (min_le_left e₁ e₂),
    ← decreaseExponent_units m₂ hge (min_le_right e₁ e₂), Nat.cast_mul, Nat.cast_pow,
    Nat.cast_ofNat, apply_mul] at h
  exact sub_nonneg_of_le (le_of_mul_le_mul_right h hpos)

/-- **The difference of parts in order** is not negative, if the second are finite. -/
theorem isNonneg_sub {u v : UnpackedFloat} (hu : IsDecoded u) (hv : IsDecoded v)
    (hn : u.isNaN = false) (hf : v.isFinite = true) (h : partUnits v ≤ partUnits u) :
    IsNonneg (UnpackedFloat.sub Format.binary64 u v) := by
  have hinf := infiniteUnits_pos
  cases v with
  | notANumber | infinity s' => exact absurd hf (by simp [UnpackedFloat.isFinite])
  | zero s' =>
    cases u with
    | notANumber => exact absurd hn (by simp [UnpackedFloat.isNaN])
    | zero s => cases s <;> cases s' <;> exact ⟨rfl, le_rfl⟩
    | infinity s | finite s m e hm => exact ⟨rfl, h⟩
  | finite s' m' e' hm' =>
    have hpos' := magnitudeUnits_pos e' hm'
    cases u with
    | notANumber => exact absurd hn (by simp [UnpackedFloat.isNaN])
    | infinity s =>
      -- an infinity outweighs what is finite, and the negative one is not above it
      have hlt := IsCanonical.lt_infiniteUnits hv
      cases s with
      | positive => exact ⟨rfl, Int.natCast_nonneg infiniteUnits⟩
      | negative =>
        cases s' <;> simp only [partUnits, Sign.apply] at h <;> omega
    | zero s =>
      cases s' with
      | negative => exact ⟨rfl, Int.natCast_nonneg (magnitudeUnits m' e')⟩
      | positive =>
        simp only [partUnits, Sign.apply] at h
        omega
    | finite s m e hm =>
      exact isNonneg_normalize _ (aligned_sub_nonneg (IsCanonical.ge hu) (IsCanonical.ge hv) h)

/-- **A difference keeps its side of zero**: what is left of a number after taking off a
finite one that is not greater is at least zero. -/
theorem sub_nonneg {x y : Float} (hx : x.isNaN = false) (hy : y.isFinite = true)
    (h : units y ≤ units x) : 0.0 ≤ x - y := by
  rw [sub_eq_packed]
  exact zero_le_packed (isNonneg_sub (isDecoded_decoded x) (isDecoded_decoded y) hx hy h)

/-! ### What is no number -/

theorem notANumber_sub (v : UnpackedFloat) :
    UnpackedFloat.sub Format.binary64 .notANumber v = .notANumber := by
  cases v <;> rfl

theorem decoded_of_isNaN {x : Float} (hx : x.isNaN = true) : decoded x = .notANumber := by
  rw [isNaN_eq] at hx
  cases hd : decoded x with
  | notANumber => rfl
  | infinity | zero | finite =>
    rw [hd] at hx
    exact absurd hx (by simp [UnpackedFloat.isNaN])

/-- There is only one double that is no number. -/
theorem eq_of_isNaN {x y : Float} (hx : x.isNaN = true) (hy : y.isNaN = true) : x = y :=
  decoded_injective ((decoded_of_isNaN hx).trans (decoded_of_isNaN hy).symm)

/-- Nothing can be taken off what is no number. -/
theorem isNaN_sub {x : Float} (y : Float) (hx : x.isNaN = true) : (x - y).isNaN = true := by
  rw [sub_eq_packed, decoded_of_isNaN hx, notANumber_sub]
  rfl

/-- Two infinities of one sign have no difference. -/
theorem sub_infinities : (-infinity - -infinity).isNaN = true := rfl

/-! ### The two zeros in a difference -/

theorem zero_sub_congr (s s' : Sign) {v : UnpackedFloat} (hv : ∀ t, v ≠ .zero t) :
    UnpackedFloat.sub Format.binary64 (.zero s) v =
      UnpackedFloat.sub Format.binary64 (.zero s') v := by
  cases v with
  | zero t => exact absurd rfl (hv t)
  | notANumber | infinity | finite => rfl

theorem sub_zero_congr (s s' : Sign) {u : UnpackedFloat} (hu : ∀ t, u ≠ .zero t) :
    UnpackedFloat.sub Format.binary64 u (.zero s) =
      UnpackedFloat.sub Format.binary64 u (.zero s') := by
  cases u with
  | zero t => exact absurd rfl (hu t)
  | notANumber | infinity | finite => rfl

theorem zero_sub_zero_units (s s' : Sign) :
    partUnits (unpack Format.binary64 (pack Format.binary64
      (UnpackedFloat.sub Format.binary64 (.zero s) (.zero s')))) = 0 := by
  cases s <;> cases s' <;> rfl

/-- Numbers of the same units are the same number or both a zero. -/
theorem eq_or_zeros {x x' : Float} (hx : x.isNaN = false) (hx' : x'.isNaN = false)
    (h : units x = units x') :
    x = x' ∨ ∃ s s', decoded x = .zero s ∧ decoded x' = .zero s' := by
  by_cases h0 : units x = 0
  · obtain ⟨s, hs⟩ := partUnits_eq_zero h0 hx
    obtain ⟨s', hs'⟩ := partUnits_eq_zero (h ▸ h0 : units x' = 0) hx'
    exact Or.inr ⟨s, s', hs, hs'⟩
  · exact Or.inl (eq_of_units_eq h h0)

/-- **A difference does not tell the zeros apart**, unless it is a zero itself. -/
theorem sub_congr {x x' y y' : Float} (hx : x.isNaN = false) (hx' : x'.isNaN = false)
    (hy : y.isNaN = false) (hy' : y'.isNaN = false) (hxx : units x = units x')
    (hyy : units y = units y') :
    x - y = x' - y' ∨ units (x - y) = 0 ∧ units (x' - y') = 0 := by
  rcases eq_or_zeros hx hx' hxx with rfl | ⟨s, s', hs, hs'⟩
  · rcases eq_or_zeros hy hy' hyy with rfl | ⟨t, t', ht, ht'⟩
    · exact Or.inl rfl
    · -- the subtrahends are zeros, and count for nothing unless the minuend is one, too
      by_cases h0 : ∃ s, decoded x = .zero s
      · obtain ⟨s, hs⟩ := h0
        refine Or.inr ⟨?_, ?_⟩
        · rw [sub_eq_packed, units, decoded_packed, hs, ht, zero_sub_zero_units]
        · rw [sub_eq_packed, units, decoded_packed, hs, ht', zero_sub_zero_units]
      · refine Or.inl ?_
        rw [sub_eq_packed, sub_eq_packed, ht, ht',
          sub_zero_congr t t' fun s hs => h0 ⟨s, hs⟩]
  · rcases eq_or_zeros hy hy' hyy with rfl | ⟨t, t', ht, ht'⟩
    · -- the same the other way round
      by_cases h0 : ∃ t, decoded y = .zero t
      · obtain ⟨t, ht⟩ := h0
        refine Or.inr ⟨?_, ?_⟩
        · rw [sub_eq_packed, units, decoded_packed, hs, ht, zero_sub_zero_units]
        · rw [sub_eq_packed, units, decoded_packed, hs', ht, zero_sub_zero_units]
      · refine Or.inl ?_
        rw [sub_eq_packed, sub_eq_packed, hs, hs',
          zero_sub_congr s s' fun t ht => h0 ⟨t, ht⟩]
    · refine Or.inr ⟨?_, ?_⟩
      · rw [sub_eq_packed, units, decoded_packed, hs, ht, zero_sub_zero_units]
      · rw [sub_eq_packed, units, decoded_packed, hs', ht', zero_sub_zero_units]

end MixedWorkload.Binary64

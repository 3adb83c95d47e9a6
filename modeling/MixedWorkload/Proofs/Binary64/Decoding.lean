import Mathlib
import MixedWorkload.Binary64.Basic

/-!
# The fields of a double

The core library says what a double is by taking its bit pattern apart into a sign, a
mantissa and an exponent, and every operation on doubles is defined on these parts. This
file describes the parts in the arithmetic of natural numbers.

* `MixedWorkload.Binary64.unpack_eq` reads the parts off the three fields of the bit
  pattern.
* `MixedWorkload.Binary64.isCanonical_of_decoded` gives the bounds of a mantissa and an
  exponent: they are the reason why a comparison may look at the exponents first.
* `MixedWorkload.Binary64.decoded_injective` says that the parts determine the double. It
  holds because there is only one double that is no number.
* `MixedWorkload.Binary64.hasSign_unpack_pack` says that whatever rounding does to a
  finite value, it keeps the sign and never makes it no number.
-/

namespace MixedWorkload.Binary64

open Float.Model (Format UnpackedFloat)

open Float.Model.UnpackedFloat

/-- The parts of a double. -/
def decoded (x : Float) : UnpackedFloat :=
  x.toModel.unpack

/-! ### The three fields -/

/-- The exponent field of a bit pattern. -/
def exponentField (bits : ℕ) : ℕ := bits / fractions % 2048

/-- The fraction field of a bit pattern. -/
def fractionField (bits : ℕ) : ℕ := bits % fractions

/-- The sign of a bit pattern. -/
def signField (bits : ℕ) : Sign := if bits < signPlace then .positive else .negative

theorem fractionField_lt (bits : ℕ) : fractionField bits < fractions :=
  Nat.mod_lt _ (by simp [fractions])

theorem exponentField_lt (bits : ℕ) : exponentField bits < 2048 :=
  Nat.mod_lt _ (by norm_num)

theorem toNat_unpackExponent (b : BitVec Format.binary64.numBits) :
    (unpackExponent b).toNat = exponentField b.toNat := by
  simp [unpackExponent, BitVec.extractLsb, BitVec.extractLsb'_toNat, Nat.shiftRight_eq_div_pow,
    exponentField, fractions]

theorem toNat_unpackMantissa (b : BitVec Format.binary64.numBits) :
    (unpackMantissa b).toNat = fractionField b.toNat := by
  simp [unpackMantissa, BitVec.extractLsb, BitVec.extractLsb'_toNat, fractionField, fractions]

theorem ofBitVec_unpackSign (b : BitVec Format.binary64.numBits) :
    Sign.ofBitVec (unpackSign b) = signField b.toNat := by
  -- the sign is the top bit, which is set from its own place value on
  have hb : b.toNat < 2 ^ 64 := b.isLt
  have hs : (unpackSign b).toNat = b.toNat / signPlace := by
    simp only [unpackSign, BitVec.extractLsb, BitVec.toNat_cast, BitVec.extractLsb'_toNat,
      Nat.shiftRight_eq_div_pow, signPlace]
    norm_num at hb ⊢
    omega
  have hz : unpackSign b = 0#1 ↔ b.toNat < signPlace := by
    rw [← BitVec.toNat_inj, hs]
    simp [Nat.div_eq_zero_iff, signPlace]
  simp only [Sign.ofBitVec, signField, hz]

/-- **The parts of a bit pattern**, read off its fields: an exponent field of all ones is
for what is not finite, and one of zero for what has no leading one. -/
theorem unpack_eq (b : BitVec Format.binary64.numBits) :
    unpack Format.binary64 b =
      if exponentField b.toNat = 2047 then
        if fractionField b.toNat = 0 then .infinity (signField b.toNat) else .notANumber
      else if exponentField b.toNat = 0 then
        if h : fractionField b.toNat = 0 then .zero (signField b.toNat)
        else .finite (signField b.toNat) (fractionField b.toNat) (-1074) (Nat.pos_of_ne_zero h)
      else
        .finite (signField b.toNat) (fractions + fractionField b.toNat)
          (exponentField b.toNat - 1075) (by simp [fractions]) := by
  have hE := toNat_unpackExponent b
  have hM := toNat_unpackMantissa b
  -- each test of the bits is a test of a field
  have h2047 : unpackExponent b = -1#_ ↔ exponentField b.toNat = 2047 := by
    rw [← BitVec.toNat_inj, hE]
    rfl
  have hE0 : unpackExponent b = 0#_ ↔ exponentField b.toNat = 0 := by
    rw [← BitVec.toNat_inj, hE]
    rfl
  have hM0 : unpackMantissa b = 0#_ ↔ fractionField b.toNat = 0 := by
    rw [← BitVec.toNat_inj, hM]
    rfl
  -- the leading one stands above the fraction, so putting it in front is adding it
  have hone : (1#1 ++ unpackMantissa b).toNat = fractions + fractionField b.toNat := by
    have hF : fractionField b.toNat < 2 ^ 52 := fractionField_lt _
    rw [BitVec.toNat_append, hM, Nat.shiftLeft_eq, Nat.or_comm, BitVec.toNat_ofNat,
      show (1 % 2 ^ 1) * 2 ^ Format.binary64.mantissaBitsWithoutImplicit = 2 ^ 52 from rfl,
      Nat.or_two_pow_eq_add_of_lt hF, Nat.add_comm]
    rfl
  unfold UnpackedFloat.unpack
  simp only [h2047, hE0, hM0, ofBitVec_unpackSign, hM, hE, hone]
  by_cases h0 : exponentField b.toNat = 0
  · simp only [h0]
    rfl
  · simp only [h0, if_false]
    rfl

theorem decoded_eq_unpack (x : Float) :
    decoded x = unpack Format.binary64 x.toBits.toBitVec := rfl

/-! ### Bounds of the parts -/

/-- **The bounds of a mantissa and an exponent**: fifty-three bits, and fewer only at the
least exponent. -/
structure IsCanonical (m : ℕ) (e : ℤ) : Prop where
  /-- A mantissa has at most fifty-three bits. -/
  lt : m < 2 * fractions
  /-- No exponent is less than that of the least double. -/
  ge : -1074 ≤ e
  /-- No exponent is greater than that of the greatest finite double. -/
  le : e ≤ 971
  /-- Only at the least exponent is the leading bit missing. -/
  normal : fractions ≤ m ∨ e = -1074

theorem isCanonical_of_unpack {b : BitVec Format.binary64.numBits} {s : Sign} {m : ℕ} {e : ℤ}
    {hm : 0 < m} (h : unpack Format.binary64 b = .finite s m e hm) : IsCanonical m e := by
  have hF := fractionField_lt b.toNat
  have hE := exponentField_lt b.toNat
  rw [unpack_eq] at h
  split at h
  · split at h <;> cases h
  · split at h
    · split at h
      · cases h
      · injection h with _ h₂ h₃
        exact ⟨by omega, by omega, by omega, Or.inr h₃.symm⟩
    · injection h with _ h₂ h₃
      exact ⟨by omega, by omega, by omega, Or.inl (by omega)⟩

theorem isCanonical_of_decoded {x : Float} {s : Sign} {m : ℕ} {e : ℤ} {hm : 0 < m}
    (h : decoded x = .finite s m e hm) : IsCanonical m e :=
  isCanonical_of_unpack h

/-! ### The parts determine the double -/

/-- The bit of a sign, at its place. -/
def signBit : Sign → ℕ
  | .positive => 0
  | .negative => signPlace

/-- The bit pattern that has given parts, if a double has them. -/
def pattern : UnpackedFloat → ℕ
  | .infinity s => signBit s + infiniteMagnitude
  | .notANumber => (packedNaN Format.binary64).toNat
  | .zero s => signBit s
  | .finite s m e _ =>
    signBit s + if m < fractions then m else (e + 1075).toNat * fractions + (m - fractions)

/-- A bit pattern is the sum of its fields. -/
theorem sum_fields {bits : ℕ} (h : bits < 2 ^ 64) :
    bits = signBit (signField bits) + (exponentField bits * fractions + fractionField bits) := by
  unfold signField exponentField fractionField fractions
  split
  · next hs =>
    unfold signPlace at hs
    simp only [signBit]
    omega
  · next hs =>
    unfold signPlace at hs
    simp only [signBit, signPlace]
    omega

/-- Only one bit pattern of a double is no number. -/
theorem eq_packedNaN_of_fields (x : Float) (hE : exponentField x.toBits.toBitVec.toNat = 2047)
    (hF : fractionField x.toBits.toBitVec.toNat ≠ 0) :
    x.toBits.toBitVec = packedNaN Format.binary64 := by
  refine x.toModel.valid.eq_packedNaN ?_ ?_
  · rw [← BitVec.toNat_inj, toNat_unpackExponent]
    exact hE
  · rw [Ne, ← BitVec.toNat_inj, toNat_unpackMantissa]
    exact hF

/-- **The parts give the bit pattern back.** -/
theorem pattern_decoded (x : Float) : pattern (decoded x) = x.toBits.toBitVec.toNat := by
  have hF := fractionField_lt x.toBits.toBitVec.toNat
  -- the cases are those of the fields: all ones, zero, and the exponents between
  refine Eq.trans ?_ (sum_fields x.toBits.toBitVec.isLt).symm
  rw [decoded_eq_unpack, unpack_eq]
  split
  · next hE =>
    split
    · next hF0 => rw [hE, hF0, pattern, infiniteMagnitude, Nat.add_zero]
    · next hF0 =>
      rw [← sum_fields x.toBits.toBitVec.isLt, eq_packedNaN_of_fields x hE hF0, pattern]
  · split
    · next hE =>
      split
      · next hF0 => simp only [pattern, hE, hF0, Nat.zero_mul, Nat.add_zero]
      · simp only [pattern, hE, if_pos hF, Nat.zero_mul, Nat.zero_add]
    · have hE : ((exponentField x.toBits.toBitVec.toNat : ℤ) - 1075 + 1075).toNat =
          exponentField x.toBits.toBitVec.toNat := by omega
      simp only [pattern]
      rw [if_neg (by omega), Nat.add_sub_cancel_left, hE]

theorem decoded_injective : Function.Injective decoded := by
  intro x y h
  have hbits : x.toBits.toBitVec.toNat = y.toBits.toBitVec.toNat := by
    rw [← pattern_decoded, ← pattern_decoded, h]
  obtain ⟨⟨bx, _⟩⟩ := x
  obtain ⟨⟨b', _⟩⟩ := y
  obtain rfl : bx = b' := UInt64.toBitVec_inj.mp (BitVec.eq_of_toNat_eq hbits)
  rfl

/-! ### Putting parts together -/

/-- **A number of a given sign**, which a zero and an infinity have, too. -/
def HasSign (s : Sign) : UnpackedFloat → Prop
  | .infinity s' => s' = s
  | .notANumber => False
  | .zero s' => s' = s
  | .finite s' _ _ _ => s' = s

theorem unpackSign_packComponents (s : Sign) (e : BitVec Format.binary64.exponentBits)
    (m : BitVec Format.binary64.mantissaBitsWithoutImplicit) :
    Sign.ofBitVec (unpackSign (packComponents Format.binary64 s e m)) = s := by
  have h : unpackSign (packComponents Format.binary64 s e m) = s.toBitVec := by
    change (s.toBitVec ++ e ++ m).extractLsb' 63 1 = s.toBitVec
    rw [BitVec.extractLsb'_append_eq_of_le (by decide),
      BitVec.extractLsb'_append_eq_of_le (by decide)]
    cases s <;> rfl
  rw [h]
  cases s <;> rfl

theorem hasSign_unpack_packComponents (s : Sign) {e : BitVec Format.binary64.exponentBits}
    {m : BitVec Format.binary64.mantissaBitsWithoutImplicit} (h : e = -1#_ → m = 0#_) :
    HasSign s (unpack Format.binary64 (packComponents Format.binary64 s e m)) := by
  unfold UnpackedFloat.unpack
  simp only [unpackExponent_packComponents, unpackMantissa_packComponents,
    unpackSign_packComponents]
  split
  · next he => rw [if_pos (h he)]; rfl
  · split
    · split <;> rfl
    · rfl

/-- **Packing keeps the sign**, whatever the mantissa and the exponent: the value may
become a zero or an infinity of the sign, but always stays a number. -/
theorem hasSign_unpack_pack (s : Sign) (m : ℕ) (e : ℤ) (hm : 0 < m) :
    HasSign s (unpack Format.binary64 (pack Format.binary64 (.finite s m e hm))) := by
  unfold UnpackedFloat.pack
  dsimp only
  split
  · exact hasSign_unpack_packComponents s fun _ => rfl
  · next hsmall =>
    split
    · -- an exponent of all ones was already an overflow
      refine hasSign_unpack_packComponents s fun hall => ?_
      have hfield := congrArg BitVec.toNat hall
      rw [BitVec.toNat_ofNat] at hfield
      change _ % 2048 = 2047 at hfield
      change ¬2048 ≤ _ at hsmall
      omega
    · exact hasSign_unpack_packComponents s fun hall => absurd hall (by decide)

/-- The double with given parts. -/
def packed (u : UnpackedFloat) : Float :=
  Float.ofModel (Float.Model.pack u)

theorem decoded_packed (u : UnpackedFloat) :
    decoded (packed u) = unpack Format.binary64 (pack Format.binary64 u) := rfl

theorem sub_eq_packed (x y : Float) :
    x - y = packed (UnpackedFloat.sub Format.binary64 (decoded x) (decoded y)) := rfl

end MixedWorkload.Binary64

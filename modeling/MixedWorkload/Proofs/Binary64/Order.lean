import MixedWorkload.Extremes
import MixedWorkload.Proofs.Binary64.Decoding

/-!
# The order of doubles

Every finite double is a multiple of the least positive one, so it is an integer when that
is the unit of measure. `MixedWorkload.Binary64.units` is this integer; an infinity is one
more step of the same scale, above the greatest finite double. Comparison of doubles is
comparison of these integers (`MixedWorkload.Binary64.lt_iff`,
`MixedWorkload.Binary64.le_iff`), once it is known that both sides are numbers. The two
zeros are the only doubles with the same units
(`MixedWorkload.Binary64.eq_of_units_eq`).
-/

namespace MixedWorkload.Binary64

open Float.Model (Format UnpackedFloat)

open Float.Model.UnpackedFloat

/-! ### Measuring in units of the least double -/

/-- A mantissa with its exponent, in units of the least positive double. -/
def magnitudeUnits (m : ℕ) (e : ℤ) : ℕ := m * 2 ^ (e + 1074).toNat

/-- The infinity in the same units, where the finite doubles leave off. -/
def infiniteUnits : ℕ := magnitudeUnits fractions 972

/-- The parts of a number in units of the least positive double. -/
def partUnits : UnpackedFloat → ℤ
  | .infinity s => s.apply infiniteUnits
  | .notANumber => 0
  | .zero _ => 0
  | .finite s m e _ => s.apply (magnitudeUnits m e)

/-- **A double in units of the least positive one.** -/
def units (x : Float) : ℤ := partUnits (decoded x)

theorem magnitudeUnits_pos {m : ℕ} (e : ℤ) (hm : 0 < m) : 0 < magnitudeUnits m e :=
  Nat.mul_pos hm (Nat.two_pow_pos _)

theorem infiniteUnits_pos : 0 < infiniteUnits :=
  magnitudeUnits_pos 972 (by simp [fractions])

/-- **The exponent decides first**: with the leading bit of the second mantissa set, the
magnitude with the greater exponent is the greater. -/
theorem magnitudeUnits_lt {m₁ m₂ : ℕ} {e₁ e₂ : ℤ} (h₁ : m₁ < 2 * fractions) (hge : -1074 ≤ e₁)
    (h₂ : fractions ≤ m₂) (he : e₁ < e₂) : magnitudeUnits m₁ e₁ < magnitudeUnits m₂ e₂ := by
  have hpow : 2 * 2 ^ (e₁ + 1074).toNat ≤ 2 ^ (e₂ + 1074).toNat := by
    rw [← pow_succ']
    exact Nat.pow_le_pow_right (by norm_num) (by omega)
  calc m₁ * 2 ^ (e₁ + 1074).toNat
      < 2 * fractions * 2 ^ (e₁ + 1074).toNat :=
        Nat.mul_lt_mul_of_pos_right h₁ (Nat.two_pow_pos _)
    _ = fractions * (2 * 2 ^ (e₁ + 1074).toNat) := by ring
    _ ≤ m₂ * 2 ^ (e₂ + 1074).toNat := Nat.mul_le_mul h₂ hpow

/-- Canonical magnitudes with different exponents are in the order of the exponents. -/
theorem IsCanonical.magnitudeUnits_lt {m₁ m₂ : ℕ} {e₁ e₂ : ℤ} (h₁ : IsCanonical m₁ e₁)
    (h₂ : IsCanonical m₂ e₂) (he : e₁ < e₂) : magnitudeUnits m₁ e₁ < magnitudeUnits m₂ e₂ := by
  have hge := h₁.ge
  exact Binary64.magnitudeUnits_lt h₁.lt hge (h₂.normal.resolve_right (by omega)) he

/-- A finite magnitude is below the infinite one. -/
theorem IsCanonical.lt_infiniteUnits {m : ℕ} {e : ℤ} (h : IsCanonical m e) :
    magnitudeUnits m e < infiniteUnits := by
  have hle := h.le
  exact Binary64.magnitudeUnits_lt h.lt h.ge le_rfl (by omega)

theorem compare_mul_right {a b c : ℕ} (hc : 0 < c) : compare (a * c) (b * c) = compare a b := by
  rcases lt_trichotomy a b with h | rfl | h
  · rw [compare_lt_iff_lt.mpr h, compare_lt_iff_lt.mpr (Nat.mul_lt_mul_of_pos_right h hc)]
  · rw [compare_eq_iff_eq.mpr rfl, compare_eq_iff_eq.mpr rfl]
  · rw [compare_gt_iff_gt.mpr h, compare_gt_iff_gt.mpr (Nat.mul_lt_mul_of_pos_right h hc)]

/-- **Comparing canonical magnitudes**: first the exponents, then the mantissas. -/
theorem compare_magnitudes {m₁ m₂ : ℕ} {e₁ e₂ : ℤ} (h₁ : IsCanonical m₁ e₁)
    (h₂ : IsCanonical m₂ e₂) :
    (compare e₁ e₂).then (compare m₁ m₂) =
      compare (magnitudeUnits m₁ e₁) (magnitudeUnits m₂ e₂) := by
  rcases lt_trichotomy e₁ e₂ with he | rfl | he
  · rw [compare_lt_iff_lt.mpr he, compare_lt_iff_lt.mpr (h₁.magnitudeUnits_lt h₂ he)]
    rfl
  · rw [compare_eq_iff_eq.mpr rfl, Ordering.eq_then]
    exact (compare_mul_right (Nat.two_pow_pos _)).symm
  · rw [compare_gt_iff_gt.mpr he, compare_gt_iff_gt.mpr (h₂.magnitudeUnits_lt h₁ he)]
    rfl

/-- Canonical magnitudes are equal only if their parts are. -/
theorem eq_of_magnitudeUnits_eq {m₁ m₂ : ℕ} {e₁ e₂ : ℤ} (h₁ : IsCanonical m₁ e₁)
    (h₂ : IsCanonical m₂ e₂) (h : magnitudeUnits m₁ e₁ = magnitudeUnits m₂ e₂) :
    m₁ = m₂ ∧ e₁ = e₂ := by
  have hc := compare_magnitudes h₁ h₂
  rw [compare_eq_iff_eq.mpr h, Ordering.then_eq_eq] at hc
  exact ⟨compare_eq_iff_eq.mp hc.2, compare_eq_iff_eq.mp hc.1⟩

/-! ### Comparison -/

/-- The parts of a double, with what is known about them. -/
def IsDecoded : UnpackedFloat → Prop
  | .finite _ m e _ => IsCanonical m e
  | _ => True

theorem isDecoded_decoded (x : Float) : IsDecoded (decoded x) := by
  cases h : decoded x with
  | finite s m e hm => exact isCanonical_of_decoded h
  | _ => trivial

theorem some_lt {a b : ℤ} (h : a < b) : some Ordering.lt = some (compare a b) := by
  rw [compare_lt_iff_lt.mpr h]

theorem some_gt {a b : ℤ} (h : b < a) : some Ordering.gt = some (compare a b) := by
  rw [compare_gt_iff_gt.mpr h]

theorem some_eq (a : ℤ) : some Ordering.eq = some (compare a a) := by
  rw [compare_eq_iff_eq.mpr rfl]

theorem compare_natCast (a b : ℕ) : compare (a : ℤ) (b : ℤ) = compare a b := by
  rcases lt_trichotomy a b with h | rfl | h
  · rw [compare_lt_iff_lt.mpr h, compare_lt_iff_lt.mpr (by exact_mod_cast h)]
  · rw [compare_eq_iff_eq.mpr rfl, compare_eq_iff_eq.mpr rfl]
  · rw [compare_gt_iff_gt.mpr h, compare_gt_iff_gt.mpr (by exact_mod_cast h)]

theorem compare_neg (a b : ℤ) : compare (-a) (-b) = (compare a b).swap := by
  rcases lt_trichotomy a b with h | rfl | h
  · rw [compare_lt_iff_lt.mpr h, compare_gt_iff_gt.mpr (by omega)]
    rfl
  · rw [compare_eq_iff_eq.mpr rfl, compare_eq_iff_eq.mpr rfl]
    rfl
  · rw [compare_gt_iff_gt.mpr h, compare_lt_iff_lt.mpr (by omega)]
    rfl

/-- An infinity compared with a number, by units. -/
theorem compare_infinity {v : UnpackedFloat} (s : Sign) (hv : IsDecoded v)
    (hvn : v.isNaN = false) :
    (UnpackedFloat.infinity s).compare v =
      some (compare (partUnits (.infinity s)) (partUnits v)) := by
  have hinf := infiniteUnits_pos
  cases v with
  | notANumber => simp [UnpackedFloat.isNaN] at hvn
  | infinity s' =>
    cases s <;> cases s' <;> simp only [partUnits, Sign.apply]
    · exact some_eq _
    · exact some_lt (by omega)
    · exact some_gt (by omega)
    · exact some_eq _
  | zero s' =>
    cases s <;> simp only [partUnits, Sign.apply]
    · exact some_lt (by omega)
    · exact some_gt (by omega)
  | finite s' m' e' hm' =>
    -- only the sign of the infinity counts, for a finite magnitude is below it
    have hlt := IsCanonical.lt_infiniteUnits hv
    cases s <;> cases s' <;> simp only [partUnits, Sign.apply]
    · exact some_lt (by omega)
    · exact some_lt (by omega)
    · exact some_gt (by omega)
    · exact some_gt (by omega)

/-- A zero compared with a number, by units. -/
theorem compare_zero {v : UnpackedFloat} (s : Sign) (hvn : v.isNaN = false) :
    (UnpackedFloat.zero s).compare v = some (compare (partUnits (.zero s)) (partUnits v)) := by
  have hinf := infiniteUnits_pos
  cases v with
  | notANumber => simp [UnpackedFloat.isNaN] at hvn
  | infinity s' =>
    cases s' <;> simp only [partUnits, Sign.apply]
    · exact some_gt (by omega)
    · exact some_lt (by omega)
  | zero s' => exact some_eq _
  | finite s' m' e' hm' =>
    have hpos := magnitudeUnits_pos e' hm'
    cases s' <;> simp only [partUnits, Sign.apply]
    · exact some_gt (by omega)
    · exact some_lt (by omega)

/-- A finite number compared with a number, by units. -/
theorem compare_finite {v : UnpackedFloat} (s : Sign) {m : ℕ} {e : ℤ} (hm : 0 < m)
    (hu : IsCanonical m e) (hv : IsDecoded v) (hvn : v.isNaN = false) :
    (UnpackedFloat.finite s m e hm).compare v =
      some (compare (partUnits (.finite s m e hm)) (partUnits v)) := by
  have hpos := magnitudeUnits_pos e hm
  cases v with
  | notANumber => simp [UnpackedFloat.isNaN] at hvn
  | infinity s' =>
    have hlt := hu.lt_infiniteUnits
    cases s <;> cases s' <;> simp only [partUnits, Sign.apply]
    · exact some_gt (by omega)
    · exact some_lt (by omega)
    · exact some_gt (by omega)
    · exact some_lt (by omega)
  | zero s' =>
    cases s <;> simp only [partUnits, Sign.apply]
    · exact some_lt (by omega)
    · exact some_gt (by omega)
  | finite s' m' e' hm' =>
    -- with equal signs the magnitudes decide, and two negative numbers are turned around
    have hpos' := magnitudeUnits_pos e' hm'
    have hsame := compare_magnitudes hu hv
    cases s <;> cases s' <;> simp only [partUnits, Sign.apply]
    · rw [compare_neg, compare_natCast, ← hsame]
      rfl
    · exact some_lt (by omega)
    · exact some_gt (by omega)
    · rw [compare_natCast, ← hsame]
      rfl

/-- **Comparison is comparison of units**, for two numbers. -/
theorem compare_parts {u v : UnpackedFloat} (hu : IsDecoded u) (hv : IsDecoded v)
    (hun : u.isNaN = false) (hvn : v.isNaN = false) :
    u.compare v = some (compare (partUnits u) (partUnits v)) := by
  cases u with
  | notANumber => simp [UnpackedFloat.isNaN] at hun
  | infinity s => exact compare_infinity s hv hvn
  | zero s => exact compare_zero s hvn
  | finite s m e hm => exact compare_finite s hm hu hv hvn

theorem isNaN_eq (x : Float) : x.isNaN = (decoded x).isNaN := rfl

theorem isFinite_eq (x : Float) : x.isFinite = (decoded x).isFinite := rfl

/-- Comparing two doubles that are numbers. -/
theorem compare_decoded {x y : Float} (hx : x.isNaN = false) (hy : y.isNaN = false) :
    (decoded x).compare (decoded y) = some (compare (units x) (units y)) :=
  compare_parts (isDecoded_decoded x) (isDecoded_decoded y) hx hy

/-- Nothing compares with what is no number. -/
theorem compare_decoded_eq_none {x y : Float} (h : ¬(x.isNaN = false ∧ y.isNaN = false)) :
    (decoded x).compare (decoded y) = none := by
  rw [isNaN_eq, isNaN_eq] at h
  cases hx : decoded x with
  | notANumber => rfl
  | infinity s | zero s | finite s m e hm =>
    cases hy : decoded y with
    | notANumber => cases s <;> rfl
    | infinity s' | zero s' | finite s' m' e' hm' =>
      exact absurd ⟨by rw [hx]; rfl, by rw [hy]; rfl⟩ h

/-- **One double is less than another** if both are numbers and the units say so. -/
theorem lt_iff {x y : Float} :
    x < y ↔ x.isNaN = false ∧ y.isNaN = false ∧ units x < units y := by
  have hlt : x < y ↔ ((decoded x).compare (decoded y) == some .lt) = true :=
    decide_eq_true_iff
  rw [hlt, beq_iff_eq]
  by_cases h : x.isNaN = false ∧ y.isNaN = false
  · rw [compare_decoded h.1 h.2, Option.some_inj, compare_lt_iff_lt]
    exact ⟨fun hu => ⟨h.1, h.2, hu⟩, fun hu => hu.2.2⟩
  · rw [compare_decoded_eq_none h]
    constructor
    · intro hn
      cases hn
    · rintro ⟨hx, hy, -⟩
      exact absurd ⟨hx, hy⟩ h

/-- **One double is at most another** if both are numbers and the units say so. -/
theorem le_iff {x y : Float} :
    x ≤ y ↔ x.isNaN = false ∧ y.isNaN = false ∧ units x ≤ units y := by
  have hle : x ≤ y ↔ ((decoded x).compare (decoded y)).any (·.isLE) = true :=
    decide_eq_true_iff
  rw [hle]
  by_cases h : x.isNaN = false ∧ y.isNaN = false
  · rw [compare_decoded h.1 h.2, Option.any_some, Int.isLE_compare]
    exact ⟨fun hu => ⟨h.1, h.2, hu⟩, fun hu => hu.2.2⟩
  · rw [compare_decoded_eq_none h]
    constructor
    · intro hn
      cases hn
    · rintro ⟨hx, hy, -⟩
      exact absurd ⟨hx, hy⟩ h

/-- Two numbers are in one order or the other. -/
theorem not_lt {x y : Float} (hx : x.isNaN = false) (hy : y.isNaN = false) :
    ¬x < y ↔ y ≤ x := by
  rw [lt_iff, le_iff]
  constructor
  · intro h
    refine ⟨hy, hx, ?_⟩
    by_contra hle
    exact h ⟨hx, hy, not_le.mp hle⟩
  · rintro ⟨-, -, hle⟩ ⟨-, -, hlt⟩
    omega

theorem not_le {x y : Float} (hx : x.isNaN = false) (hy : y.isNaN = false) :
    ¬x ≤ y ↔ y < x := by
  rw [← not_lt hy hx, not_not]

/-! ### What the units leave open -/

theorem partUnits_eq_zero {u : UnpackedFloat} (h : partUnits u = 0) (hn : u.isNaN = false) :
    ∃ s, u = .zero s := by
  cases u with
  | notANumber => simp [UnpackedFloat.isNaN] at hn
  | zero s => exact ⟨s, rfl⟩
  | infinity s =>
    have hpos := infiniteUnits_pos
    cases s <;> simp only [partUnits, Sign.apply] at h <;> omega
  | finite s m e hm =>
    have hpos := magnitudeUnits_pos e hm
    cases s <;> simp only [partUnits, Sign.apply] at h <;> omega

theorem eq_of_partUnits_eq {u v : UnpackedFloat} (hu : IsDecoded u) (hv : IsDecoded v)
    (h : partUnits u = partUnits v) (h0 : partUnits u ≠ 0) : u = v := by
  have hinf := infiniteUnits_pos
  cases u with
  | notANumber | zero => exact absurd rfl h0
  | infinity s =>
    cases v with
    | notANumber | zero => exact absurd h h0
    | infinity s' =>
      cases s <;> cases s' <;> simp only [partUnits, Sign.apply] at h <;> first | rfl | omega
    | finite s' m' e' hm' =>
      have hlt := IsCanonical.lt_infiniteUnits hv
      cases s <;> cases s' <;> simp only [partUnits, Sign.apply] at h <;> omega
  | finite s m e hm =>
    have hlt := IsCanonical.lt_infiniteUnits hu
    have hpos := magnitudeUnits_pos e hm
    cases v with
    | notANumber | zero => exact absurd h h0
    | infinity s' => cases s <;> cases s' <;> simp only [partUnits, Sign.apply] at h <;> omega
    | finite s' m' e' hm' =>
      have hpos' := magnitudeUnits_pos e' hm'
      -- the signs agree, or one side would be negative and the other positive
      have hmag : magnitudeUnits m e = magnitudeUnits m' e' := by
        cases s <;> cases s' <;> simp only [partUnits, Sign.apply] at h <;> omega
      obtain ⟨rfl, rfl⟩ := eq_of_magnitudeUnits_eq hu hv hmag
      cases s <;> cases s' <;> simp only [partUnits, Sign.apply] at h <;> first | rfl | omega

/-- **Only the zeros share their units**: two doubles of the same units other than zero are
the same double. -/
theorem eq_of_units_eq {x y : Float} (h : units x = units y) (h0 : units x ≠ 0) : x = y :=
  decoded_injective (eq_of_partUnits_eq (isDecoded_decoded x) (isDecoded_decoded y) h h0)

/-! ### The ends of the order -/

theorem units_neg_infinity : units (-infinity) = -infiniteUnits := rfl

theorem units_zero : units 0.0 = 0 := rfl

/-- No double lies beyond the infinities. -/
theorem units_bounds (x : Float) :
    -(infiniteUnits : ℤ) ≤ units x ∧ units x ≤ infiniteUnits := by
  have hinf := infiniteUnits_pos
  rw [units]
  cases h : decoded x with
  | notANumber | zero =>
    simp only [partUnits]
    omega
  | infinity s => cases s <;> simp only [partUnits, Sign.apply] <;> omega
  | finite s m e hm =>
    have hlt := (isCanonical_of_decoded h).lt_infiniteUnits
    cases s <;> simp only [partUnits, Sign.apply] <;> omega

/-- **Only an infinity is as great as the infinity.** -/
theorem eq_of_infinity_le {x : Float} (h : infinity ≤ x) : x = infinity := by
  have hpos := infiniteUnits_pos
  have hunits : units x = infiniteUnits := le_antisymm (units_bounds x).2 (le_iff.mp h).2.2
  exact eq_of_units_eq hunits (by omega)

theorem eq_of_le_neg_infinity {x : Float} (h : x ≤ -infinity) : x = -infinity := by
  have hpos := infiniteUnits_pos
  have hunits : units x = -infiniteUnits := le_antisymm (le_iff.mp h).2.2 (units_bounds x).1
  exact eq_of_units_eq hunits (by omega)

/-- **The finite doubles are the numbers between the infinities.** -/
theorem isFinite_iff {x : Float} :
    x.isFinite = true ↔
      x.isNaN = false ∧ -(infiniteUnits : ℤ) < units x ∧ units x < infiniteUnits := by
  have hinf := infiniteUnits_pos
  rw [units, isFinite_eq, isNaN_eq]
  cases h : decoded x with
  | notANumber => exact ⟨fun hf => (nomatch hf), fun hn => (nomatch hn.1)⟩
  | zero s => exact ⟨fun _ => ⟨rfl, by simp only [partUnits]; omega⟩, fun _ => rfl⟩
  | infinity s =>
    constructor
    · intro hf
      cases hf
    · intro hn
      cases s <;> simp only [partUnits, Sign.apply] at hn <;> omega
  | finite s m e hm =>
    have hlt := (isCanonical_of_decoded h).lt_infiniteUnits
    refine ⟨fun _ => ⟨rfl, ?_⟩, fun _ => rfl⟩
    cases s <;> simp only [partUnits, Sign.apply] <;> omega

end MixedWorkload.Binary64

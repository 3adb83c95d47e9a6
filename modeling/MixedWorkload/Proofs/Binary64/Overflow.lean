import MixedWorkload.Proofs.Binary64.Arithmetic

/-!
# When the result of an operation is finite

An operation on doubles is finite if and only if its operands are and the exact result fits
into the range of doubles (`MixedWorkload.Binary64.Fits`): then it has a nearest double, and
otherwise it would be rounded to an infinity. This holds of sums, differences and products
(`MixedWorkload.Binary64.isFinite_add_iff`, `MixedWorkload.Binary64.isFinite_sub_iff`,
`MixedWorkload.Binary64.isFinite_mul_iff`). A quotient is different in that its divisor may be
infinite, and must not be zero (`MixedWorkload.Binary64.isFinite_div_iff`).

What is not finite stays so, in all operations but the division by an infinity. A result that
is finite therefore vouches for everything that went into it. This goes for running sums and
products, too: they are finite if and only if all operands are and no partial result overflows
(`MixedWorkload.Binary64.isFinite_foldl_iff`).
-/

namespace MixedWorkload.Binary64

open Float.Model (Format UnpackedFloat)

open Float.Model.UnpackedFloat

/-! ### The range of doubles -/

/-- **A rational number fits** into the range of doubles, if it lies less than half a step
beyond the greatest of them. -/
def Fits (q : ℚ) : Prop := |q| < 2 ^ 1024 - 2 ^ 970

theorem overflowUnits_eq_mul : (overflowUnits : ℚ) = (2 ^ 1024 - 2 ^ 970) * unitsOfOne := by
  have hlast : lastGrid - 1 = 970 + unitPlaces := rfl
  have hfirst : (2 : ℚ) ^ 1024 = 2 ^ 54 * 2 ^ 970 := by rw [← pow_add]
  rw [overflowUnits, hlast, hfirst, unitsOfOne, pow_add 2 970, Nat.cast_mul, Nat.cast_mul,
    Nat.cast_pow, Nat.cast_pow, Nat.cast_ofNat, Nat.cast_sub Nat.one_le_two_pow, Nat.cast_pow,
    Nat.cast_ofNat, Nat.cast_one, ← mul_assoc, sub_one_mul]

/-- **A rounded result is finite** if and only if the exact one fits. -/
theorem Rounds.isFinite_iff {x : Float} {q : ℚ} (h : Rounds x q) :
    x.isFinite = true ↔ Fits q := by
  rw [Binary64.isFinite_iff, h.units, Fits, and_iff_right h.isNaN, ← abs_lt, abs_rounded_lt_iff,
    abs_mul, abs_of_pos unitsOfOne_pos, overflowUnits_eq_mul,
    mul_lt_mul_iff_of_pos_right unitsOfOne_pos]

theorem fits_toRat {x : Float} (hx : x.isFinite = true) : Fits (toRat x) :=
  (rounds_toRat (isNaN_of_isFinite hx)).isFinite_iff.mp hx

/-- Between two numbers that fit, all numbers do. -/
theorem Fits.of_abs_le {p q : ℚ} (hq : Fits q) (h : |p| ≤ |q|) : Fits p :=
  lt_of_le_of_lt h hq

/-! ### Operands that are not finite -/

/-- Packing makes nothing finite. -/
theorem isFinite_of_packed {u : UnpackedFloat} (h : (packed u).isFinite = true) :
    u.isFinite = true := by
  cases u with
  | notANumber => cases h
  | infinity s => cases s <;> cases h
  | zero s | finite s m e hm => rfl

theorem isInf_eq (x : Float) : x.isInf = (decoded x).isInf := rfl

/-- **A finite sum has finite summands.** -/
theorem isFinite_of_add {x y : Float} (h : (x + y).isFinite = true) :
    x.isFinite = true ∧ y.isFinite = true := by
  rw [add_eq_packed] at h
  replace h := isFinite_of_packed h
  rw [isFinite_eq, isFinite_eq]
  generalize decoded x = u at *
  generalize decoded y = v at *
  cases u with
  | notANumber => cases v <;> cases h
  | infinity s =>
    cases v with
    | infinity t => cases s <;> cases t <;> cases h
    | notANumber | zero | finite => cases h
  | zero | finite =>
    cases v with
    | notANumber | infinity => cases h
    | zero | finite => exact ⟨rfl, rfl⟩

/-- **A finite product has finite factors.** -/
theorem isFinite_of_mul {x y : Float} (h : (x * y).isFinite = true) :
    x.isFinite = true ∧ y.isFinite = true := by
  rw [mul_eq_packed] at h
  replace h := isFinite_of_packed h
  rw [isFinite_eq, isFinite_eq]
  generalize decoded x = u at *
  generalize decoded y = v at *
  cases u with
  | notANumber | infinity => cases v <;> cases h
  | zero | finite =>
    cases v with
    | notANumber | infinity => cases h
    | zero | finite => exact ⟨rfl, rfl⟩

/-- **A finite quotient** has a finite dividend, and a divisor that is infinite, or finite
and no zero. -/
theorem isFinite_of_div {x y : Float} (h : (x / y).isFinite = true) :
    x.isFinite = true ∧ (y.isInf = true ∨ y.isFinite = true ∧ units y ≠ 0) := by
  rw [div_eq_packed] at h
  replace h := isFinite_of_packed h
  rw [isFinite_eq, isFinite_eq, units, isInf_eq]
  generalize decoded x = u at *
  generalize decoded y = v at *
  cases u with
  | notANumber | infinity => cases v <;> cases h
  | zero | finite =>
    cases v with
    | notANumber | zero => cases h
    | infinity => exact ⟨rfl, Or.inl rfl⟩
    | finite t m e hm =>
      have hpos := magnitudeUnits_pos e hm
      refine ⟨rfl, Or.inr ⟨rfl, ?_⟩⟩
      cases t <;> simp only [partUnits, Sign.apply] <;> omega

/-- **The quotient by an infinity** is a zero. -/
theorem rounds_div_of_isInf {x y : Float} (hx : x.isFinite = true) (hy : y.isInf = true) :
    Rounds (x / y) 0 := by
  rw [isFinite_eq] at hx
  rw [isInf_eq] at hy
  rw [div_eq_packed]
  generalize decoded x = u at *
  generalize decoded y = v at *
  cases v with
  | notANumber | zero | finite => cases hy
  | infinity t =>
    cases u with
    | notANumber | infinity => cases hx
    | zero s | finite s => exact rounds_zero (s / t)

theorem isFinite_div_of_isInf {x y : Float} (hx : x.isFinite = true) (hy : y.isInf = true) :
    (x / y).isFinite = true := by
  have hzero : Fits (toRat 0.0) := fits_toRat rfl
  rw [toRat_zero] at hzero
  exact (rounds_div_of_isInf hx hy).isFinite_iff.mpr hzero

/-! ### When results are finite -/

theorem toRat_ne_zero_iff {x : Float} : toRat x ≠ 0 ↔ units x ≠ 0 := by
  rw [toRat, Ne, div_eq_zero_iff, or_iff_left unitsOfOne_pos.ne', Int.cast_eq_zero]

/-- **When a sum is finite.** -/
theorem isFinite_add_iff {x y : Float} :
    (x + y).isFinite = true ↔
      x.isFinite = true ∧ y.isFinite = true ∧ Fits (toRat x + toRat y) := by
  constructor
  · intro h
    obtain ⟨hx, hy⟩ := isFinite_of_add h
    exact ⟨hx, hy, (rounds_add hx hy).isFinite_iff.mp h⟩
  · rintro ⟨hx, hy, hfits⟩
    exact (rounds_add hx hy).isFinite_iff.mpr hfits

/-- **When a difference is finite.** -/
theorem isFinite_sub_iff {x y : Float} :
    (x - y).isFinite = true ↔
      x.isFinite = true ∧ y.isFinite = true ∧ Fits (toRat x - toRat y) := by
  rw [sub_eq_add, isFinite_add_iff, isFinite_neg, toRat_neg, ← sub_eq_add_neg]

/-- **When a product is finite.** -/
theorem isFinite_mul_iff {x y : Float} :
    (x * y).isFinite = true ↔
      x.isFinite = true ∧ y.isFinite = true ∧ Fits (toRat x * toRat y) := by
  constructor
  · intro h
    obtain ⟨hx, hy⟩ := isFinite_of_mul h
    exact ⟨hx, hy, (rounds_mul hx hy).isFinite_iff.mp h⟩
  · rintro ⟨hx, hy, hfits⟩
    exact (rounds_mul hx hy).isFinite_iff.mpr hfits

/-- **When a quotient is finite.** -/
theorem isFinite_div_iff {x y : Float} :
    (x / y).isFinite = true ↔
      x.isFinite = true ∧
        (y.isInf = true ∨ y.isFinite = true ∧ toRat y ≠ 0 ∧ Fits (toRat x / toRat y)) := by
  constructor
  · intro h
    obtain ⟨hx, hinf | ⟨hy, hy0⟩⟩ := isFinite_of_div h
    · exact ⟨hx, Or.inl hinf⟩
    · have hy0' := toRat_ne_zero_iff.mpr hy0
      exact ⟨hx, Or.inr ⟨hy, hy0', (rounds_div hx hy hy0').isFinite_iff.mp h⟩⟩
  · rintro ⟨hx, hinf | ⟨hy, hy0, hfits⟩⟩
    · exact isFinite_div_of_isInf hx hinf
    · exact (rounds_div hx hy hy0).isFinite_iff.mpr hfits

/-- **When a natural number is finite as a double.** -/
theorem isFinite_toFloat_iff {n : ℕ} : n.toFloat.isFinite = true ↔ Fits n :=
  (rounds_toFloat n).isFinite_iff

/-- A number of the machine is finite as a double. -/
theorem isFinite_toFloat_of_lt {n : ℕ} (h : n < 2 ^ 64) : n.toFloat.isFinite = true := by
  have hword : Fits (2 ^ 64 : ℕ) := isFinite_toFloat_iff.mp (by decide +kernel)
  refine isFinite_toFloat_iff.mpr (hword.of_abs_le ?_)
  rw [abs_of_nonneg (Nat.cast_nonneg _), abs_of_nonneg (Nat.cast_nonneg _), Nat.cast_le]
  exact h.le

/-! ### Infinities -/

theorem isFinite_or_isInf {x : Float} (hx : x.isNaN = false) :
    x.isFinite = true ∨ x.isInf = true := by
  rw [isNaN_eq] at hx
  rw [isFinite_eq, isInf_eq]
  cases h : decoded x with
  | notANumber =>
    rw [h] at hx
    cases hx
  | infinity => exact Or.inr rfl
  | zero | finite => exact Or.inl rfl

theorem not_isFinite_of_isInf {x : Float} (hx : x.isInf = true) : x.isFinite = false := by
  rw [isInf_eq] at hx
  rw [isFinite_eq]
  cases h : decoded x with
  | infinity => rfl
  | notANumber | zero | finite =>
    rw [h] at hx
    cases hx

theorem not_isInf_of_isFinite {x : Float} (hx : x.isFinite = true) : ¬x.isInf = true := by
  intro hinf
  rw [not_isFinite_of_isInf hinf] at hx
  cases hx

/-- Infinities are not zero. -/
theorem isInf_ne_zero {x : Float} (hx : x.isInf = true) : x.isNaN = false ∧ toRat x ≠ 0 := by
  rw [isInf_eq] at hx
  rw [isNaN_eq, toRat_ne_zero_iff, units]
  cases h : decoded x with
  | infinity s =>
    have hpos := infiniteUnits_pos
    refine ⟨rfl, ?_⟩
    cases s <;> simp only [partUnits, Sign.apply] <;> omega
  | notANumber | zero | finite =>
    rw [h] at hx
    cases hx

/-- **When a quotient is finite**, if the divisor is a number other than zero. -/
theorem isFinite_div_iff_of_ne_zero {x y : Float} (hy : y.isNaN = false) (hy0 : toRat y ≠ 0) :
    (x / y).isFinite = true ↔
      x.isFinite = true ∧ (y.isFinite = true → Fits (toRat x / toRat y)) := by
  rw [isFinite_div_iff]
  refine and_congr_right fun _ => ?_
  rcases isFinite_or_isInf hy with hfinite | hinf
  · rw [or_iff_right (not_isInf_of_isFinite hfinite), and_iff_right hfinite, and_iff_right hy0,
      forall_prop_of_true hfinite]
  · exact iff_of_true (Or.inl hinf) fun hfinite => absurd hinf (not_isInf_of_isFinite hfinite)

/-- An infinity outweighs what is finite. -/
theorem isInf_add {x y : Float} (hx : x.isFinite = true) (hy : y.isInf = true) :
    (x + y).isInf = true := by
  have hpacked (s : Sign) : (packed (.infinity s)).isInf = true := by cases s <;> rfl
  rw [isFinite_eq] at hx
  rw [isInf_eq] at hy
  rw [add_eq_packed]
  generalize decoded x = u at *
  generalize decoded y = v at *
  cases v with
  | notANumber | zero | finite => cases hy
  | infinity t =>
    cases u with
    | notANumber | infinity => cases hx
    | zero | finite => exact hpacked t

/-! ### Running sums and products -/

/-- **No intermediate result overflows** when an operation is folded over a list. -/
def FoldFits (op : Float → Float → Float) (exact : ℚ → ℚ → ℚ) : Float → List Float → Prop
  | _, [] => True
  | a, x :: xs => Fits (exact (toRat a) (toRat x)) ∧ FoldFits op exact (op a x) xs

/-- No partial sum overflows. -/
def SumFits : Float → List Float → Prop :=
  FoldFits (· + ·) (· + ·)

/-- No partial product overflows. -/
def ProductFits : Float → List Float → Prop :=
  FoldFits (· * ·) (· * ·)

/-- What is folded is finite if and only if all operands are, and nothing overflows. -/
theorem isFinite_foldl_iff {op : Float → Float → Float} {exact : ℚ → ℚ → ℚ}
    (hop : ∀ {x y}, (op x y).isFinite = true ↔
      x.isFinite = true ∧ y.isFinite = true ∧ Fits (exact (toRat x) (toRat y)))
    (a : Float) (xs : List Float) :
    (xs.foldl op a).isFinite = true ↔
      a.isFinite = true ∧ (∀ x ∈ xs, x.isFinite = true) ∧ FoldFits op exact a xs := by
  induction xs generalizing a with
  | nil => exact ⟨fun h => ⟨h, fun _ hx => absurd hx List.not_mem_nil, trivial⟩, fun h => h.1⟩
  | cons x xs ih =>
    rw [List.foldl_cons, ih, hop, List.forall_mem_cons, FoldFits]
    constructor
    · rintro ⟨⟨ha, hx, hfits⟩, hxs, hrest⟩
      exact ⟨ha, ⟨hx, hxs⟩, hfits, hrest⟩
    · rintro ⟨ha, ⟨hx, hxs⟩, hfits, hrest⟩
      exact ⟨⟨ha, hx, hfits⟩, hxs, hrest⟩

/-- **When a sum over a list is finite.** -/
theorem isFinite_sum_iff (a : Float) (xs : List Float) :
    (xs.foldl (· + ·) a).isFinite = true ↔
      a.isFinite = true ∧ (∀ x ∈ xs, x.isFinite = true) ∧ SumFits a xs :=
  isFinite_foldl_iff isFinite_add_iff a xs

/-- **When a product over a list is finite.** -/
theorem isFinite_product_iff (a : Float) (xs : List Float) :
    (xs.foldl (· * ·) a).isFinite = true ↔
      a.isFinite = true ∧ (∀ x ∈ xs, x.isFinite = true) ∧ ProductFits a xs :=
  isFinite_foldl_iff isFinite_mul_iff a xs

/-! ### Signs -/

theorem le_of_less {x y : Float} (h : x < y) : x ≤ y := by
  obtain ⟨hx, hy, hunits⟩ := lt_iff.mp h
  exact le_iff.mpr ⟨hx, hy, hunits.le⟩

theorem zero_le_of_toRat {x : Float} (hx : x.isNaN = false) (h : 0 ≤ toRat x) : 0.0 ≤ x := by
  rwa [le_iff_toRat rfl hx, toRat_zero]

/-- **Folding keeps the sign**: what is folded from operands that are not negative is not
negative, if it is finite. -/
theorem zero_le_foldl {op : Float → Float → Float} {exact : ℚ → ℚ → ℚ}
    (hop : ∀ {x y}, (op x y).isFinite = true ↔
      x.isFinite = true ∧ y.isFinite = true ∧ Fits (exact (toRat x) (toRat y)))
    (hnonneg : ∀ {x y}, x.isFinite = true → y.isFinite = true → 0.0 ≤ x → 0.0 ≤ y → 0.0 ≤ op x y)
    {a : Float} {xs : List Float} (hfinite : (xs.foldl op a).isFinite = true) (ha : 0.0 ≤ a)
    (hxs : ∀ x ∈ xs, 0.0 ≤ x) : 0.0 ≤ xs.foldl op a := by
  induction xs generalizing a with
  | nil => exact ha
  | cons x xs ih =>
    obtain ⟨hx, hxs⟩ := List.forall_mem_cons.mp hxs
    -- the first result is finite since the last one is
    have hfirst := ((isFinite_foldl_iff hop (op a x) xs).mp hfinite).1
    obtain ⟨hafinite, hxfinite, -⟩ := hop.mp hfirst
    exact ih hfinite (hnonneg hafinite hxfinite ha hx) hxs

theorem zero_le_sum {a : Float} {xs : List Float}
    (hfinite : (xs.foldl (· + ·) a).isFinite = true) (ha : 0.0 ≤ a) (hxs : ∀ x ∈ xs, 0.0 ≤ x) :
    0.0 ≤ xs.foldl (· + ·) a := by
  refine zero_le_foldl isFinite_add_iff (fun hx hy hx0 hy0 => ?_) hfinite ha hxs
  have hsum := rounds_add hx hy
  exact zero_le_of_toRat hsum.isNaN
    (hsum.toRat_nonneg (add_nonneg (toRat_nonneg hx0) (toRat_nonneg hy0)))

theorem zero_le_product {a : Float} {xs : List Float}
    (hfinite : (xs.foldl (· * ·) a).isFinite = true) (ha : 0.0 ≤ a) (hxs : ∀ x ∈ xs, 0.0 ≤ x) :
    0.0 ≤ xs.foldl (· * ·) a := by
  refine zero_le_foldl isFinite_mul_iff (fun hx hy hx0 hy0 => ?_) hfinite ha hxs
  have hproduct := rounds_mul hx hy
  exact zero_le_of_toRat hproduct.isNaN
    (hproduct.toRat_nonneg (mul_nonneg (toRat_nonneg hx0) (toRat_nonneg hy0)))

end MixedWorkload.Binary64

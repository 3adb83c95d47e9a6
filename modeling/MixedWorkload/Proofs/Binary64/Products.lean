import Mathlib.Analysis.SpecialFunctions.Log.Basic
import MixedWorkload.Proofs.Binary64.Gaps
import MixedWorkload.Proofs.Binary64.Monotone

/-!
# Running products of positive doubles

A product that is taken factor by factor can leave the range of doubles on the way, whatever
the factors are. From then on it stays where it is: at infinity if a multiplication overflows
(`MixedWorkload.Binary64.foldl_mul_eq_infinity`), and at zero if one vanishes, its exact result
being no more than half the least double (`MixedWorkload.Binary64.foldl_mul_eq_zero`).

Otherwise each multiplication is off by a factor, and the logarithms of these factors add up
(`MixedWorkload.Binary64.abs_logValue_foldl_mul_sub_le`). Away from the least doubles, where
there are fifty-three bits to round to, the logarithm of each is `2 ^ -52` at most
(`MixedWorkload.Binary64.losesAtMost_of_normal`). Among the least doubles there are fewer bits,
down to one, and what is kept is that no multiplication is off by more than a factor of two
(`MixedWorkload.Binary64.losesAtMost_log_two`).
-/

namespace MixedWorkload.Binary64

open Float.Model (Format UnpackedFloat)

open Float.Model.UnpackedFloat

/-! ### Relative errors -/

/-- A rounded result that is finite is a point of the grid. -/
theorem Rounds.units_eq_onGrid {x : Float} {q : ℚ} (h : Rounds x q) (hx : x.isFinite = true)
    (hq : 0 ≤ q) : Binary64.units x = onGrid (q * unitsOfOne) := by
  have hu := mul_nonneg hq unitsOfOne_pos.le
  have hlt := (Binary64.isFinite_iff.mp hx).2.2
  have hunits := h.units
  rw [rounded_of_nonneg hu, roundedMagnitude] at hunits
  omega

/-- **The error of rounding** is the `2 ^ 53`-th part at most, or half the least double. -/
theorem Rounds.abs_toRat_sub_le {x : Float} {q : ℚ} (h : Rounds x q) (hx : x.isFinite = true)
    (hq : 0 ≤ q) : |toRat x - q| ≤ max (q / 2 ^ 53) (1 / 2 ^ 1075) := by
  have hunits := unitsOfOne_pos
  have herror := abs_onGrid_sub_le (mul_nonneg hq hunits.le)
  have hscaled : toRat x - q = (onGrid (q * unitsOfOne) - q * unitsOfOne) / unitsOfOne := by
    rw [toRat, h.units_eq_onGrid hx hq, sub_div, mul_div_cancel_right₀ _ hunits.ne',
      Int.cast_natCast]
  have hhalf : (1 : ℚ) / 2 ^ 1075 = 1 / 2 / unitsOfOne := by
    rw [unitsOfOne, unitPlaces, div_div, ← pow_succ']
  have hpart : q / 2 ^ 53 = q * unitsOfOne / 2 ^ 53 / unitsOfOne := by
    rw [div_right_comm, mul_div_cancel_right₀ _ hunits.ne']
  rw [hscaled, hhalf, hpart, abs_div, abs_of_pos hunits, max_div_div_right hunits.le]
  exact (div_le_div_iff_of_pos_right hunits).mpr herror

/-- Above the least normal double, **the error is the `2 ^ 53`-th part** at most. -/
theorem Rounds.abs_toRat_sub_le_of_normal {x : Float} {q : ℚ} (h : Rounds x q)
    (hx : x.isFinite = true) (hq : 1 / 2 ^ 1022 ≤ q) : |toRat x - q| ≤ q / 2 ^ 53 := by
  have hpos : (0 : ℚ) < 1 / 2 ^ 1022 := by positivity
  refine (h.abs_toRat_sub_le hx (hpos.le.trans hq)).trans (max_le le_rfl ?_)
  rw [le_div_iff₀ (by positivity)]
  refine le_trans ?_ hq
  rw [div_mul_eq_mul_div, one_mul, div_le_div_iff₀ (by positivity) (by positivity), one_mul,
    ← pow_add]

/-- The least positive value. -/
theorem le_toRat_of_pos {x : Float} (hx : 0 < toRat x) : 1 / 2 ^ 1074 ≤ toRat x := by
  rw [toRat, div_pos_iff_of_pos_right unitsOfOne_pos, Int.cast_pos] at hx
  exact (div_le_div_iff_of_pos_right unitsOfOne_pos).mpr (by exact_mod_cast hx)

/-- What is not rounded to zero or infinity changes by a factor of two at most. -/
theorem Rounds.within_two {x : Float} {q : ℚ} (h : Rounds x q) (hx : x.isFinite = true)
    (hq : 0 ≤ q) (hpos : 0 < toRat x) : q / 2 ≤ toRat x ∧ toRat x ≤ 2 * q := by
  have hleast : 2 * (1 / 2 ^ 1075) ≤ toRat x := by
    calc (2 : ℚ) * (1 / 2 ^ 1075) = 2 * (1 / 2 ^ 1074 / 2) := by rw [div_div, ← pow_succ]
      _ = 1 / 2 ^ 1074 := mul_div_cancel₀ _ two_ne_zero
      _ ≤ toRat x := le_toRat_of_pos hpos
  obtain ⟨hlow, hhigh⟩ := abs_le.mp (h.abs_toRat_sub_le hx hq)
  have hpart : q / 2 ^ 53 ≤ q / 2 := by
    gcongr
    norm_num
  generalize (1 : ℚ) / 2 ^ 1075 = half at hleast hlow hhigh
  rcases max_cases (q / 2 ^ 53) half with ⟨hmax, -⟩ | ⟨hmax, -⟩
  · rw [hmax] at hlow hhigh
    constructor <;> linarith
  · rw [hmax] at hlow hhigh
    constructor <;> linarith

/-! ### Logarithms -/

/-- The logarithm of the number that a double stands for. -/
noncomputable def logValue (x : Float) : ℝ := Real.log (toRat x)

theorem abs_log_sub_log_le {p q ε : ℝ} (hq : 0 < q) (hε : 0 ≤ ε) (hhalf : ε ≤ 1 / 2)
    (h : |p - q| ≤ q * ε) : |Real.log p - Real.log q| ≤ 2 * ε := by
  obtain ⟨hlow, hhigh⟩ := abs_le.mp h
  have hpart : q * ε ≤ q * (1 / 2) := mul_le_mul_of_nonneg_left hhalf hq.le
  have hp : 0 < p := by linarith
  rw [← Real.log_div hp.ne' hq.ne', abs_le]
  constructor
  · have hinv : q / p ≤ 1 + 2 * ε := by
      rw [div_le_iff₀ hp]
      nlinarith
    have hlog := Real.one_sub_inv_le_log_of_pos (div_pos hp hq)
    rw [inv_div] at hlog
    linarith
  · have hratio : p / q ≤ 1 + ε := by
      rw [div_le_iff₀ hq]
      linarith
    have hlog := Real.log_le_sub_one_of_pos (div_pos hp hq)
    linarith

theorem abs_log_sub_log_le_log_two {p q : ℝ} (hq : 0 < q) (hlow : q / 2 ≤ p)
    (hhigh : p ≤ 2 * q) : |Real.log p - Real.log q| ≤ Real.log 2 := by
  have hp : 0 < p := by linarith
  have hlow' := Real.log_le_log (by linarith) hlow
  have hhigh' := Real.log_le_log hp hhigh
  rw [Real.log_div hq.ne' two_ne_zero] at hlow'
  rw [Real.log_mul two_ne_zero hq.ne'] at hhigh'
  rw [abs_le]
  constructor <;> linarith

/-! ### A product of two -/

/-- A double that is finite and positive. -/
structure IsPositive (x : Float) : Prop where
  /-- It is finite. -/
  isFinite : x.isFinite = true
  /-- It is more than zero. -/
  pos : 0.0 < x

theorem isPositive_iff {x : Float} : IsPositive x ↔ x.isFinite = true ∧ 0 < toRat x := by
  constructor
  · exact fun h => ⟨h.isFinite, toRat_pos h.pos⟩
  · rintro ⟨hfinite, hpos⟩
    refine ⟨hfinite, ?_⟩
    rwa [lt_iff_toRat rfl (isNaN_of_isFinite hfinite), toRat_zero]

theorem IsPositive.toRat_pos {x : Float} (h : IsPositive x) : 0 < toRat x :=
  (isPositive_iff.mp h).2

/-- One is the number that it looks like. -/
theorem toRat_one_literal : toRat 1.0 = 1 :=
  ((rounds_toFloat 1).toRat_natCast (by norm_num)).2

theorem isPositive_one : IsPositive 1.0 :=
  ⟨rfl, by decide +kernel⟩

theorem logValue_one : logValue 1.0 = 0 := by
  rw [logValue, toRat_one_literal, Rat.cast_one, Real.log_one]

/-- The parts of a positive double. -/
theorem IsPositive.exists_decoded {x : Float} (h : IsPositive x) :
    ∃ m e hm, decoded x = .finite .positive m e hm := by
  have hpos := h.toRat_pos
  rcases finite_cases h.isFinite with ⟨s, -, hzero⟩ | ⟨s, m, e, hm, hd, -, hvalue⟩
  · rw [hzero] at hpos
    exact absurd hpos (lt_irrefl 0)
  · cases s with
    | positive => exact ⟨m, e, hm, hd⟩
    | negative =>
      have hvalue_pos : (0 : ℚ) < m * 2 ^ e := by positivity
      rw [hvalue, signed] at hpos
      linarith

/-- **A product of positive doubles has the positive sign.** -/
theorem hasSign_mul {x y : Float} (hx : IsPositive x) (hy : IsPositive y) :
    HasSign .positive (decoded (x * y)) := by
  obtain ⟨m, e, hm, hdx⟩ := hx.exists_decoded
  obtain ⟨m', e', hm', hdy⟩ := hy.exists_decoded
  rw [mul_eq_packed, hdx, hdy, decoded_packed]
  simp only [UnpackedFloat.mul, roundWithAccuracy]
  split
  · exact rfl
  · exact hasSign_unpack_pack _ _ _ _

/-- A product that overflows is infinite. -/
theorem mul_eq_infinity {x y : Float} (hx : IsPositive x) (hy : IsPositive y)
    (h : ¬Fits (toRat x * toRat y)) : x * y = infinity := by
  have hround := rounds_mul hx.isFinite hy.isFinite
  have hinf := (isFinite_or_isInf hround.isNaN).resolve_left fun hfinite =>
    h (hround.isFinite_iff.mp hfinite)
  refine (eq_infinity_or hinf).resolve_right fun hneg => ?_
  have hsign := hasSign_mul hx hy
  rw [hneg] at hsign
  cases hsign

/-- Nothing positive brings zero back. -/
theorem zero_mul_of_isPositive {x : Float} (hx : IsPositive x) : 0.0 * x = 0.0 := by
  obtain ⟨m, e, hm, hd⟩ := hx.exists_decoded
  have hzero : decoded 0.0 = .zero .positive := rfl
  rw [mul_eq_packed, hd, hzero]
  rfl

/-- Nothing positive brings infinity back. -/
theorem infinity_mul_of_isPositive {x : Float} (hx : IsPositive x) : infinity * x = infinity := by
  obtain ⟨m, e, hm, hd⟩ := hx.exists_decoded
  have hinf : decoded infinity = .infinity .positive := rfl
  rw [mul_eq_packed, hd, hinf]
  rfl

/-! ### What a multiplication loses -/

/-- **A product does not vanish**: exactly taken, it is more than half the least double. -/
def Lasts (x y : Float) : Prop := 1 / 2 ^ 1075 < toRat x * toRat y

/-- **A product does not underflow**: it is exact, or exactly taken at least the least normal
double. -/
def IsNormal (x y : Float) : Prop :=
  toRat (x * y) = toRat x * toRat y ∨ 1 / 2 ^ 1022 ≤ toRat x * toRat y

/-- A product is off by a factor whose logarithm is bounded. -/
def LosesAtMost (c : ℝ) (x y : Float) : Prop :=
  |logValue (x * y) - (logValue x + logValue y)| ≤ c

section Multiplication

variable {x y : Float} (hx : IsPositive x) (hy : IsPositive y)

include hx hy

theorem log_mul_toRat :
    Real.log ((toRat x * toRat y : ℚ) : ℝ) = logValue x + logValue y := by
  have hxr : (toRat x : ℝ) ≠ 0 := by exact_mod_cast hx.toRat_pos.ne'
  have hyr : (toRat y : ℝ) ≠ 0 := by exact_mod_cast hy.toRat_pos.ne'
  rw [Rat.cast_mul, Real.log_mul hxr hyr, logValue, logValue]

/-- **When a product is positive.** -/
theorem toRat_mul_pos_iff : 0 < toRat (x * y) ↔ Lasts x y := by
  have hq := mul_pos hx.toRat_pos hy.toRat_pos
  rw [(rounds_mul hx.isFinite hy.isFinite).toRat_pos_iff hq.le, Lasts,
    ← div_lt_iff₀ unitsOfOne_pos, unitsOfOne, unitPlaces, div_div, ← pow_succ']

/-- A product that vanishes is the positive zero. -/
theorem mul_eq_zero_of_not_lasts (h : ¬Lasts x y) : x * y = 0.0 := by
  have hround := rounds_mul hx.isFinite hy.isFinite
  have hsign := hasSign_mul hx hy
  have hnonneg := hround.toRat_nonneg (mul_pos hx.toRat_pos hy.toRat_pos).le
  rw [← toRat_mul_pos_iff hx hy] at h
  have hunits : units (x * y) = 0 :=
    of_not_not fun hne => toRat_ne_zero_iff.mpr hne (le_antisymm (le_of_not_gt h) hnonneg)
  obtain ⟨s, hs⟩ := partUnits_eq_zero hunits hround.isNaN
  rw [hs] at hsign
  obtain rfl : s = .positive := hsign
  exact decoded_injective hs

theorem Lasts.isPositive_mul (h : Lasts x y) (hfits : Fits (toRat x * toRat y)) :
    IsPositive (x * y) :=
  isPositive_iff.mpr
    ⟨(rounds_mul hx.isFinite hy.isFinite).isFinite_iff.mpr hfits, (toRat_mul_pos_iff hx hy).mpr h⟩

theorem IsNormal.lasts (h : IsNormal x y) : Lasts x y := by
  have hq := mul_pos hx.toRat_pos hy.toRat_pos
  rcases h with hexact | hle
  · rwa [← toRat_mul_pos_iff hx hy, hexact]
  · refine lt_of_lt_of_le ?_ hle
    gcongr
    · norm_num
    · norm_num

/-- **A product that lasts** is off by a factor of two at most. -/
theorem losesAtMost_log_two (hfits : Fits (toRat x * toRat y)) (h : Lasts x y) :
    LosesAtMost (Real.log 2) x y := by
  have hq := mul_pos hx.toRat_pos hy.toRat_pos
  have hproduct := h.isPositive_mul hx hy hfits
  obtain ⟨hlow, hhigh⟩ := (rounds_mul hx.isFinite hy.isFinite).within_two hproduct.isFinite hq.le
    hproduct.toRat_pos
  rw [LosesAtMost, ← log_mul_toRat hx hy]
  exact abs_log_sub_log_le_log_two (by exact_mod_cast hq) (by exact_mod_cast hlow)
    (by exact_mod_cast hhigh)

/-- **A product that does not underflow** is off by a `2 ^ 53`-th part. -/
theorem losesAtMost_of_normal (hfits : Fits (toRat x * toRat y)) (h : IsNormal x y) :
    LosesAtMost (1 / 2 ^ 52) x y := by
  have hq := mul_pos hx.toRat_pos hy.toRat_pos
  have hround := rounds_mul hx.isFinite hy.isFinite
  have herror : |toRat (x * y) - toRat x * toRat y| ≤ toRat x * toRat y / 2 ^ 53 := by
    rcases h with hexact | hle
    · rw [hexact, sub_self, abs_zero]
      positivity
    · exact hround.abs_toRat_sub_le_of_normal (hround.isFinite_iff.mpr hfits) hle
  rw [LosesAtMost, ← log_mul_toRat hx hy]
  have hreal : |(toRat (x * y) : ℝ) - (toRat x * toRat y : ℚ)| ≤
      (toRat x * toRat y : ℚ) * (1 / 2 ^ 53) := by
    rw [mul_one_div]
    exact_mod_cast herror
  refine (abs_log_sub_log_le (by exact_mod_cast hq) (by positivity) (by norm_num) hreal).trans ?_
  norm_num

end Multiplication

/-! ### Running products -/

/-- **Each multiplication** of a running product has a property of its two factors, the product
so far and the next one. -/
def EachProduct (r : Float → Float → Prop) : Float → List Float → Prop
  | _, [] => True
  | a, x :: xs => r a x ∧ EachProduct r (a * x) xs

/-- No multiplication vanishes. -/
def ProductLasts : Float → List Float → Prop :=
  EachProduct Lasts

/-- No multiplication underflows. -/
def ProductNormal : Float → List Float → Prop :=
  EachProduct IsNormal

/-- **The errors of multiplications add up** in the logarithm. -/
theorem abs_logValue_foldl_mul_sub_le {c : ℝ} {a : Float} {xs : List Float}
    (h : EachProduct (LosesAtMost c) a xs) :
    |logValue (xs.foldl (· * ·) a) - (logValue a + (xs.map logValue).sum)| ≤ xs.length * c := by
  induction xs generalizing a with
  | nil => simp
  | cons x xs ih =>
    obtain ⟨hfirst, hrest⟩ := h
    have hsplit : logValue (xs.foldl (· * ·) (a * x)) -
        (logValue a + (logValue x + (xs.map logValue).sum)) =
          (logValue (xs.foldl (· * ·) (a * x)) - (logValue (a * x) + (xs.map logValue).sum)) +
            (logValue (a * x) - (logValue a + logValue x)) := by ring
    rw [List.foldl_cons, List.map_cons, List.sum_cons, List.length_cons, hsplit, Nat.cast_add_one,
      add_one_mul]
    exact (abs_add_le _ _).trans (add_le_add (ih hrest) hfirst)

section Run

variable {a : Float} {xs : List Float} (ha : IsPositive a) (hxs : ∀ x ∈ xs, IsPositive x)

include ha hxs

/-- **What lasts is positive**, and whatever else is so of every multiplication of positive
doubles is so of every multiplication on the way. -/
theorem EachProduct.run {r r' : Float → Float → Prop} (h : EachProduct r a xs)
    (hfits : ProductFits a xs)
    (hlasts : ∀ {a x}, IsPositive a → IsPositive x → r a x → Lasts a x)
    (hstep : ∀ {a x}, IsPositive a → IsPositive x → Fits (toRat a * toRat x) → r a x → r' a x) :
    IsPositive (xs.foldl (· * ·) a) ∧ EachProduct r' a xs := by
  induction xs generalizing a with
  | nil => exact ⟨ha, trivial⟩
  | cons x xs ih =>
    obtain ⟨hx, hxs⟩ := List.forall_mem_cons.mp hxs
    obtain ⟨hfirst, hrest⟩ := h
    obtain ⟨hfit, hfits⟩ := hfits
    have hproduct := (hlasts ha hx hfirst).isPositive_mul ha hx hfit
    obtain ⟨hpos, hall⟩ := ih hproduct hxs hrest hfits
    exact ⟨hpos, hstep ha hx hfit hfirst, hall⟩

omit ha in
/-- What nothing positive changes is what the product remains at. -/
theorem foldl_mul_eq_self (h : ∀ {x}, IsPositive x → a * x = a) : xs.foldl (· * ·) a = a := by
  induction xs with
  | nil => rfl
  | cons x xs ih =>
    obtain ⟨hx, hxs⟩ := List.forall_mem_cons.mp hxs
    rw [List.foldl_cons, h hx, ih hxs]

/-- **A running product that overflows** ends at infinity. -/
theorem foldl_mul_eq_infinity (h : ¬ProductFits a xs) : xs.foldl (· * ·) a = infinity := by
  induction xs generalizing a with
  | nil => exact absurd trivial h
  | cons x xs ih =>
    obtain ⟨hx, hxs⟩ := List.forall_mem_cons.mp hxs
    rw [List.foldl_cons]
    by_cases hfit : Fits (toRat a * toRat x)
    · have hrest : ¬ProductFits (a * x) xs := fun hrest => h ⟨hfit, hrest⟩
      by_cases hlast : Lasts a x
      · exact ih (hlast.isPositive_mul ha hx hfit) hxs hrest
      · -- from zero on, nothing overflows
        have hzero : a * x = 0.0 := mul_eq_zero_of_not_lasts ha hx hlast
        have hfixed := foldl_mul_eq_self hxs zero_mul_of_isPositive
        rw [hzero] at hrest
        exact absurd ((isFinite_product_iff 0.0 xs).mp (by rw [hfixed]; rfl)).2.2 hrest
    · rw [mul_eq_infinity ha hx hfit]
      exact foldl_mul_eq_self hxs infinity_mul_of_isPositive

/-- **A running product that vanishes** ends at zero. -/
theorem foldl_mul_eq_zero (hfits : ProductFits a xs) (h : ¬ProductLasts a xs) :
    xs.foldl (· * ·) a = 0.0 := by
  induction xs generalizing a with
  | nil => exact absurd trivial h
  | cons x xs ih =>
    obtain ⟨hx, hxs⟩ := List.forall_mem_cons.mp hxs
    obtain ⟨hfit, hfits⟩ := hfits
    rw [List.foldl_cons]
    by_cases hlast : Lasts a x
    · exact ih (hlast.isPositive_mul ha hx hfit) hxs hfits fun hrest => h ⟨hlast, hrest⟩
    · rw [mul_eq_zero_of_not_lasts ha hx hlast]
      exact foldl_mul_eq_self hxs zero_mul_of_isPositive

end Run

end MixedWorkload.Binary64

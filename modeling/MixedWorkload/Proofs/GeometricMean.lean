import MixedWorkload.Metrics
import MixedWorkload.Proofs.Roots

/-!
# Where the geometric mean lies

The geometric mean of positive numbers lies between the least and the greatest of them. The one
of the mean latencies is a root of their product, and this product is taken in doubles, so that
the same can be said only while it keeps within their range. For an accurate power function,
`MixedWorkload.geometricMean_liesWithin` says what comes out:

* infinity, if a multiplication overflows;
* zero, if none does and one vanishes;
* otherwise a number within the data up to a factor of two, since every multiplication among
  the least doubles may be off by as much;
* and within the data up to the `10 ^ 9`-th part, if no multiplication underflows.

None of the conditions can be dropped: each of two equal means is the geometric mean of both,
but `MixedWorkload.exists_not_liesWithin` has such pairs whose geometric mean is infinite, or
zero, or less than they are by a sixth.
-/

namespace MixedWorkload

open Binary64

/-! ### Lying within the data -/

/-- **A positive double lies within the data**, up to a factor and a relative error of
`10 ^ (-9)`. -/
structure LiesWithin (factor : ℚ) (xs : List Float) (g : Float) : Prop where
  /-- It is finite and positive. -/
  isPositive : IsPositive g
  /-- It is not less than the least of the data. -/
  ge : ∀ low, (∀ x ∈ xs, low ≤ toRat x) → low / factor * (1 - 1 / 10 ^ 9) ≤ toRat g
  /-- It is not greater than the greatest of the data. -/
  le : ∀ high, (∀ x ∈ xs, toRat x ≤ high) → toRat g ≤ high * factor * (1 + 1 / 10 ^ 9)

/-- The mean of the logarithms is not below that of any lower bound. -/
theorem log_le_mean {low : ℚ} (hlow : 0 < low) {xs : List Float} (hne : xs ≠ [])
    (h : ∀ x ∈ xs, low ≤ toRat x) : Real.log low ≤ (xs.map logValue).sum / xs.length := by
  have hpos : (0 : ℝ) < xs.length := by exact_mod_cast List.length_pos_of_ne_nil hne
  have hsum := List.card_nsmul_le_sum (xs.map logValue) (Real.log low) fun v hv => by
    obtain ⟨x, hx, rfl⟩ := List.mem_map.mp hv
    exact Real.log_le_log (by exact_mod_cast hlow) (by exact_mod_cast h x hx)
  rw [List.length_map, nsmul_eq_mul] at hsum
  rwa [le_div_iff₀ hpos, mul_comm]

/-- The mean of the logarithms is not above that of any upper bound. -/
theorem mean_le_log {high : ℚ} {xs : List Float} (hne : xs ≠ []) (hxs : ∀ x ∈ xs, IsPositive x)
    (h : ∀ x ∈ xs, toRat x ≤ high) : (xs.map logValue).sum / xs.length ≤ Real.log high := by
  have hpos : (0 : ℝ) < xs.length := by exact_mod_cast List.length_pos_of_ne_nil hne
  have hsum := List.sum_le_card_nsmul (xs.map logValue) (Real.log high) fun v hv => by
    obtain ⟨x, hx, rfl⟩ := List.mem_map.mp hv
    exact Real.log_le_log (by exact_mod_cast (hxs x hx).toRat_pos) (by exact_mod_cast h x hx)
  rw [List.length_map, nsmul_eq_mul] at hsum
  rwa [div_le_iff₀ hpos, mul_comm]

/-- **What is near to the mean of the logarithms lies within the data.** -/
theorem liesWithin_of_logValue {factor : ℚ} (hfactor : 0 < factor) {xs : List Float}
    (hne : xs ≠ []) (hxs : ∀ x ∈ xs, IsPositive x) {g : Float} (hg : IsPositive g)
    (h : |logValue g - (xs.map logValue).sum / xs.length| ≤ Real.log factor + 4 / 10 ^ 10) :
    LiesWithin factor xs g := by
  obtain ⟨hbelow, habove⟩ := abs_le.mp h
  have hg_pos : (0 : ℝ) < toRat g := by exact_mod_cast hg.toRat_pos
  have hfactor_pos : (0 : ℝ) < factor := by exact_mod_cast hfactor
  rw [logValue] at hbelow habove
  refine ⟨hg, fun low hlow => ?_, fun high hhigh => ?_⟩
  · rcases le_or_gt low 0 with hneg | hpos
    · have hle : low / factor ≤ 0 := div_nonpos_of_nonpos_of_nonneg hneg hfactor.le
      exact (mul_nonpos_of_nonpos_of_nonneg hle (by norm_num)).trans hg.toRat_pos.le
    · have hlow_pos : (0 : ℝ) < low := by exact_mod_cast hpos
      have hmean := log_le_mean hpos hne hlow
      have herror : Real.log (1 - 1 / 10 ^ 9) ≤ -(4 / 10 ^ 10) :=
        (Real.log_le_sub_one_of_pos (by norm_num)).trans (by norm_num)
      refine (Rat.cast_le (K := ℝ)).mp ?_
      push_cast
      rw [← Real.log_le_log_iff (mul_pos (div_pos hlow_pos hfactor_pos) (by norm_num)) hg_pos,
        Real.log_mul (div_pos hlow_pos hfactor_pos).ne' (by norm_num),
        Real.log_div hlow_pos.ne' hfactor_pos.ne']
      linarith
  · obtain ⟨x, hx⟩ := List.exists_mem_of_ne_nil xs hne
    have hpos : (0 : ℝ) < high := by exact_mod_cast (hxs x hx).toRat_pos.trans_le (hhigh x hx)
    have hmean := mean_le_log hne hxs hhigh
    have herror : 4 / 10 ^ 10 ≤ Real.log (1 + 1 / 10 ^ 9) :=
      le_trans (by norm_num) (Real.one_sub_inv_le_log_of_pos (by norm_num))
    refine (Rat.cast_le (K := ℝ)).mp ?_
    push_cast
    rw [← Real.log_le_log_iff hg_pos (mul_pos (mul_pos hpos hfactor_pos) (by norm_num)),
      Real.log_mul (mul_pos hpos hfactor_pos).ne' (by norm_num),
      Real.log_mul hpos.ne' hfactor_pos.ne']
    linarith

/-! ### The geometric mean -/

/-- **Neither policy refuses positive means.** -/
theorem geometricMeanBy_eq_ok (power : Float → Float → Float) (policy : MeanPolicy)
    {q : QueryGroups} (hne : q.isEmpty = false) (hmeans : ∀ x ∈ q.meanLatencies, IsPositive x) :
    geometricMeanBy power policy q =
      .ok (power (product q.meanLatencies) (1.0 / q.length.toFloat)) := by
  have hfirst : q.firstNonPositive? = none := by
    refine List.find?_eq_none.mpr fun g hg => ?_
    have hmean := hmeans _ (List.mem_map_of_mem hg)
    have hnumber := isNaN_of_isFinite hmean.isFinite
    have hnot : ¬g.meanLatency ≤ 0.0 := (not_le hnumber rfl).mpr hmean.pos
    rw [isPositiveMean, hnumber, decide_eq_false hnot]
    decide
  unfold geometricMeanBy
  rw [hne, hfirst]
  cases policy <;> rfl

section Accurate

variable {power : Float → Float → Float} (hpower : IsAccuratePower power)

include hpower

/-- **The root of a product** is off by no more than each multiplication is. -/
theorem liesWithin_root {factor : ℚ} {c : ℝ} (hfactor : 0 < factor)
    (hc : c + 3 / 10 ^ 10 ≤ Real.log factor + 4 / 10 ^ 10) {xs : List Float} (hne : xs ≠ [])
    (hlength : xs.length < 2 ^ 64) (hxs : ∀ x ∈ xs, IsPositive x)
    (hproduct : IsPositive (product xs)) (h : EachProduct (LosesAtMost c) 1.0 xs) :
    LiesWithin factor xs (power (product xs) (1.0 / xs.length.toFloat)) := by
  have hpos := List.length_pos_of_ne_nil hne
  have hlength_pos : (0 : ℝ) < xs.length := by exact_mod_cast hpos
  obtain ⟨hroot, hexact⟩ := hpower.root hproduct hpos hlength
  refine liesWithin_of_logValue hfactor hne hxs hroot (le_trans ?_ hc)
  have hfactors := abs_logValue_foldl_mul_sub_le h
  rw [logValue_one, zero_add] at hfactors
  have hmean : |logValue (product xs) / xs.length - (xs.map logValue).sum / xs.length| ≤ c := by
    rw [← sub_div, abs_div, Nat.abs_cast, div_le_iff₀ hlength_pos, mul_comm]
    exact hfactors
  refine (abs_sub_le _ (logValue (product xs) / xs.length) _).trans ?_
  linarith

/-- **Where the geometric mean of positive means lies.** -/
theorem geometricMean_liesWithin (policy : MeanPolicy) {q : QueryGroups}
    (hne : q.isEmpty = false) (hlength : q.length < 2 ^ 64)
    (hmeans : ∀ x ∈ q.meanLatencies, IsPositive x) :
    ∃ g, geometricMeanBy power policy q = .ok g ∧
      (¬ProductFits 1.0 q.meanLatencies → g = infinity) ∧
      (ProductFits 1.0 q.meanLatencies → ¬ProductLasts 1.0 q.meanLatencies → g = 0.0) ∧
      (ProductFits 1.0 q.meanLatencies → ProductLasts 1.0 q.meanLatencies →
        LiesWithin 2 q.meanLatencies g) ∧
      (ProductFits 1.0 q.meanLatencies → ProductNormal 1.0 q.meanLatencies →
        LiesWithin 1 q.meanLatencies g) := by
  have hcount : q.length = q.meanLatencies.length := (List.length_map _).symm
  have hmeans_ne : q.meanLatencies ≠ [] :=
    fun hnil => List.isEmpty_eq_false_iff.mp hne (List.map_eq_nil_iff.mp hnil)
  rw [geometricMeanBy_eq_ok power policy hne hmeans, hcount]
  rw [hcount] at hlength
  generalize q.meanLatencies = xs at *
  obtain ⟨hexponent, -⟩ :=
    exponent_cases (List.length_pos_of_ne_nil hmeans_ne) (isFinite_toFloat_of_lt hlength)
  refine ⟨_, rfl, fun h => ?_, fun hfits h => ?_, fun hfits h => ?_, fun hfits h => ?_⟩
  · rw [product, foldl_mul_eq_infinity isPositive_one hmeans h, hpower.infinity hexponent]
  · rw [product, foldl_mul_eq_zero isPositive_one hmeans hfits h, hpower.zero hexponent]
  · obtain ⟨hproduct, hsteps⟩ :=
      EachProduct.run isPositive_one hmeans h hfits (fun _ _ h => h) losesAtMost_log_two
    refine liesWithin_root hpower two_pos ?_ hmeans_ne hlength hmeans hproduct hsteps
    rw [Rat.cast_ofNat]
    linarith
  · obtain ⟨hproduct, hsteps⟩ :=
      EachProduct.run isPositive_one hmeans h hfits IsNormal.lasts losesAtMost_of_normal
    refine liesWithin_root hpower one_pos ?_ hmeans_ne hlength hmeans hproduct hsteps
    rw [Rat.cast_one, Real.log_one]
    norm_num

end Accurate

/-- A query that was executed once. -/
def executedOnce (type : TransactionType) (queryNumber : UInt32) (latency : Float) : QueryGroup :=
  ⟨type, queryNumber, 1, latency, latency, latency, 0.0, 0.0, 1⟩

/-- Three queries of very different latencies. -/
def spreadGroups : QueryGroups :=
  ⟨[executedOnce 7 1 1e-200, executedOnce 8 2 1e150, executedOnce 9 3 1e60], 1⟩

/-- Means that are far apart, and whose product stays within the range of doubles. -/
theorem geometricMean_liesWithin_spreadGroups :
    IsAccuratePower nearestPower ∧ spreadGroups.isEmpty = false ∧ spreadGroups.length < 2 ^ 64 ∧
    (∀ x ∈ spreadGroups.meanLatencies, IsPositive x) ∧
    ProductFits 1.0 spreadGroups.meanLatencies ∧ ProductNormal 1.0 spreadGroups.meanLatencies ∧
    ∃ g, geometricMeanBy nearestPower .strict spreadGroups = .ok g ∧
      LiesWithin 1 spreadGroups.meanLatencies g := by
  have hmeans : ∀ x ∈ spreadGroups.meanLatencies, IsPositive x := by
    intro x hx
    simp only [spreadGroups, QueryGroups.meanLatencies, executedOnce, List.map_cons, List.map_nil,
      List.mem_cons, List.not_mem_nil, or_false] at hx
    rcases hx with rfl | rfl | rfl <;> exact ⟨by decide +kernel, by decide +kernel⟩
  have hfits : ProductFits 1.0 spreadGroups.meanLatencies :=
    ((isFinite_product_iff 1.0 _).mp (by decide +kernel)).2.2
  have hnormal : ProductNormal 1.0 spreadGroups.meanLatencies := by
    refine ⟨Or.inl ?_, Or.inr ?_, Or.inr ?_, trivial⟩
    · decide +kernel
    · decide +kernel
    · decide +kernel
  obtain ⟨g, hg, -, -, -, hwithin⟩ :=
    geometricMean_liesWithin isAccuratePower_nearestPower .strict (q := spreadGroups) rfl
      (by decide) hmeans
  exact ⟨isAccuratePower_nearestPower, rfl, by decide, hmeans, hfits, hnormal, g, hg,
    hwithin hfits hnormal⟩

/-! ### Outside the data -/

/-- Two queries of the same latency, which is their geometric mean. -/
def equalGroups (latency : Float) : QueryGroups :=
  ⟨[executedOnce 7 1 latency, executedOnce 8 2 latency], 1⟩

/-- The geometric mean of two equal means is a square root. -/
theorem geometricMeanBy_equalGroups (power : Float → Float → Float) (policy : MeanPolicy)
    {latency : Float} (h : IsPositive latency) :
    geometricMeanBy power policy (equalGroups latency) =
      .ok (power (1.0 * latency * latency) (1.0 / (2 : ℕ).toFloat)) :=
  geometricMeanBy_eq_ok power policy rfl fun x hx => by
    rcases List.mem_pair.mp hx with rfl | rfl <;> exact h

/-- The square root of the least double. -/
theorem toRat_root_least_lt {power : Float → Float → Float} (hpower : IsAccuratePower power) :
    toRat (power 5e-324 (1.0 / (2 : ℕ).toFloat)) < 11 / 10 * (1 / 2 ^ 537) := by
  have hleast : IsPositive 5e-324 := ⟨by decide +kernel, by decide +kernel⟩
  have hlog : logValue 5e-324 = -(1074 * Real.log 2) := by
    have hunits : units 5e-324 = 1 := by decide +kernel
    rw [logValue, toRat, hunits, unitsOfOne, unitPlaces, Int.cast_one, Rat.cast_div, Rat.cast_one,
      Rat.cast_pow, Rat.cast_ofNat, one_div, Real.log_inv, Real.log_pow, Nat.cast_ofNat]
  obtain ⟨hpos, hroot⟩ := hpower.root hleast two_pos (by norm_num)
  have hhigh := (abs_le.mp hroot).2
  rw [hlog, logValue, Nat.cast_ofNat] at hhigh
  have hroot_pos : (0 : ℝ) < toRat (power 5e-324 (1.0 / (2 : ℕ).toFloat)) := by
    exact_mod_cast hpos.toRat_pos
  have hgap := Real.one_sub_inv_le_log_of_pos (by norm_num : (0 : ℝ) < 11 / 10)
  refine (Rat.cast_lt (K := ℝ)).mp ?_
  push_cast
  rw [← Real.log_lt_log_iff hroot_pos (by positivity), Real.log_mul (by norm_num) (by positivity),
    one_div, Real.log_inv, Real.log_pow, Nat.cast_ofNat]
  linarith

/-- **Equal means that are not their geometric mean**: their product overflows, it vanishes, or
it is rounded to the least double. -/
theorem exists_not_liesWithin :
    IsAccuratePower nearestPower ∧ ∀ power, IsAccuratePower power →
      ∀ policy, ∀ latency ∈ [1e200, 1e-200, 2.7e-162], IsPositive latency ∧
        ¬∃ g, geometricMeanBy power policy (equalGroups latency) = .ok g ∧
          LiesWithin 1 (equalGroups latency).meanLatencies g := by
  refine ⟨isAccuratePower_nearestPower, fun power hpower policy latency hlatency => ?_⟩
  have hexponent := (exponent_cases (n := 2) two_pos (by decide +kernel)).1
  have hpositive : IsPositive latency := by
    simp only [List.mem_cons, List.not_mem_nil, or_false] at hlatency
    rcases hlatency with rfl | rfl | rfl <;> exact ⟨by decide +kernel, by decide +kernel⟩
  refine ⟨hpositive, ?_⟩
  rintro ⟨g, hg, hwithin⟩
  rw [geometricMeanBy_equalGroups power policy hpositive, Except.ok.injEq] at hg
  simp only [List.mem_cons, List.not_mem_nil, or_false] at hlatency
  rcases hlatency with rfl | rfl | rfl
  · have hproduct : (1.0 : Float) * 1e200 * 1e200 = infinity := by decide +kernel
    rw [hproduct, hpower.infinity hexponent] at hg
    subst hg
    exact absurd hwithin.isPositive.isFinite (by decide)
  · have hproduct : (1.0 : Float) * 1e-200 * 1e-200 = 0.0 := by decide +kernel
    rw [hproduct, hpower.zero hexponent] at hg
    subst hg
    exact absurd hwithin.isPositive.pos (by decide)
  · have hproduct : (1.0 : Float) * 2.7e-162 * 2.7e-162 = 5e-324 := by decide +kernel
    have hroot := toRat_root_least_lt hpower
    rw [← hproduct, hg] at hroot
    have hge := hwithin.ge (toRat 2.7e-162) fun x hx => by
      rcases List.mem_pair.mp hx with rfl | rfl <;> exact le_rfl
    have hlatency : 6 / 5 * (1 / 2 ^ 537) ≤ toRat 2.7e-162 := by decide +kernel
    have hpos : (0 : ℚ) < 1 / 2 ^ 537 := by positivity
    generalize (1 : ℚ) / 2 ^ 537 = root at *
    linarith

end MixedWorkload

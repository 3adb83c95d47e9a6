import MixedWorkload.Proofs.Binary64.Order

/-!
# Rounding to doubles

Every operation on doubles computes a rational number and rounds it. This file says what
rounding is, apart from any operation, for numbers measured in units of the least positive
double. The doubles around a number lie on a grid, the multiples of a power of two that
leave fifty-three bits of it, and rounding goes to the nearest point of the grid, of two to
the one with the even multiple (`MixedWorkload.Binary64.rounded`).

What is needed of rounding later on is little:

* it keeps the order (`MixedWorkload.Binary64.rounded_mono`) and the sign
  (`MixedWorkload.Binary64.rounded_neg`);
* it leaves doubles as they are (`MixedWorkload.Binary64.rounded_units`);
* it ends at infinity exactly from half a step beyond the greatest double on
  (`MixedWorkload.Binary64.abs_rounded_lt_iff`).
-/

namespace MixedWorkload.Binary64

open Float.Model.UnpackedFloat

/-! ### The nearest natural number -/

/-- The natural number nearest to a rational number that is not negative, the even one of
two. -/
def nearestNatural (x : ℚ) : ℕ :=
  if x - ⌊x⌋₊ < 1 / 2 then ⌊x⌋₊
  else if 1 / 2 < x - ⌊x⌋₊ then ⌊x⌋₊ + 1
  else ⌊x⌋₊ + ⌊x⌋₊ % 2

theorem nearestNatural_natCast (n : ℕ) : nearestNatural n = n := by
  have hhalf : (0 : ℚ) < 1 / 2 := by norm_num
  rw [nearestNatural, Nat.floor_natCast, sub_self, if_pos hhalf]

theorem floor_le_nearestNatural (x : ℚ) : ⌊x⌋₊ ≤ nearestNatural x := by
  unfold nearestNatural
  split_ifs <;> omega

theorem nearestNatural_le_floor (x : ℚ) : nearestNatural x ≤ ⌊x⌋₊ + 1 := by
  unfold nearestNatural
  split_ifs <;> omega

/-- **The nearest natural number keeps the order.** -/
theorem nearestNatural_mono {x y : ℚ} (h : x ≤ y) : nearestNatural x ≤ nearestNatural y := by
  rcases (Nat.floor_mono h).eq_or_lt with heq | hlt
  · -- between the same two neighbours, the distances from the lower one decide
    unfold nearestNatural
    rw [heq]
    split_ifs <;> first | omega | (exfalso; linarith)
  · have hx := nearestNatural_le_floor x
    have hy := floor_le_nearestNatural y
    omega

/-! ### The grid around a magnitude -/

/-- **The grid around a magnitude**: its step is `2 ^ g`, and there are at most fifty-three
bits above the step, fewer only if the step is the unit. -/
structure IsGrid (u : ℚ) (g : ℕ) : Prop where
  /-- There are at most fifty-three bits. -/
  lt : u < 2 ^ (g + 53)
  /-- There are fewer only for the finest grid. -/
  le : g = 0 ∨ 2 ^ (g + 52) ≤ u

/-- The exponent of the step of the grid around a magnitude. -/
def gridExponent (u : ℚ) : ℕ :=
  ⌊u⌋₊.log2 - 52

/-- **A grid is not coarser around a lesser magnitude.** -/
theorem IsGrid.mono {u v : ℚ} {g k : ℕ} (hu : IsGrid u g) (hv : IsGrid v k) (h : u ≤ v) :
    g ≤ k := by
  rcases hu.le with rfl | hle
  · exact Nat.zero_le k
  · have hlt : (2 : ℚ) ^ (g + 52) < 2 ^ (k + 53) := lt_of_le_of_lt (hle.trans h) hv.lt
    have hexp := (pow_lt_pow_iff_right₀ (by norm_num : (1 : ℚ) < 2)).mp hlt
    omega

/-- There is one grid only. -/
theorem IsGrid.unique {u : ℚ} {g k : ℕ} (hg : IsGrid u g) (hk : IsGrid u k) : g = k :=
  le_antisymm (hg.mono hk le_rfl) (hk.mono hg le_rfl)

theorem isGrid_gridExponent {u : ℚ} (hu : 0 ≤ u) : IsGrid u (gridExponent u) := by
  unfold gridExponent
  constructor
  · have hlt : ⌊u⌋₊ + 1 ≤ 2 ^ (⌊u⌋₊.log2 - 52 + 53) :=
      le_trans Nat.lt_log2_self (Nat.pow_le_pow_right (by norm_num) (by omega))
    calc u < ⌊u⌋₊ + 1 := Nat.lt_floor_add_one u
      _ ≤ 2 ^ (⌊u⌋₊.log2 - 52 + 53) := by exact_mod_cast hlt
  · by_cases hlog : ⌊u⌋₊.log2 ≤ 52
    · exact Or.inl (Nat.sub_eq_zero_of_le hlog)
    · right
      have hne : ⌊u⌋₊ ≠ 0 := by
        intro hzero
        rw [hzero] at hlog
        exact hlog (by decide)
      have hle : 2 ^ (⌊u⌋₊.log2 - 52 + 52) ≤ ⌊u⌋₊ := by
        rw [Nat.sub_add_cancel (by omega)]
        exact Nat.log2_self_le hne
      calc (2 : ℚ) ^ (⌊u⌋₊.log2 - 52 + 52) ≤ ⌊u⌋₊ := by exact_mod_cast hle
        _ ≤ u := Nat.floor_le hu

theorem IsGrid.gridExponent_eq {u : ℚ} {g : ℕ} (h : IsGrid u g) (hu : 0 ≤ u) :
    gridExponent u = g :=
  (isGrid_gridExponent hu).unique h

/-! ### Rounding a magnitude -/

/-- The point of the grid that is nearest to a magnitude. -/
def onGrid (u : ℚ) : ℕ :=
  nearestNatural (u / 2 ^ gridExponent u) * 2 ^ gridExponent u

theorem onGrid_eq {u : ℚ} {g : ℕ} (h : IsGrid u g) (hu : 0 ≤ u) :
    onGrid u = nearestNatural (u / 2 ^ g) * 2 ^ g := by
  rw [onGrid, h.gridExponent_eq hu]

/-- A multiple of the step that fits into the grid is on it. -/
theorem onGrid_magnitude {m k : ℕ} (h : m < 2 ^ 53) : onGrid (m * 2 ^ k : ℕ) = m * 2 ^ k := by
  have hgrid := isGrid_gridExponent (Nat.cast_nonneg (α := ℚ) (m * 2 ^ k))
  generalize hg : gridExponent ((m * 2 ^ k : ℕ) : ℚ) = g at hgrid
  have hle : g ≤ k := by
    rcases hgrid.le with rfl | hle
    · exact Nat.zero_le k
    · have hnat : 2 ^ (g + 52) ≤ m * 2 ^ k := by exact_mod_cast hle
      have hlt : m * 2 ^ k < 2 ^ (53 + k) := by
        rw [pow_add]
        exact Nat.mul_lt_mul_of_pos_right h (Nat.two_pow_pos k)
      have hexp := (Nat.pow_lt_pow_iff_right (by norm_num)).mp (lt_of_le_of_lt hnat hlt)
      omega
  have hsplit : m * 2 ^ k = m * 2 ^ (k - g) * 2 ^ g := by
    rw [mul_assoc, ← pow_add, Nat.sub_add_cancel hle]
  have hquotient : ((m * 2 ^ k : ℕ) : ℚ) / 2 ^ g = (m * 2 ^ (k - g) : ℕ) := by
    rw [hsplit, Nat.cast_mul _ (2 ^ g), Nat.cast_pow, Nat.cast_ofNat,
      mul_div_cancel_right₀ _ (by positivity)]
  rw [onGrid, hg, hquotient, nearestNatural_natCast, ← hsplit]

/-- At most `2 ^ 53` steps lie below a magnitude. -/
theorem IsGrid.steps_le {u : ℚ} {g : ℕ} (h : IsGrid u g) :
    nearestNatural (u / 2 ^ g) ≤ 2 ^ 53 := by
  have hquotient : u / 2 ^ g ≤ (2 ^ 53 : ℕ) := by
    rw [div_le_iff₀ (by positivity), Nat.cast_pow, Nat.cast_ofNat, ← pow_add, add_comm]
    exact h.lt.le
  have hle := nearestNatural_mono hquotient
  rwa [nearestNatural_natCast] at hle

/-- On all grids but the finest, there are at least `2 ^ 52` steps. -/
theorem le_steps {u : ℚ} {g : ℕ} (hu : 2 ^ (g + 52) ≤ u) : 2 ^ 52 ≤ nearestNatural (u / 2 ^ g) := by
  have hquotient : ((2 ^ 52 : ℕ) : ℚ) ≤ u / 2 ^ g := by
    rw [le_div_iff₀ (by positivity), Nat.cast_pow, Nat.cast_ofNat, ← pow_add, add_comm]
    exact hu
  have hle := nearestNatural_mono hquotient
  rwa [nearestNatural_natCast] at hle

theorem onGrid_le {u : ℚ} (hu : 0 ≤ u) : onGrid u ≤ 2 ^ (gridExponent u + 53) := by
  rw [onGrid, add_comm, pow_add]
  exact Nat.mul_le_mul_right _ (isGrid_gridExponent hu).steps_le

/-- **Rounding to the grid keeps the order.** -/
theorem onGrid_mono {u v : ℚ} (hu : 0 ≤ u) (h : u ≤ v) : onGrid u ≤ onGrid v := by
  have hgu := isGrid_gridExponent hu
  have hgv := isGrid_gridExponent (hu.trans h)
  rcases (hgu.mono hgv h).eq_or_lt with heq | hlt
  · rw [onGrid, onGrid, heq]
    exact Nat.mul_le_mul_right _ (nearestNatural_mono (by gcongr))
  · -- a power of two lies between the two, and it is on both grids
    have hle : 2 ^ (gridExponent v + 52) ≤ v := hgv.le.resolve_left (by omega)
    calc onGrid u ≤ 2 ^ (gridExponent u + 53) := onGrid_le hu
      _ ≤ 2 ^ (52 + gridExponent v) := Nat.pow_le_pow_right (by norm_num) (by omega)
      _ = 2 ^ 52 * 2 ^ gridExponent v := pow_add 2 52 _
      _ ≤ onGrid v := Nat.mul_le_mul_right _ (le_steps hle)

/-! ### Rounding with its end -/

/-- A magnitude rounded to a double, which is an infinity beyond the greatest one. -/
def roundedMagnitude (u : ℚ) : ℕ :=
  min (onGrid u) infiniteUnits

/-- **Rounding**: the units of the double that is nearest to a number of units. -/
def rounded (u : ℚ) : ℤ :=
  if 0 ≤ u then roundedMagnitude u else -roundedMagnitude (-u)

theorem rounded_of_nonneg {u : ℚ} (hu : 0 ≤ u) : rounded u = roundedMagnitude u :=
  if_pos hu

theorem roundedMagnitude_mono {u v : ℚ} (hu : 0 ≤ u) (h : u ≤ v) :
    roundedMagnitude u ≤ roundedMagnitude v :=
  min_le_min_right _ (onGrid_mono hu h)

/-- A multiple of a power of two of fifty-three bits at most is a double, up to infinity. -/
theorem roundedMagnitude_magnitude {m k : ℕ} (hm : m < 2 ^ 53) (h : m * 2 ^ k ≤ infiniteUnits) :
    roundedMagnitude (m * 2 ^ k : ℕ) = m * 2 ^ k := by
  rw [roundedMagnitude, onGrid_magnitude hm, min_eq_left h]

theorem roundedMagnitude_zero : roundedMagnitude 0 = 0 := by
  have h := roundedMagnitude_magnitude (m := 0) (k := 0) (by norm_num) (by simp)
  simpa only [Nat.zero_mul, Nat.cast_zero] using h

theorem rounded_zero : rounded 0 = 0 := by
  rw [rounded_of_nonneg le_rfl, roundedMagnitude_zero, Nat.cast_zero]

/-- **What is rounded to zero**: half a unit, a tie, and what is less. -/
theorem rounded_eq_zero_iff {u : ℚ} (hu : 0 ≤ u) : rounded u = 0 ↔ u ≤ 1 / 2 := by
  have hsmall (h : u < 1) : rounded u = min (nearestNatural u) infiniteUnits := by
    have hgrid : IsGrid u 0 := ⟨h.trans (by norm_num), Or.inl rfl⟩
    rw [rounded_of_nonneg hu, roundedMagnitude, onGrid_eq hgrid hu, pow_zero, pow_zero, div_one,
      mul_one, Nat.cast_min]
  have hpos := infiniteUnits_pos
  rcases lt_or_ge u 1 with h | h
  · have hfloor : ⌊u⌋₊ = 0 := Nat.floor_eq_zero.mpr h
    rw [hsmall h, nearestNatural, hfloor, Nat.cast_zero, sub_zero]
    split_ifs <;> constructor <;> intro <;> first | omega | linarith
  · have hone : rounded (1 * 2 ^ 0 : ℕ) = (1 * 2 ^ 0 : ℕ) := by
      rw [rounded_of_nonneg (Nat.cast_nonneg _),
        roundedMagnitude_magnitude (by norm_num) (Nat.succ_le_of_lt hpos)]
    have hle : rounded (1 * 2 ^ 0 : ℕ) ≤ rounded u := by
      rw [rounded_of_nonneg (Nat.cast_nonneg _), rounded_of_nonneg hu]
      exact_mod_cast roundedMagnitude_mono (Nat.cast_nonneg _) (by simpa using h)
    rw [hone] at hle
    exact iff_of_false (by omega) (by linarith)

/-- **Rounding keeps the sign.** -/
theorem rounded_neg (u : ℚ) : rounded (-u) = -rounded u := by
  rcases lt_trichotomy u 0 with h | rfl | h
  · rw [rounded_of_nonneg (by linarith), rounded, if_neg (by linarith), neg_neg]
  · rw [neg_zero, rounded_zero, neg_zero]
  · rw [rounded_of_nonneg h.le, rounded, if_neg (by linarith), neg_neg]

theorem rounded_nonneg {u : ℚ} (hu : 0 ≤ u) : 0 ≤ rounded u := by
  rw [rounded_of_nonneg hu]
  exact Int.natCast_nonneg _

/-- **Rounding keeps the order.** -/
theorem rounded_mono {u v : ℚ} (h : u ≤ v) : rounded u ≤ rounded v := by
  rcases le_or_gt 0 u with hu | hu
  · rw [rounded_of_nonneg hu, rounded_of_nonneg (hu.trans h)]
    exact_mod_cast roundedMagnitude_mono hu h
  · rcases le_or_gt 0 v with hv | hv
    · have hneg := rounded_nonneg (neg_nonneg.mpr hu.le)
      have hpos := rounded_nonneg hv
      rw [rounded_neg] at hneg
      omega
    · -- both are negative, so their magnitudes are in the other order
      rw [rounded, if_neg (by linarith), rounded, if_neg (by linarith), neg_le_neg_iff]
      exact_mod_cast roundedMagnitude_mono (by linarith) (neg_le_neg h)

/-- **Rounding leaves doubles as they are.** -/
theorem rounded_units (x : Float) : rounded (units x) = units x := by
  -- it is enough to look at a magnitude
  have hsigned : ∀ (s : Sign) {m k : ℕ}, m < 2 ^ 53 → m * 2 ^ k ≤ infiniteUnits →
      rounded (s.apply (m * 2 ^ k : ℕ) : ℤ) = s.apply (m * 2 ^ k : ℕ) := by
    intro s m k hm hle
    have hpos : rounded ((m * 2 ^ k : ℕ) : ℤ) = (m * 2 ^ k : ℕ) := by
      rw [Int.cast_natCast, rounded_of_nonneg (Nat.cast_nonneg _),
        roundedMagnitude_magnitude hm hle]
    cases s with
    | positive => exact hpos
    | negative =>
      simp only [Sign.apply]
      rw [Int.cast_neg, rounded_neg, hpos]
  rw [units]
  cases h : decoded x with
  | notANumber | zero => exact_mod_cast rounded_zero
  | infinity s => exact hsigned s (by norm_num [fractions]) le_rfl
  | finite s m e hm =>
    have hcan := isCanonical_of_decoded h
    have hlt := hcan.lt
    have hm : m < 2 ^ 53 := by
      rw [fractions] at hlt
      omega
    exact hsigned s hm hcan.lt_infiniteUnits.le

/-! ### Overflow -/

/-- The exponent of the step of the last grid with doubles. -/
def lastGrid : ℕ := 2045

/-- Half a step beyond the greatest double. From here on the nearest double would be the
next power of two, which is none any more. -/
def overflowUnits : ℕ := (2 ^ 54 - 1) * 2 ^ (lastGrid - 1)

theorem infiniteUnits_eq : infiniteUnits = 2 ^ 53 * 2 ^ lastGrid := by
  have hexp : (972 + 1074 : ℤ).toNat = lastGrid + 1 := rfl
  rw [infiniteUnits, magnitudeUnits, fractions, hexp, pow_succ 2 lastGrid, pow_succ 2 52,
    mul_assoc, mul_comm (2 ^ lastGrid) 2]

/-- Below half a step above a natural number, the nearest one is not above it. -/
theorem nearestNatural_le {x : ℚ} {n : ℕ} (hx : 0 ≤ x) (h : x < n + 1 / 2) :
    nearestNatural x ≤ n := by
  have hfloor : ⌊x⌋₊ ≤ n := by
    have hlt : ⌊x⌋₊ < n + 1 := by
      rw [Nat.floor_lt hx]
      push_cast
      linarith
    omega
  rcases hfloor.eq_or_lt with heq | hlt
  · have hbelow : x - n < 1 / 2 := by linarith
    rw [nearestNatural, heq, if_pos hbelow]
  · exact (nearestNatural_le_floor x).trans hlt

/-- A half above an odd number is rounded up. -/
theorem nearestNatural_add_half {n : ℕ} (hodd : n % 2 = 1) :
    nearestNatural (n + 1 / 2) = n + 1 := by
  have hfloor : ⌊(n : ℚ) + 1 / 2⌋₊ = n := by
    rw [Nat.floor_eq_iff (by positivity)]
    constructor <;> linarith
  rw [nearestNatural, hfloor, add_sub_cancel_left, if_neg (lt_irrefl _), if_neg (lt_irrefl _),
    hodd]

/-- The number in question, in steps of the last grid with doubles. -/
theorem overflowUnits_eq : (overflowUnits : ℚ) = ((2 ^ 53 - 1 : ℕ) + 1 / 2) * 2 ^ lastGrid := by
  have hexp : lastGrid = lastGrid - 1 + 1 := rfl
  rw [overflowUnits, Nat.cast_mul, Nat.cast_pow, Nat.cast_ofNat, hexp, Nat.add_sub_cancel,
    pow_succ (2 : ℚ) (lastGrid - 1)]
  have hnum : ((2 ^ 54 - 1 : ℕ) : ℚ) = ((2 ^ 53 - 1 : ℕ) + 1 / 2) * 2 := by norm_num
  rw [hnum, mul_assoc, mul_comm 2]

theorem isGrid_overflowUnits : IsGrid overflowUnits lastGrid := by
  have hpos : (0 : ℚ) < 2 ^ lastGrid := by positivity
  refine ⟨?_, Or.inr ?_⟩
  · rw [overflowUnits_eq, pow_add, mul_comm]
    exact mul_lt_mul_of_pos_left (by norm_num) hpos
  · rw [overflowUnits_eq, pow_add, mul_comm]
    exact mul_le_mul_of_nonneg_right (by norm_num) hpos.le

theorem onGrid_overflowUnits : onGrid overflowUnits = infiniteUnits := by
  have hpos : (2 : ℚ) ^ lastGrid ≠ 0 := by positivity
  rw [onGrid_eq isGrid_overflowUnits (Nat.cast_nonneg _), overflowUnits_eq,
    mul_div_cancel_right₀ _ hpos, nearestNatural_add_half (by norm_num), infiniteUnits_eq,
    Nat.sub_add_cancel (by norm_num)]

theorem onGrid_lt_iff {u : ℚ} (hu : 0 ≤ u) : onGrid u < infiniteUnits ↔ u < overflowUnits := by
  constructor
  · intro h
    by_contra hge
    have hmono := onGrid_mono (Nat.cast_nonneg _) (le_of_not_gt hge)
    rw [onGrid_overflowUnits] at hmono
    exact absurd h (not_lt_of_ge hmono)
  · intro h
    have hgrid := isGrid_gridExponent hu
    have hle : gridExponent u ≤ lastGrid := hgrid.mono isGrid_overflowUnits h.le
    rw [infiniteUnits_eq]
    rcases hle.eq_or_lt with heq | hlt
    · -- on the last grid, what is below the half goes down
      rw [onGrid, heq]
      refine Nat.mul_lt_mul_of_pos_right ?_ (Nat.two_pow_pos _)
      have hquotient : u / 2 ^ lastGrid < (2 ^ 53 - 1 : ℕ) + 1 / 2 := by
        rw [div_lt_iff₀ (by positivity), ← overflowUnits_eq]
        exact h
      have hnear := nearestNatural_le (by positivity) hquotient
      omega
    · calc onGrid u ≤ 2 ^ (gridExponent u + 53) := onGrid_le hu
        _ < 2 ^ (53 + lastGrid) := Nat.pow_lt_pow_right one_lt_two (by omega)
        _ = 2 ^ 53 * 2 ^ lastGrid := pow_add 2 53 lastGrid

/-- **Rounding ends at infinity** exactly from half a step beyond the greatest double on. -/
theorem abs_rounded_lt_iff (u : ℚ) : |rounded u| < infiniteUnits ↔ |u| < overflowUnits := by
  have hmagnitude {v : ℚ} (hv : 0 ≤ v) : |rounded v| < infiniteUnits ↔ |v| < overflowUnits := by
    rw [abs_of_nonneg (rounded_nonneg hv), abs_of_nonneg hv, ← onGrid_lt_iff hv,
      rounded_of_nonneg hv, roundedMagnitude, Nat.cast_lt, min_lt_iff]
    exact or_iff_left (lt_irrefl _)
  rcases le_total 0 u with hu | hu
  · exact hmagnitude hu
  · have h := hmagnitude (neg_nonneg.mpr hu)
    rwa [rounded_neg, abs_neg, abs_neg] at h

end MixedWorkload.Binary64

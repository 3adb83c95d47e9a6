import MixedWorkload.Decimal.Shortest
import MixedWorkload.Proofs.Binary64.Arithmetic

/-!
# Shortest decimals

The printer looks for a decimal of few digits in the interval of the reals that round to a
double. Which decimal it finds is a matter of taste; that it lies in the interval is not.
`MixedWorkload.Decimal.Interval.contains_iff` says what the interval is as a set of rational
numbers, `MixedWorkload.Decimal.Interval.search_mem` that the search ends in it, and
`MixedWorkload.Decimal.rounded_eq_of_mem_around` that its numbers round to the double. Together,
`MixedWorkload.Decimal.rounded_shortest`: **the shortest decimal of a double rounds to it**.
-/

namespace MixedWorkload.Decimal

open Binary64

/-- The number that a decimal denotes. -/
def value (d : Decimal) : ℚ :=
  d.coefficient * 10 ^ d.exponent

namespace Interval

variable (r : Interval)

/-- The unit of measure of an interval. -/
def step : ℚ :=
  2 ^ r.unit

/-- **The numbers of an interval.** -/
def Mem (q : ℚ) : Prop :=
  if r.closed then r.low * r.step ≤ q ∧ q ≤ r.high * r.step
  else r.low * r.step < q ∧ q < r.high * r.step

theorem step_pos : 0 < r.step := by
  rw [step]
  positivity

/-! ### Neighbours on a grid -/

theorem perStep_pos (k : ℤ) : 0 < (r.perStep k).2 :=
  Nat.mul_pos (Nat.two_pow_pos _) (Nat.pow_pos (by norm_num))

/-- The unit of measure over the step of a grid. -/
theorem perStep_div (k : ℤ) :
    ((r.perStep k).1 : ℚ) / (r.perStep k).2 = r.step / 10 ^ k := by
  have hpow {b : ℚ} (hb : b ≠ 0) (e : ℤ) : b ^ e.toNat = b ^ e * b ^ (-e).toNat := by
    rw [← zpow_natCast, ← zpow_natCast, ← zpow_add₀ hb]
    congr 1
    omega
  have hnum : ((r.perStep k).1 : ℚ) = r.step * 2 ^ (-r.unit).toNat * 10 ^ (-k).toNat := by
    rw [step, ← hpow two_ne_zero]
    exact_mod_cast rfl
  have hden : ((r.perStep k).2 : ℚ) = 10 ^ k * (2 ^ (-r.unit).toNat * 10 ^ (-k).toNat) := by
    rw [mul_left_comm, ← hpow (by norm_num)]
    exact_mod_cast rfl
  rw [hnum, hden, mul_assoc, mul_div_mul_right _ _ (by positivity)]

/-- A multiple of the unit of measure and a multiple of the step of a grid are compared as
natural numbers. -/
theorem mul_step_le_iff (n c : ℕ) (k : ℤ) :
    n * r.step ≤ c * 10 ^ k ↔ n * (r.perStep k).1 ≤ c * (r.perStep k).2 := by
  have hpos : (0 : ℚ) < (r.perStep k).2 := by exact_mod_cast r.perStep_pos k
  have hgrid : (0 : ℚ) < 10 ^ k := by positivity
  rw [← div_le_iff₀ hgrid, mul_div_assoc, ← perStep_div, ← mul_div_assoc, div_le_iff₀ hpos]
  exact_mod_cast Iff.rfl

theorem le_mul_step_iff (n c : ℕ) (k : ℤ) :
    c * 10 ^ k ≤ n * r.step ↔ c * (r.perStep k).2 ≤ n * (r.perStep k).1 := by
  have hpos : (0 : ℚ) < (r.perStep k).2 := by exact_mod_cast r.perStep_pos k
  have hgrid : (0 : ℚ) < 10 ^ k := by positivity
  rw [← le_div_iff₀ hgrid, mul_div_assoc, ← perStep_div, ← mul_div_assoc, le_div_iff₀ hpos]
  exact_mod_cast Iff.rfl

/-- **The test of the search** is membership. -/
theorem contains_iff (c : ℕ) (k : ℤ) : r.contains c k = true ↔ r.Mem (c * 10 ^ k) := by
  unfold contains Mem
  dsimp only
  split
  · rw [decide_eq_true_iff, mul_step_le_iff, le_mul_step_iff]
  · simp only [decide_eq_true_iff, lt_iff_not_ge, mul_step_le_iff, le_mul_step_iff]

/-- **A fine grid holds the double itself.** -/
theorem below_mul {k : ℤ} (h : k ≤ r.finest) : (r.below k : ℚ) * 10 ^ k = r.middle * r.step := by
  rw [finest] at h
  have hdvd : (r.perStep k).2 ∣ (r.perStep k).1 := by
    have hden : (r.perStep k).2 = 2 ^ (-r.unit).toNat := by
      change 2 ^ (-r.unit).toNat * 10 ^ k.toNat = _
      rw [Int.toNat_of_nonpos (le_trans h (min_le_right _ _))]
      exact mul_one _
    have hten : (10 : ℕ) ^ (-k).toNat = 2 ^ (-k).toNat * 5 ^ (-k).toNat := by
      exact mul_pow 2 5 (-k).toNat
    rw [hden]
    change _ ∣ 2 ^ r.unit.toNat * 10 ^ (-k).toNat
    rw [hten]
    exact Dvd.dvd.mul_left (Dvd.dvd.mul_right (pow_dvd_pow 2 (by omega)) _) _
  have hexact : r.below k * (r.perStep k).2 = r.middle * (r.perStep k).1 :=
    Nat.div_mul_cancel (Dvd.dvd.mul_left hdvd _)
  refine le_antisymm ?_ ?_
  · rw [le_mul_step_iff]
    exact hexact.le
  · rw [mul_step_le_iff]
    exact hexact.ge

/-! ### The search -/

theorem nearer_eq (tie : Tie) (c : ℕ) (k : ℤ) :
    r.nearer tie c k = c ∨ r.nearer tie c k = c + 1 := by
  unfold nearer
  dsimp only
  split
  · exact Or.inl rfl
  · exact Or.inr rfl
  · cases tie with
    | awayFromZero => exact Or.inr rfl
    | toEven =>
      dsimp only
      split
      · exact Or.inl rfl
      · exact Or.inr rfl

/-- **A hit** is positive and lies in the interval. -/
theorem hit_mem {tie : Tie} {k : ℤ} {c : ℕ} (h : r.hit? tie k = some c) :
    0 < c ∧ r.Mem (c * 10 ^ k) := by
  rw [← contains_iff]
  unfold hit? at h
  dsimp only at h
  split at h
  · next hlow hhigh =>
    rw [Bool.and_eq_true, decide_eq_true_iff] at hlow
    obtain rfl := Option.some.inj h
    rcases r.nearer_eq tie (r.below k) k with heq | heq
    · rw [heq]
      exact hlow
    · rw [heq]
      exact ⟨Nat.succ_pos _, hhigh⟩
  · next hlow _ =>
    rw [Bool.and_eq_true, decide_eq_true_iff] at hlow
    obtain rfl := Option.some.inj h
    exact hlow
  · next _ hhigh =>
    obtain rfl := Option.some.inj h
    exact ⟨Nat.succ_pos _, hhigh⟩
  · cases h

/-- **The search** ends at a positive decimal in the interval, if its last grid is fine enough
for the double. -/
theorem search_mem (tie : Tie) (hmiddle : 0 < r.middle) (hmem : r.Mem (r.middle * r.step)) {k : ℤ}
    {steps : ℕ} (h : k - steps ≤ r.finest) :
    0 < (r.search tie k steps).coefficient ∧ r.Mem (r.search tie k steps).value := by
  induction steps generalizing k with
  | zero =>
    have hexact := r.below_mul (k := k) (by omega)
    have hpos : (0 : ℚ) < r.below k * 10 ^ k := by
      rw [hexact]
      exact mul_pos (by exact_mod_cast hmiddle) r.step_pos
    refine ⟨?_, ?_⟩
    · exact_mod_cast pos_of_mul_pos_left hpos (by positivity)
    · change r.Mem (r.below k * 10 ^ k)
      rwa [hexact]
  | succ steps ih =>
    rw [search]
    cases hhit : r.hit? tie k with
    | some c => exact r.hit_mem hhit
    | none => exact ih (by push_cast at h; omega)

end Interval

/-! ### The interval of a double -/

/-- What is within half a unit of a natural number is nearest to it, the ends for an even one. -/
theorem nearestNatural_eq {x : ℚ} {n : ℕ} (hn : 0 < n) (hlow : n - 1 / 2 ≤ x)
    (hhigh : x ≤ n + 1 / 2) (hends : n % 2 = 0 ∨ n - 1 / 2 < x ∧ x < n + 1 / 2) :
    nearestNatural x = n := by
  obtain ⟨m, rfl⟩ : ∃ m, n = m + 1 := ⟨n - 1, by omega⟩
  push_cast at hlow hhigh hends
  have hm : (0 : ℚ) ≤ m := m.cast_nonneg
  have hx : 0 ≤ x := by linarith
  rcases lt_or_ge x (m + 1) with hbelow | habove
  · have hfloor : ⌊x⌋₊ = m := (Nat.floor_eq_iff hx).mpr ⟨by linarith, hbelow⟩
    rw [nearestNatural, hfloor, if_neg (by linarith)]
    split
    · rfl
    · rcases hends with heven | ⟨hlt, -⟩
      · omega
      · exfalso
        linarith
  · have hfloor : ⌊x⌋₊ = m + 1 :=
      (Nat.floor_eq_iff hx).mpr ⟨by exact_mod_cast habove, by push_cast; linarith⟩
    rw [nearestNatural, hfloor]
    push_cast
    split_ifs
    · rfl
    · exfalso
      linarith
    · rcases hends with heven | ⟨-, hlt⟩
      · omega
      · exfalso
        linarith

section Around

variable {m s : ℕ} {q : ℚ}

theorem around_step (m s : ℕ) : (Interval.around m s).step * unitsOfOne = 2 ^ s / 4 := by
  have hexp : (Interval.around m s).unit = (s : ℤ) + -1074 - 2 := rfl
  have hquarter : (4 : ℚ) = 2 ^ (2 : ℤ) := by norm_num
  rw [Interval.step, hexp, unitsOfOne, unitPlaces, hquarter, ← zpow_natCast, ← zpow_natCast,
    ← zpow_add₀ two_ne_zero, ← zpow_sub₀ two_ne_zero]
  congr 1
  push_cast
  ring

/-- The double lies in its interval. -/
theorem around_mem_middle (hm : 0 < m) :
    (Interval.around m s).Mem ((Interval.around m s).middle * (Interval.around m s).step) := by
  have hpos := (Interval.around m s).step_pos
  have hlow : (Interval.around m s).low < (Interval.around m s).middle := by
    unfold Interval.around
    dsimp only
    split <;> omega
  have hhigh : (Interval.around m s).middle < (Interval.around m s).high :=
    Nat.lt_add_of_pos_right two_pos
  have hlow' : ((Interval.around m s).low * (Interval.around m s).step : ℚ) <
      (Interval.around m s).middle * (Interval.around m s).step := by gcongr
  have hhigh' : ((Interval.around m s).middle * (Interval.around m s).step : ℚ) <
      (Interval.around m s).high * (Interval.around m s).step := by gcongr
  rw [Interval.Mem]
  split
  · exact ⟨hlow'.le, hhigh'.le⟩
  · exact ⟨hlow', hhigh'⟩

/-- The numbers of the interval, in steps of the grid of the double. -/
theorem steps_of_mem_around (h : (Interval.around m s).Mem q) :
    ((Interval.around m s).low / 4 ≤ q * unitsOfOne / 2 ^ s ∧
      q * unitsOfOne / 2 ^ s ≤ m + 1 / 2) ∧
    (m % 2 = 0 ∨ (Interval.around m s).low / 4 < q * unitsOfOne / 2 ^ s ∧
      q * unitsOfOne / 2 ^ s < m + 1 / 2) := by
  have hone := unitsOfOne_pos
  have hpow : (0 : ℚ) < 2 ^ s := by positivity
  have hquarters (n : ℕ) : n * (Interval.around m s).step = n / 4 * 2 ^ s / unitsOfOne := by
    rw [eq_div_iff hone.ne', mul_assoc, around_step]
    ring
  have hhigh : (((Interval.around m s).high : ℕ) : ℚ) / 4 = m + 1 / 2 := by
    have heq : (Interval.around m s).high = 4 * m + 2 := rfl
    rw [heq]
    push_cast
    ring
  have hclosed : (Interval.around m s).closed = decide (m % 2 = 0) := rfl
  rw [Interval.Mem, hclosed, hquarters, hquarters, hhigh] at h
  simp only [le_div_iff₀ hpow, div_le_iff₀ hpow, lt_div_iff₀ hpow, div_lt_iff₀ hpow,
    ← div_le_iff₀ hone, ← div_lt_iff₀ hone, ← le_div_iff₀ hone, ← lt_div_iff₀ hone]
  split at h
  · next heven => exact ⟨h, Or.inl (of_decide_eq_true heven)⟩
  · exact ⟨⟨h.1.le, h.2.le⟩, Or.inr h⟩

/-- A quarter of the lower end. -/
theorem around_low_div (hm : 0 < m) : ((Interval.around m s).low : ℚ) / 4 =
    m - if m = fractions ∧ 0 < s then 1 / 4 else 1 / 2 := by
  obtain ⟨k, rfl⟩ : ∃ k, m = k + 1 := ⟨m - 1, by omega⟩
  unfold Interval.around
  dsimp only
  split
  · have heq : 4 * (k + 1) - 1 = 4 * k + 3 := by omega
    rw [heq]
    push_cast
    ring
  · have heq : 4 * (k + 1) - 2 = 4 * k + 2 := by omega
    rw [heq]
    push_cast
    ring

/-- Rounding to a grid by the number of steps. -/
theorem onGrid_of_steps {u : ℚ} {k n : ℕ} (hn : 0 < n) (hlt : u / 2 ^ k < 2 ^ 53)
    (hle : k = 0 ∨ 2 ^ 52 ≤ u / 2 ^ k) (hlow : n - 1 / 2 ≤ u / 2 ^ k)
    (hhigh : u / 2 ^ k ≤ n + 1 / 2)
    (hends : n % 2 = 0 ∨ n - 1 / 2 < u / 2 ^ k ∧ u / 2 ^ k < n + 1 / 2) :
    0 ≤ u ∧ onGrid u = n * 2 ^ k := by
  have hpow : (0 : ℚ) < 2 ^ k := by positivity
  have hone : (1 : ℚ) ≤ n := by exact_mod_cast hn
  have hnonneg : 0 ≤ u := by
    by_contra hneg
    have hdiv := div_neg_of_neg_of_pos (lt_of_not_ge hneg) hpow
    linarith
  have hgrid : IsGrid u k := by
    refine ⟨?_, hle.imp_right fun hle => ?_⟩
    · rwa [add_comm, pow_add, ← div_lt_iff₀ hpow]
    · rwa [add_comm, pow_add, ← le_div_iff₀ hpow]
  rw [onGrid_eq hgrid hnonneg, nearestNatural_eq hn hlow hhigh hends]
  exact ⟨hnonneg, rfl⟩

/-- Below the first double of a binade, the grid is finer. -/
theorem onGrid_below_binade {u : ℚ} {k : ℕ} (hlow : fractions - 1 / 4 ≤ u / 2 ^ (k + 1))
    (hbelow : u / 2 ^ (k + 1) < fractions) : 0 ≤ u ∧ onGrid u = fractions * 2 ^ (k + 1) := by
  have hhalf : u / 2 ^ (k + 1) = u / 2 ^ k / 2 := by
    rw [pow_succ, div_div]
  have hfractions : (fractions : ℚ) = 2 ^ 52 := by norm_num [fractions]
  have hsteps : fractions * 2 ^ (k + 1) = 2 * fractions * 2 ^ k := by ring
  have hpos : 0 < fractions := Nat.two_pow_pos 52
  rw [hhalf, hfractions] at hlow hbelow
  rw [hsteps]
  refine onGrid_of_steps (by omega) (by linarith) (Or.inr (by linarith)) ?_ ?_
    (Or.inl (by omega))
  · push_cast
    rw [hfractions]
    linarith
  · push_cast
    rw [hfractions]
    linarith

/-- **The numbers of the interval round to the double.** -/
theorem rounded_eq_of_mem_around (hm : 0 < m) (hlt : m < 2 * fractions)
    (hs : s = 0 ∨ fractions ≤ m) (hle : m * 2 ^ s ≤ infiniteUnits)
    (h : (Interval.around m s).Mem q) : rounded (q * unitsOfOne) = (m * 2 ^ s : ℕ) := by
  obtain ⟨⟨hlow, hhigh⟩, hends⟩ := steps_of_mem_around h
  rw [around_low_div hm] at hlow hends
  -- what is left is the nearest point of the grid around the number
  suffices hgrid : 0 ≤ q * unitsOfOne ∧ onGrid (q * unitsOfOne) = m * 2 ^ s by
    rw [rounded_of_nonneg hgrid.1, roundedMagnitude, hgrid.2, min_eq_left hle]
  by_cases hfirst : (m = fractions ∧ 0 < s) ∧ q * unitsOfOne / 2 ^ s < m
  · obtain ⟨hquarter, hbelow⟩ := hfirst
    rw [if_pos hquarter] at hlow
    obtain ⟨rfl, hpos⟩ := hquarter
    obtain ⟨k, rfl⟩ : ∃ k, s = k + 1 := ⟨s - 1, by omega⟩
    exact onGrid_below_binade hlow hbelow
  · have hmax : (m : ℚ) ≤ 2 ^ 53 - 1 := by
      have hnat : m + 1 ≤ 2 ^ 53 := hlt
      have hcast : (m : ℚ) + 1 ≤ 2 ^ 53 := by exact_mod_cast hnat
      linarith
    have hfrom : (m : ℚ) - 1 / 2 ≤ q * unitsOfOne / 2 ^ s := by
      refine le_trans (sub_le_sub_left ?_ _) hlow
      split <;> norm_num
    refine onGrid_of_steps hm (by linarith) ?_ hfrom hhigh
      (hends.imp_right fun hends => ⟨lt_of_le_of_lt (sub_le_sub_left ?_ _) hends.1, hends.2⟩)
    · rcases Nat.eq_zero_or_pos s with h0 | hpos
      · exact Or.inl h0
      · right
        rcases (hs.resolve_left hpos.ne').eq_or_lt with heq | hlarge
        · have habove := le_of_not_gt fun hbelow => hfirst ⟨⟨heq.symm, hpos⟩, hbelow⟩
          rw [← heq] at habove
          exact_mod_cast habove
        · have hnat : 2 ^ 52 + 1 ≤ m := hlarge
          have hcast : (2 : ℚ) ^ 52 + 1 ≤ m := by exact_mod_cast hnat
          linarith
    · split <;> norm_num

/-- **The shortest decimal of a double** is positive and rounds to it. -/
theorem rounded_shortest (tie : Tie) (hm : 0 < m) (hlt : m < 2 * fractions)
    (hs : s = 0 ∨ fractions ≤ m) (hle : m * 2 ^ s ≤ infiniteUnits) :
    0 < (shortest tie m s).coefficient ∧
      rounded ((shortest tie m s).value * unitsOfOne) = (m * 2 ^ s : ℕ) := by
  have hmiddle : 0 < (Interval.around m s).middle := Nat.mul_pos four_pos hm
  have hreach : (Interval.around m s).coarsest -
      ((Interval.around m s).coarsest - (Interval.around m s).finest).toNat ≤
        (Interval.around m s).finest := by omega
  obtain ⟨hpos, hmem⟩ :=
    (Interval.around m s).search_mem tie hmiddle (around_mem_middle hm) hreach
  exact ⟨hpos, rounded_eq_of_mem_around hm hlt hs hle hmem⟩

end Around

end MixedWorkload.Decimal

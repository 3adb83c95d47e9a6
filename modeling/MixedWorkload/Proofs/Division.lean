import MixedWorkload.Proofs.Factors

/-!
# Latencies divided by the size of the database

The divisive mode divides each latency by the size that the database has at its place in the
log. The size is never less than the scale factor, so there is no division by zero, and what
comes out is a number of the same sign that is no larger than if the database had not grown:
`MixedWorkload.NormalizedLog.IsDivided` lists this for a normalized log beside the log it comes
from, and `MixedWorkload.TimingLog.isDivided_normalize` says that it holds for every table that
the library makes.

Two things may leave the range of doubles, and neither does any harm. The growth may be
infinite, and then latencies are divided down to zero. A quotient by a size below one may
overflow, and then the one by the scale factor does so, too.
-/

namespace MixedWorkload

open Binary64

/-- **The queries of a log, divided by the size of the database.** -/
structure NormalizedLog.IsDivided (n : NormalizedLog) (σ : Scheme) (s : ScaleFactor)
    (rs : List TimingRecord) : Prop where
  /-- The analytical records are those of the log, and each latency is divided by the size of
  the database at its place. -/
  analytical_eq : n.analytical = (σ.queries rs).map fun p =>
    ⟨p.1, p.2, p.1.latency / (s.value + σ.factor p.1.type * p.2.toFloat), true⟩
  /-- The divisor is positive. -/
  divisor_pos : ∀ p ∈ σ.queries rs, 0.0 < s.value + σ.factor p.1.type * p.2.toFloat
  /-- It is no less than the scale factor. -/
  le_divisor : ∀ p ∈ σ.queries rs, s.value ≤ s.value + σ.factor p.1.type * p.2.toFloat
  /-- What comes out is a number. -/
  isNumber : ∀ r ∈ n.analytical, r.latency.isNaN = false
  /-- It is not negative if the latency is not. -/
  nonneg : ∀ r ∈ n.analytical, 0.0 ≤ r.record.latency → 0.0 ≤ r.latency
  /-- It is not positive if the latency is not. -/
  nonpos : ∀ r ∈ n.analytical, r.record.latency ≤ 0.0 → r.latency ≤ 0.0
  /-- It is no larger than if the database had not grown. -/
  abs_le : ∀ r ∈ n.analytical, r.latency.abs ≤ (r.record.latency / s.value).abs
  /-- Nothing is lifted. -/
  correction_eq : n.correction = 0.0

/-! ### One latency -/

section Quotient

variable {x y z : Float} (hx : x.isFinite = true) (hy : 0.0 < y)

include hx hy

/-- **Dividing by a positive number keeps the sign.** -/
theorem zero_le_div (h : 0.0 ≤ x) : 0.0 ≤ x / y := by
  obtain ⟨q, hrounds, hq, -⟩ := exists_rounds_div hx hy
  exact zero_le_of_toRat hrounds.isNaN (hrounds.toRat_nonneg (mul_nonneg (toRat_nonneg h) hq))

theorem div_le_zero (h : x ≤ 0.0) : x / y ≤ 0.0 := by
  obtain ⟨q, hrounds, hq, -⟩ := exists_rounds_div hx hy
  have hzero : Rounds 0.0 0 := rounds_zero .positive
  have hsign := (le_iff_toRat (isNaN_of_isFinite hx) rfl).mp h
  rw [toRat_zero] at hsign
  exact hrounds.le hzero (mul_nonpos_of_nonpos_of_nonneg hsign hq)

/-- **A greater divisor makes a quotient smaller.** -/
theorem abs_div_le (hyfinite : y.isFinite = true) (h : y ≤ z) : (x / z).abs ≤ (x / y).abs := by
  have hz := less_of_less_of_le hy h
  have hypos := toRat_pos hy
  have hyz := (le_iff_toRat (isNaN_of_isFinite hyfinite) (lt_iff.mp hz).2.1).mp h
  obtain ⟨q, hrounds, hq, hle⟩ := exists_rounds_div hx hz
  refine hrounds.abs.le (rounds_div hx hyfinite hypos.ne').abs ?_
  rw [div_eq_mul_inv, abs_mul, abs_mul, abs_of_nonneg hq, abs_of_pos (inv_pos.mpr hypos)]
  have hinv : (toRat z)⁻¹ ≤ (toRat y)⁻¹ := inv_anti₀ hypos hyz
  exact mul_le_mul_of_nonneg_left (hle.trans hinv) (abs_nonneg _)

end Quotient

/-! ### A whole log -/

namespace Scheme

variable {σ : Scheme} {s : ScaleFactor} {rs : List TimingRecord}

/-- In the divisive mode, a value is a latency divided by the size. -/
theorem value_eq_div (h : σ.mode = .divisive s) (p : TimingRecord × ℕ) :
    σ.value rs p = p.1.latency / σ.size s p := by
  have hshift : σ.shift? rs = none := by rw [shift?, h]
  rw [value, hshift]
  simp only [rescaled, h]
  rfl

theorem analytical_normalize_divisive (log : TimingLog) (h : σ.mode = .divisive s) :
    (log.normalize σ.table σ.mode σ.newOrderId).analytical =
      (σ.queries log.records).map fun p => ⟨p.1, p.2, p.1.latency / σ.size s p, true⟩ := by
  rw [analytical_normalize_eq_map]
  exact List.map_congr_left fun p _ => by rw [value_eq_div h]

end Scheme

/-- **Dividing never fails**: in the divisive mode, with a table that the library makes and
latencies that are finite, every query is divided by a positive number. -/
theorem TimingLog.isDivided_normalize (log : TimingLog) {table : FactorTable}
    (htable : table.IsMade) (s : ScaleFactor) (newOrderId : TransactionType)
    (hlatency : ∀ r ∈ log.records, r.latency.isFinite = true)
    (hcount : log.countOf newOrderId < 2 ^ 64) :
    (log.normalize table (.divisive s) newOrderId).IsDivided ⟨table, .divisive s, newOrderId⟩ s
      log.records := by
  have hanalytical := Scheme.analytical_normalize_divisive
    (σ := ⟨table, .divisive s, newOrderId⟩) log rfl
  set σ : Scheme := ⟨table, .divisive s, newOrderId⟩
  have hfactor : ∀ t, FactorTable.isFactor (σ.factor t) = true :=
    Scheme.isFactor_factor htable.isFactor
  have hfinite : ∀ p ∈ σ.queries log.records, p.2.toFloat.isFinite = true := fun p hp =>
    isFinite_toFloat_of_lt ((Scheme.mem_queries hp).2.1.trans_lt hcount)
  have hle : ∀ p ∈ σ.queries log.records, s.value ≤ σ.size s p := fun p hp =>
    Scheme.le_size (hfactor p.1.type) (hfinite p hp) s
  have hpos : ∀ p ∈ σ.queries log.records, 0.0 < σ.size s p := fun p hp =>
    Scheme.zero_lt_size (hfactor p.1.type) (hfinite p hp) s
  -- what holds of every quotient holds of every analytical record
  have hall {P : NormalizedRecord → Prop}
      (h : ∀ p ∈ σ.queries log.records, p.1.latency.isFinite = true →
        P ⟨p.1, p.2, p.1.latency / σ.size s p, true⟩) :
      ∀ r ∈ (log.normalize table (.divisive s) newOrderId).analytical, P r := by
    rw [hanalytical, List.forall_mem_map]
    exact fun p hp => h p hp (hlatency _ (Scheme.mem_queries hp).1)
  exact {
    analytical_eq := hanalytical
    divisor_pos := hpos
    le_divisor := hle
    isNumber := hall fun p hp hfin => by
      obtain ⟨q, hrounds, -⟩ := exists_rounds_div hfin (hpos p hp)
      exact hrounds.isNaN
    nonneg := hall fun p hp hfin => zero_le_div hfin (hpos p hp)
    nonpos := hall fun p hp hfin => div_le_zero hfin (hpos p hp)
    abs_le := hall fun p hp hfin => abs_div_le hfin s.zero_lt_value s.isFinite_value (hle p hp)
    correction_eq := rfl }

/-- Two NewOrders whose growth is infinite, and queries of either sign before and after. -/
def overgrownLog : TimingLog :=
  ⟨[⟨7, 0.0, -1.0, "a", 0⟩, ⟨2, 0.5, 0.1, "b", 0⟩, ⟨7, 1.0, 4.0, "a", 0⟩, ⟨2, 1.5, 0.1, "b", 0⟩,
    ⟨7, 2.0, -1.0, "a", 0⟩]⟩

/-- The least scale factor that a text can stand for. -/
def leastScaleFactor : ScaleFactor := ⟨5e-324, by decide +kernel⟩

/-- The queries of the overgrown log are divided by the size of the database. -/
theorem TimingLog.isDivided_overgrownLog :
    (⟨⟨7, 7⟩, [1e308]⟩ : FactorTable).IsMade ∧
      (∀ r ∈ overgrownLog.records, r.latency.isFinite = true) ∧
      overgrownLog.countOf 2 < 2 ^ 64 ∧
      (overgrownLog.normalize ⟨⟨7, 7⟩, [1e308]⟩ (.divisive leastScaleFactor) 2).IsDivided
        ⟨⟨⟨7, 7⟩, [1e308]⟩, .divisive leastScaleFactor, 2⟩ leastScaleFactor
        overgrownLog.records := by
  have hfactor : ∀ x ∈ [(1e308 : Float)], FactorTable.isFactor x = true := by decide +kernel
  have htable : (⟨⟨7, 7⟩, [1e308]⟩ : FactorTable).IsMade :=
    .resolve (FactorTable.resolve_sequence rfl hfactor)
  have hlatency : ∀ r ∈ overgrownLog.records, r.latency.isFinite = true := by decide +kernel
  have hcount : overgrownLog.countOf 2 < 2 ^ 64 := by decide +kernel
  exact ⟨htable, hlatency, hcount,
    overgrownLog.isDivided_normalize htable leastScaleFactor 2 hlatency hcount⟩

end MixedWorkload

import MixedWorkload.Proofs.Binary64.Monotone
import MixedWorkload.Proofs.Normalization

/-!
# The growth that factors describe

The growth of the database at a record is the factor of its query times the NewOrders up to
it. Every table that the library makes (`MixedWorkload.FactorTable.IsMade`) has factors that
are finite and not negative, so growth is never negative
(`MixedWorkload.Scheme.zero_le_growth`), and the database never gets smaller than it was at the
start of the run (`MixedWorkload.Scheme.le_size`). Growth may be infinite all the same, when the
product of a factor and a count leaves the range of doubles.

All this takes a count that is a number of the machine. With more NewOrders than fit into a
double, a factor of zero would stand for a growth that is no number.
-/

namespace MixedWorkload

open Binary64

/-! ### Tables -/

namespace FactorTable

/-- **A table that the library makes**: resolved for a range of queries, the one that corrects
nothing, or the built-in one. -/
inductive IsMade : FactorTable → Prop
  | resolve {override : FactorOverride} {range : AnalyticalRange} {table : FactorTable}
      (h : resolve override range = .ok table) : IsMade table
  | zeros (range : AnalyticalRange) : IsMade (zeros range)
  | reference : IsMade reference

theorem isFactor_iff {x : Float} : isFactor x = true ↔ x.isFinite = true ∧ 0.0 ≤ x := by
  rw [isFactor, Bool.and_eq_true, Bool.not_eq_true', decide_eq_false_iff_not]
  exact and_congr_right fun hx => not_lt (isNaN_of_isFinite hx) rfl

theorem isFactor_zero : isFactor 0.0 = true := by decide +kernel

/-- **Every factor of a table that the library makes is acceptable.** -/
theorem IsMade.isFactor {table : FactorTable} (h : table.IsMade) :
    ∀ x ∈ table.factors, FactorTable.isFactor x = true := by
  cases h with
  | resolve h => exact (resolve_eq_ok_iff.mp h).2.2
  | zeros range =>
    intro x hx
    rw [List.eq_of_mem_replicate hx]
    exact isFactor_zero
  | reference =>
    have hbuiltIn : ∀ x ∈ builtIn, FactorTable.isFactor x = true := by decide +kernel
    exact hbuiltIn

end FactorTable

/-! ### Growth -/

/-- A scale factor is positive. -/
theorem ScaleFactor.zero_lt_value (s : ScaleFactor) : 0.0 < s.value :=
  (Config.isPositive_iff.mp s.isPositive).2

/-- It is finite. -/
theorem ScaleFactor.isFinite_value (s : ScaleFactor) : s.value.isFinite = true :=
  (Config.isPositive_iff.mp s.isPositive).1

namespace Scheme

variable (σ : Scheme)

/-- The growth of the database at a record. -/
def growth (p : TimingRecord × ℕ) : Float :=
  σ.factor p.1.type * p.2.toFloat

/-- The size of the database at a record, in the divisive mode. -/
def size (s : ScaleFactor) (p : TimingRecord × ℕ) : Float :=
  s.value + σ.factor p.1.type * p.2.toFloat

variable {σ}

/-- A type without a factor has the factor zero. -/
theorem isFactor_factor (h : ∀ x ∈ σ.table.factors, FactorTable.isFactor x = true)
    (t : TransactionType) : FactorTable.isFactor (σ.factor t) = true := by
  rw [factor, List.getD_eq_getElem?_getD]
  cases hget : σ.table.factors[t.toNat - σ.table.range.lower.toNat]? with
  | none => exact FactorTable.isFactor_zero
  | some x => exact h x (List.mem_of_getElem? hget)

/-- **A query with its count**: an analytical record of the log, and a number of NewOrders that
is at most that of the log. -/
theorem mem_queries {rs : List TimingRecord} {p : TimingRecord × ℕ} (hp : p ∈ σ.queries rs) :
    p.1 ∈ rs ∧ (p.2 ≤ rs.countP fun r => r.type == σ.newOrderId) ∧ σ.IsAnalytical p.1.type := by
  obtain ⟨hcounted, ha⟩ := List.mem_filter.mp hp
  obtain ⟨i, hi, rfl⟩ := List.mem_mapIdx.mp hcounted
  exact ⟨List.getElem_mem hi, (List.take_sublist (i + 1) rs).countP_le, of_decide_eq_true ha⟩

section Growth

variable {p : TimingRecord × ℕ} (hfactor : FactorTable.isFactor (σ.factor p.1.type) = true)
  (hcount : p.2.toFloat.isFinite = true)

include hfactor hcount

/-- **Growth is not negative.** -/
theorem zero_le_growth : 0.0 ≤ σ.growth p := by
  obtain ⟨hfinite, hnonneg⟩ := FactorTable.isFactor_iff.mp hfactor
  have hproduct := rounds_mul hfinite hcount
  refine zero_le_of_toRat hproduct.isNaN (hproduct.toRat_nonneg (mul_nonneg ?_ ?_))
  · exact toRat_nonneg hnonneg
  · exact (rounds_toFloat p.2).toRat_nonneg (Nat.cast_nonneg p.2)

/-- **The database does not shrink.** -/
theorem le_size (s : ScaleFactor) : s.value ≤ σ.size s p :=
  le_add_of_zero_le s.isFinite_value (zero_le_growth hfactor hcount)

/-- **Its size is positive**, whatever it has grown by. -/
theorem zero_lt_size (s : ScaleFactor) : 0.0 < σ.size s p :=
  less_of_less_of_le s.zero_lt_value (le_size hfactor hcount s)

end Growth

end Scheme

end MixedWorkload

import MixedWorkload.Proofs.Binary64.Overflow
import MixedWorkload.Proofs.Factors
import MixedWorkload.Proofs.Metrics

/-!
# When the metrics do not overflow

From the records to the metrics it is a chain of operations on doubles, and the result of each
has to fit into their range. `MixedWorkload.Scheme.NoOverflow` lists them, each in terms of the
exact result of the one operation. Given records and factors that are finite
(`MixedWorkload.Scheme.IsFiniteInput`), this is what it takes for the metrics to be finite, and
no more (`MixedWorkload.Scheme.IsFiniteInput.noOverflow_iff`); the root of the geometric mean is
left to the power function, and an hour is not divided by zero.

Not every operation has a condition of its own. A mean is not greater than the sum that it is
made of, the size of the database is never zero, and if it is infinite, latencies are divided
down to zero.
-/

namespace MixedWorkload

open Binary64

namespace Scheme

variable (σ : Scheme) (rs : List TimingRecord)

/-! ### What does not overflow -/

/-- The product of the mean latencies. -/
def meanProduct (types : List TransactionType) : Float :=
  (types.map (σ.meanOf rs)).foldl (· * ·) 1.0

/-- Rescaling a latency does not overflow. A database may be too large for a double, since a
latency divided by infinity is zero. -/
def RescalingFits (p : TimingRecord × ℕ) : Prop :=
  match σ.mode with
  | .subtractive =>
    Fits (toRat (σ.factor p.1.type) * toRat p.2.toFloat) ∧
      Fits (toRat p.1.latency - toRat (σ.factor p.1.type * p.2.toFloat))
  | .divisive s => (σ.size s p).isFinite = true → Fits (toRat p.1.latency / toRat (σ.size s p))

/-- **No operation overflows** on the way from the records to the metrics: the exact result of
each of them fits into the range of doubles. -/
structure NoOverflow (types : List TransactionType) : Prop where
  /-- Latencies are rescaled. -/
  rescaling : ∀ p ∈ σ.queries rs, σ.RescalingFits p
  /-- They are lifted by the least of them. -/
  lifting : ∀ low, σ.shift? rs = some low →
    ∀ p ∈ σ.queries rs, Fits (toRat (σ.rescaled p) - toRat low)
  /-- The values of each type are added. -/
  totals : ∀ t ∈ types, SumFits 0.0 (σ.valuesOf rs t)
  /-- The means are added. -/
  setTime : SumFits (-0.0) (types.map (σ.meanOf rs))
  /-- The means are multiplied. -/
  product : ProductFits 1.0 (types.map (σ.meanOf rs))
  /-- An hour is divided by the query set time. -/
  perSetTime : Fits (3600 / toRat (σ.setTime rs types))
  /-- This is multiplied by the number of queries. -/
  perHour : Fits (toRat (3600.0 / σ.setTime rs types) *
    toRat (σ.table.range.upper.toNat - σ.table.range.lower.toNat + 1).toFloat)
  /-- The queries per hour are multiplied by the number of workers. -/
  effective : Fits (toRat (σ.perHour rs types) * toRat (σ.workers rs).toFloat)
  /-- The NewOrders are divided by the duration. -/
  perSecond : 0.0 < duration rs → (duration rs).isFinite = true →
    Fits (toRat (rs.countP fun r => r.type == σ.newOrderId).toFloat / toRat (duration rs))
  /-- A minute has sixty seconds. -/
  perMinute : 0.0 < duration rs →
    Fits (toRat ((rs.countP fun r => r.type == σ.newOrderId).toFloat / duration rs) * 60)

/-! ### What is finite from the start -/

/-- **The numbers that an evaluation starts from.** -/
structure IsFiniteInput : Prop where
  /-- Latencies are finite. -/
  latency : ∀ r ∈ rs, r.latency.isFinite = true
  /-- So are factors. -/
  factor : ∀ t, (σ.factor t).isFinite = true
  /-- Factors are not negative. -/
  factor_nonneg : ∀ t, 0.0 ≤ σ.factor t
  /-- The records can be counted in doubles. -/
  length : Fits rs.length
  /-- The range is one of types. -/
  width : σ.table.range.upper.toNat - σ.table.range.lower.toNat + 1 < 2 ^ 32

namespace IsFiniteInput

variable {σ rs} (h : σ.IsFiniteInput rs)

include h

/-- Whatever is counted in the log, its number is finite. -/
theorem isFinite_toFloat {n : ℕ} (hn : n ≤ rs.length) : n.toFloat.isFinite = true := by
  refine isFinite_toFloat_iff.mpr (h.length.of_abs_le ?_)
  rw [abs_of_nonneg (Nat.cast_nonneg n), abs_of_nonneg (Nat.cast_nonneg rs.length)]
  exact_mod_cast hn

/-- The size of the database is a number other than zero. -/
theorem size_ne_zero (s : ScaleFactor) {p : TimingRecord × ℕ} (hp : p ∈ σ.queries rs) :
    (σ.size s p).isNaN = false ∧ toRat (σ.size s p) ≠ 0 := by
  obtain ⟨-, hle, -⟩ := mem_queries hp
  have hfactor := FactorTable.isFactor_iff.mpr ⟨h.factor p.1.type, h.factor_nonneg p.1.type⟩
  have hpos := zero_lt_size hfactor (h.isFinite_toFloat (hle.trans List.countP_le_length)) s
  refine ⟨(lt_iff.mp hpos).2.1, fun hzero => ?_⟩
  rw [lt_iff_toRat rfl (lt_iff.mp hpos).2.1, toRat_zero, hzero] at hpos
  exact lt_irrefl 0 hpos

/-- **When a rescaled latency is finite.** -/
theorem isFinite_rescaled_iff {p : TimingRecord × ℕ} (hp : p ∈ σ.queries rs) :
    (σ.rescaled p).isFinite = true ↔ σ.RescalingFits p := by
  obtain ⟨hmem, hle, -⟩ := mem_queries hp
  have hlatency := h.latency _ hmem
  unfold rescaled RescalingFits
  cases hmode : σ.mode with
  | subtractive =>
    simp only
    rw [isFinite_sub_iff, isFinite_mul_iff, and_iff_right hlatency,
      and_iff_right (h.factor _),
      and_iff_right (h.isFinite_toFloat (hle.trans List.countP_le_length))]
  | divisive s =>
    obtain ⟨hnumber, hne⟩ := h.size_ne_zero s hp
    change (p.1.latency / σ.size s p).isFinite = true ↔ _
    rw [isFinite_div_iff_of_ne_zero hnumber hne, and_iff_right hlatency]

/-- **When all values are finite.** -/
theorem isFinite_value_iff :
    (∀ p ∈ σ.queries rs, (σ.value rs p).isFinite = true) ↔
      (∀ p ∈ σ.queries rs, σ.RescalingFits p) ∧
        ∀ low, σ.shift? rs = some low →
          ∀ p ∈ σ.queries rs, Fits (toRat (σ.rescaled p) - toRat low) := by
  unfold value
  cases hs : σ.shift? rs with
  | none =>
    constructor
    · intro hall
      exact ⟨fun p hp => (h.isFinite_rescaled_iff hp).mp (hall p hp), fun low hlow => by cases hlow⟩
    · rintro ⟨hall, -⟩ p hp
      exact (h.isFinite_rescaled_iff hp).mpr (hall p hp)
  | some low =>
    simp only [isFinite_sub_iff]
    constructor
    · intro hall
      refine ⟨fun p hp => (h.isFinite_rescaled_iff hp).mp (hall p hp).1, ?_⟩
      rintro low' ⟨⟩ p hp
      exact (hall p hp).2.2
    · rintro ⟨hall, hlift⟩ p hp
      -- what is taken off is one of the rescaled latencies itself
      have hlow : low.isFinite = true := by
        obtain ⟨q, hq, rfl⟩ := List.mem_map.mp (mem_of_shift? hs)
        exact (h.isFinite_rescaled_iff hq).mpr (hall q hq)
      exact ⟨(h.isFinite_rescaled_iff hp).mpr (hall p hp), hlow, hlift low rfl p hp⟩

/-- The number of records of a type that occurs. -/
theorem count_of_occurs {t : TransactionType} (ht : ∃ r ∈ rs, r.type = t) :
    (rs.countP fun r => r.type == t).toFloat.isFinite = true ∧
      1 ≤ toRat (rs.countP fun r => r.type == t).toFloat := by
  have hcount : 0 < rs.countP fun r => r.type == t := by
    obtain ⟨r, hr, rfl⟩ := ht
    exact List.countP_pos_iff.mpr ⟨r, hr, beq_self_eq_true _⟩
  exact ⟨h.isFinite_toFloat List.countP_le_length, one_le_toRat_toFloat hcount⟩

/-- **When a mean is finite.** Dividing by a count does not overflow. -/
theorem isFinite_meanOf_iff {t : TransactionType} (ht : ∃ r ∈ rs, r.type = t) :
    (σ.meanOf rs t).isFinite = true ↔
      (∀ v ∈ σ.valuesOf rs t, v.isFinite = true) ∧ SumFits 0.0 (σ.valuesOf rs t) := by
  obtain ⟨hfinite, hone⟩ := h.count_of_occurs ht
  rw [meanOf]
  generalize (rs.countP fun r => r.type == t).toFloat = n at *
  have hsum := isFinite_sum_iff 0.0 (σ.valuesOf rs t)
  generalize (σ.valuesOf rs t).foldl (· + ·) 0.0 = total at *
  have hdiv : (total / n).isFinite = true ↔ total.isFinite = true := by
    have hne : toRat n ≠ 0 := by linarith
    rw [isFinite_div_iff_of_ne_zero (isNaN_of_isFinite hfinite) hne]
    refine and_iff_left_of_imp fun htotal _ => (fits_toRat htotal).of_abs_le ?_
    rw [abs_div]
    exact div_le_self (abs_nonneg _) (hone.trans (le_abs_self _))
  rw [hdiv, hsum]
  exact and_iff_right rfl

/-- **When all means are finite.** -/
theorem isFinite_means_iff {types : List TransactionType} (htypes : σ.IsTypeList rs types) :
    (∀ x ∈ types.map (σ.meanOf rs), x.isFinite = true) ↔
      (∀ p ∈ σ.queries rs, (σ.value rs p).isFinite = true) ∧
        ∀ t ∈ types, SumFits 0.0 (σ.valuesOf rs t) := by
  have hmean {t : TransactionType} (ht : t ∈ types) :=
    h.isFinite_meanOf_iff ((htypes.mem_iff t).mp ht).2
  rw [List.forall_mem_map]
  constructor
  · intro hall
    refine ⟨fun p hp => ?_, fun t ht => ((hmean ht).mp (hall t ht)).2⟩
    -- every value is one of those of its type
    obtain ⟨hr, -, ha⟩ := mem_queries hp
    have ht := (htypes.mem_iff p.1.type).mpr ⟨ha, p.1, hr, rfl⟩
    refine ((hmean ht).mp (hall _ ht)).1 _ (List.mem_map_of_mem ?_)
    exact List.mem_filter.mpr ⟨hp, beq_self_eq_true _⟩
  · rintro ⟨hvalues, htotals⟩ t ht
    refine (hmean ht).mpr ⟨fun v hv => ?_, htotals t ht⟩
    obtain ⟨p, hp, rfl⟩ := List.mem_map.mp hv
    exact hvalues p (List.mem_of_mem_filter hp)

/-- **When the throughput is finite.** -/
theorem isFinite_throughput_iff :
    (σ.throughput rs).isFinite = true ↔
      (0.0 < duration rs → (duration rs).isFinite = true →
        Fits (toRat (rs.countP fun r => r.type == σ.newOrderId).toFloat / toRat (duration rs))) ∧
      (0.0 < duration rs →
        Fits (toRat ((rs.countP fun r => r.type == σ.newOrderId).toFloat / duration rs) * 60)) := by
  have hfinite := h.isFinite_toFloat
    (List.countP_le_length (p := fun r => r.type == σ.newOrderId) (l := rs))
  unfold throughput
  generalize (rs.countP fun r => r.type == σ.newOrderId).toFloat = n at *
  generalize duration rs = d
  obtain ⟨hsixty, hsixty_eq⟩ : (60.0 : Float).isFinite = true ∧ toRat 60.0 = 60 :=
    (rounds_toFloat 60).toRat_natCast (by norm_num)
  by_cases hd : 0.0 < d
  · have hnumber := (lt_iff.mp hd).2.1
    have hpos := toRat_pos hd
    rw [if_pos hd, isFinite_mul_iff, isFinite_div_iff_of_ne_zero hnumber hpos.ne',
      and_iff_right hfinite, and_iff_right hsixty, hsixty_eq, forall_prop_of_true hd,
      forall_prop_of_true hd]
  · rw [if_neg hd]
    exact iff_of_true rfl ⟨fun hlt => absurd hlt hd, fun hlt => absurd hlt hd⟩

/-- **When the product of the means is finite.** -/
theorem isFinite_product_iff {types : List TransactionType} (htypes : σ.IsTypeList rs types) :
    (σ.meanProduct rs types).isFinite = true ↔
      ((∀ p ∈ σ.queries rs, (σ.value rs p).isFinite = true) ∧
        ∀ t ∈ types, SumFits 0.0 (σ.valuesOf rs t)) ∧
      ProductFits 1.0 (types.map (σ.meanOf rs)) := by
  have hone : (1.0 : Float).isFinite = true := rfl
  rw [meanProduct, Binary64.isFinite_product_iff, and_iff_right hone, ← h.isFinite_means_iff htypes]

/-- **When the query set time is finite.** -/
theorem isFinite_setTime_iff {types : List TransactionType} (htypes : σ.IsTypeList rs types) :
    (σ.setTime rs types).isFinite = true ↔
      ((∀ p ∈ σ.queries rs, (σ.value rs p).isFinite = true) ∧
        ∀ t ∈ types, SumFits 0.0 (σ.valuesOf rs t)) ∧
      SumFits (-0.0) (types.map (σ.meanOf rs)) := by
  have hzero : (-0.0 : Float).isFinite = true := rfl
  rw [setTime, isFinite_sum_iff, and_iff_right hzero, ← h.isFinite_means_iff htypes]

section Hours

variable {types : List TransactionType}

/-- **When the queries per hour are finite**, if the query set time is and is not zero. -/
theorem isFinite_perHour_iff (hfinite : (σ.setTime rs types).isFinite = true)
    (hzero : toRat (σ.setTime rs types) ≠ 0) :
    (σ.perHour rs types).isFinite = true ↔
      Fits (3600 / toRat (σ.setTime rs types)) ∧
      Fits (toRat (3600.0 / σ.setTime rs types) *
        toRat (σ.table.range.upper.toNat - σ.table.range.lower.toNat + 1).toFloat) := by
  obtain ⟨hhour, hhour_eq⟩ : (3600.0 : Float).isFinite = true ∧ toRat 3600.0 = 3600 :=
    (rounds_toFloat 3600).toRat_natCast (by norm_num)
  have hwidth := h.width.trans (show 2 ^ 32 < 2 ^ 53 by norm_num)
  obtain ⟨hcount, -⟩ := (rounds_toFloat _).toRat_natCast hwidth
  rw [perHour, isFinite_mul_iff, isFinite_div_iff_of_ne_zero (isNaN_of_isFinite hfinite) hzero,
    forall_prop_of_true hfinite, hhour_eq, and_iff_right hcount, and_iff_right hhour]

omit h in
/-- There are no more workers than records. -/
theorem workers_le : σ.workers rs ≤ rs.length :=
  (List.toFinset_card_le _).trans ((List.length_map _).trans_le (List.length_filter_le _ _))

/-- **When the queries per hour of all workers are finite.** -/
theorem isFinite_effective_iff :
    (σ.perHour rs types * (σ.workers rs).toFloat).isFinite = true ↔
      (σ.perHour rs types).isFinite = true ∧
        Fits (toRat (σ.perHour rs types) * toRat (σ.workers rs).toFloat) := by
  rw [isFinite_mul_iff, and_iff_right (h.isFinite_toFloat workers_le)]

end Hours

/-! ### All of them -/

/-- **Nothing overflows** if and only if throughput, the product of the means, the query set
time and the queries per hour are finite, provided that the query set time is no zero. -/
theorem noOverflow_iff {types : List TransactionType} (htypes : σ.IsTypeList rs types)
    (hzero : (σ.setTime rs types == 0.0) = false) :
    σ.NoOverflow rs types ↔
      (σ.throughput rs).isFinite = true ∧
      (σ.meanProduct rs types).isFinite = true ∧
      (σ.setTime rs types).isFinite = true ∧ (σ.perHour rs types).isFinite = true ∧
      (σ.perHour rs types * (σ.workers rs).toFloat).isFinite = true := by
  have hne (hfinite : (σ.setTime rs types).isFinite = true) : toRat (σ.setTime rs types) ≠ 0 := by
    intro heq
    rw [← toRat_zero, ← beq_iff_toRat (isNaN_of_isFinite hfinite) rfl, hzero] at heq
    cases heq
  constructor
  · intro hno
    have hvalues := h.isFinite_value_iff.mpr ⟨hno.rescaling, hno.lifting⟩
    have hset := (h.isFinite_setTime_iff htypes).mpr ⟨⟨hvalues, hno.totals⟩, hno.setTime⟩
    have hhour := (h.isFinite_perHour_iff hset (hne hset)).mpr ⟨hno.perSetTime, hno.perHour⟩
    exact ⟨h.isFinite_throughput_iff.mpr ⟨hno.perSecond, hno.perMinute⟩,
      (h.isFinite_product_iff htypes).mpr ⟨⟨hvalues, hno.totals⟩, hno.product⟩, hset, hhour,
      h.isFinite_effective_iff.mpr ⟨hhour, hno.effective⟩⟩
  · rintro ⟨hthroughput, hproduct, hset, hhour, heffective⟩
    obtain ⟨⟨hvalues, htotals⟩, hproduct⟩ := (h.isFinite_product_iff htypes).mp hproduct
    obtain ⟨hrescaling, hlifting⟩ := h.isFinite_value_iff.mp hvalues
    obtain ⟨hperSetTime, hperHour⟩ := (h.isFinite_perHour_iff hset (hne hset)).mp hhour
    obtain ⟨hperSecond, hperMinute⟩ := h.isFinite_throughput_iff.mp hthroughput
    exact {
      rescaling := hrescaling
      lifting := hlifting
      totals := htotals
      setTime := ((h.isFinite_setTime_iff htypes).mp hset).2
      product := hproduct
      perSetTime := hperSetTime
      perHour := hperHour
      effective := (h.isFinite_effective_iff.mp heffective).2
      perSecond := hperSecond
      perMinute := hperMinute }

/-! ### Signs -/

/-- In the subtractive mode, means that are finite are not negative. -/
theorem zero_le_meanOf (hσ : σ.mode = .subtractive) {t : TransactionType}
    (ht : ∃ r ∈ rs, r.type = t)
    (hrescaled : ∀ p ∈ σ.queries rs, (σ.rescaled p).isFinite = true)
    (hmean : (σ.meanOf rs t).isFinite = true) : 0.0 ≤ σ.meanOf rs t := by
  have habove : ∀ p ∈ σ.queries rs, -infinity < σ.rescaled p := by
    intro p hp
    obtain ⟨hnumber, hgt, -⟩ := isFinite_iff.mp (hrescaled p hp)
    exact lt_iff.mpr ⟨rfl, hnumber, by rwa [units_neg_infinity]⟩
  have hvalues : ∀ v ∈ σ.valuesOf rs t, 0.0 ≤ v := by
    intro v hv
    obtain ⟨p, hp, rfl⟩ := List.mem_map.mp hv
    exact value_nonneg hσ habove (List.mem_of_mem_filter hp)
  obtain ⟨hcount, hone⟩ := h.count_of_occurs ht
  have htotal := (isFinite_div_iff.mp hmean).1
  have hzero : (0.0 : Float) ≤ 0.0 := by decide +kernel
  have hnonneg := toRat_nonneg (zero_le_sum htotal hzero hvalues)
  have hquotient := rounds_div htotal hcount (by linarith)
  exact zero_le_of_toRat hquotient.isNaN (hquotient.toRat_nonneg (div_nonneg hnonneg (by linarith)))

/-- **The product of means is not negative** if none of them can be: in the subtractive mode, or
if means that are not positive are refused. -/
theorem zero_le_meanProduct {types : List TransactionType} (htypes : σ.IsTypeList rs types)
    (hσ : σ.mode = .subtractive ∨ ∀ t ∈ types, ¬σ.IsRefused rs t)
    (hno : σ.NoOverflow rs types) : 0.0 ≤ σ.meanProduct rs types := by
  have hrescaled : ∀ p ∈ σ.queries rs, (σ.rescaled p).isFinite = true :=
    fun p hp => (h.isFinite_rescaled_iff hp).mpr (hno.rescaling p hp)
  have hvalues := h.isFinite_value_iff.mpr ⟨hno.rescaling, hno.lifting⟩
  have hmeans := (h.isFinite_means_iff htypes).mpr ⟨hvalues, hno.totals⟩
  have hproduct := (h.isFinite_product_iff htypes).mpr ⟨⟨hvalues, hno.totals⟩, hno.product⟩
  refine zero_le_product hproduct (show (0.0 : Float) ≤ 1.0 by decide +kernel) ?_
  rw [List.forall_mem_map] at hmeans ⊢
  intro t ht
  rcases hσ with hσ | hpolicy
  · exact zero_le_meanOf h hσ ((htypes.mem_iff t).mp ht).2 hrescaled (hmeans t ht)
  · have hnot := hpolicy t ht
    rw [IsRefused, not_or, Bool.not_eq_true] at hnot
    exact le_of_less ((not_le hnot.1 rfl).mp hnot.2)

end IsFiniteInput

end Scheme

end MixedWorkload

import MixedWorkload.Proofs.Binary64.Products
import MixedWorkload.Proofs.Division
import MixedWorkload.Proofs.Lifting

/-!
# Normalization without growth

A table of zeros says that the database does not slow queries down, however much it grows. The
subtractive mode then takes nothing off a latency, and the divisive mode divides by the scale
factor alone. Neither is rounded: zero times a count is zero, and a zero that is taken off or
added leaves a double as it was.

All the same such a table does not switch normalization off. A log may hold negative latencies,
and those of queries are lifted whether or not a correction has made them negative. So latencies
come out as they went in if and only if no query has a negative one
(`MixedWorkload.TimingLog.isUncorrected_normalize`), and else all queries are raised by what the
least of them lacks to zero.
-/

namespace MixedWorkload

open Binary64

/-- **A log whose queries are not corrected for growth**, beside what the subtractive mode makes
of it. -/
structure NormalizedLog.IsUncorrected (n : NormalizedLog) (log : TimingLog)
    (range : AnalyticalRange) : Prop where
  /-- The records are those of the log. -/
  map_record_eq : n.records.map NormalizedRecord.record = log.records
  /-- The analytical ones are those whose type is in the range. -/
  analytical_iff : ∀ r ∈ n.records,
    r.analytical = true ↔ range.lower ≤ r.record.type ∧ r.record.type ≤ range.upper
  /-- All latencies are what they were, and nothing is raised, exactly if no query has a negative
  latency. -/
  unchanged_iff : ((∀ r ∈ n.records, r.latency = r.record.latency) ∧ n.correction = 0.0) ↔
    ∀ r ∈ n.analytical, ¬r.record.latency < 0.0
  /-- If one has, all queries are raised by the magnitude of the least of their latencies. -/
  raised : (∃ r ∈ n.analytical, r.record.latency < 0.0) →
    ∃ low, IsLeastOf low (n.analytical.map fun r => r.record.latency) ∧ low < 0.0 ∧
      n.correction = low.abs ∧ ∀ r ∈ n.analytical, r.latency = r.record.latency + n.correction
  /-- What is no query keeps its latency in any case. -/
  latency_eq : ∀ r ∈ n.records, r.analytical = false → r.latency = r.record.latency

/-! ### Zero among doubles -/

namespace Binary64

/-- **Zero taken off** leaves every double as it is, a negative zero included. -/
theorem sub_zero_eq (x : Float) : x - 0.0 = x := by
  have hzero : decoded 0.0 = .zero .positive := rfl
  rw [sub_eq_packed, hzero]
  refine Eq.trans ?_ (packed_decoded x)
  cases decoded x with
  | zero s => cases s <;> rfl
  | notANumber | infinity | finite => rfl

/-- **Zero added** leaves a positive double as it is. -/
theorem add_zero_eq {x : Float} (hx : 0.0 < x) : x + 0.0 = x := by
  have hpos : 0 < units x := units_zero ▸ (lt_iff.mp hx).2.2
  have hzero : decoded 0.0 = .zero .positive := rfl
  rw [add_eq_packed, hzero]
  refine Eq.trans ?_ (packed_decoded x)
  cases hd : decoded x with
  | zero s =>
    rw [units, hd] at hpos
    exact absurd hpos (lt_irrefl 0)
  | notANumber | infinity | finite => rfl

/-- **Zero times a count** is zero. -/
theorem zero_mul_toFloat {n : ℕ} (hn : n.toFloat.isFinite = true) : 0.0 * n.toFloat = 0.0 := by
  rcases Nat.eq_zero_or_pos n with rfl | hpos
  · decide +kernel
  · have hone := one_le_toRat_toFloat hpos
    exact zero_mul_of_isPositive (isPositive_iff.mpr ⟨hn, by linarith⟩)

/-- The magnitude of a negative double is its opposite. -/
theorem abs_of_lt_zero {x : Float} (hx : x < 0.0) : x.abs = -x := by
  have hneg := (lt_iff.mp hx).2.2
  rw [units_zero] at hneg
  refine eq_of_units_eq ?_ ?_
  · rw [units_abs, units_neg, abs_of_neg hneg]
  · rw [units_abs]
    exact abs_ne_zero.mpr hneg.ne

end Binary64

/-! ### The least corrected latency -/

namespace Scheme

/-- **Nothing has to be lifted** exactly if no corrected latency is negative. -/
theorem zero_le_low_iff (σ : Scheme) (rs : List TimingRecord) :
    0.0 ≤ σ.low rs ↔ ∀ p ∈ σ.queries rs, ¬σ.rescaled p < 0.0 := by
  constructor
  · intro h p hp hneg
    obtain ⟨m, hm, hfirst⟩ := exists_leastNumber? (List.mem_map_of_mem hp) (lt_iff.mp hneg).1
    rw [low, hm, Option.getD_some] at h
    have hle := hfirst.le _ (List.mem_map_of_mem hp) (lt_iff.mp hneg).1
    exact absurd (lt_iff.mp hneg).2.2 (not_lt_of_ge ((le_iff.mp h).2.2.trans hle))
  · intro h
    rw [low]
    cases hleast : leastNumber? ((σ.queries rs).map σ.rescaled) with
    | none =>
      have hinf : (0.0 : Float) ≤ infinity := by decide +kernel
      exact hinf
    | some m =>
      have hfirst := isFirst_of_firstNumber? measures_lt hleast
      obtain ⟨p, hp, rfl⟩ := List.mem_map.mp hfirst.mem
      exact (not_lt hfirst.isNumber rfl).mp (h p hp)

/-! ### A table of zeros -/

/-- The scheme that corrects nothing. -/
def ofZeros (range : AnalyticalRange) (mode : NormalizationMode) (newOrderId : TransactionType) :
    Scheme :=
  ⟨.zeros range, mode, newOrderId⟩

section Zeros

variable {range : AnalyticalRange} {mode : NormalizationMode} {newOrderId : TransactionType}

/-- **Every factor is zero**, that of a type without a factor included. -/
theorem factor_ofZeros (t : TransactionType) :
    (ofZeros range mode newOrderId).factor t = 0.0 := by
  rw [factor, List.getD_eq_getElem?_getD]
  change ((List.replicate range.queryCount 0.0)[_]?).getD 0.0 = _
  rw [List.getElem?_replicate]
  split <;> rfl

variable {p : TimingRecord × ℕ} (hcount : p.2.toFloat.isFinite = true)

include hcount

/-- There is no growth. -/
theorem growth_ofZeros : (ofZeros range mode newOrderId).growth p = 0.0 := by
  rw [growth, factor_ofZeros, zero_mul_toFloat hcount]

/-- **Nothing is taken off** in the subtractive mode. -/
theorem rescaled_ofZeros : (ofZeros range .subtractive newOrderId).rescaled p = p.1.latency := by
  have hgrowth : (ofZeros range .subtractive newOrderId).growth p = 0.0 := growth_ofZeros hcount
  change p.1.latency - (ofZeros range .subtractive newOrderId).growth p = _
  rw [hgrowth, sub_zero_eq]

/-- **The database has the size of the scale factor** in the divisive mode. -/
theorem size_ofZeros (s : ScaleFactor) : (ofZeros range mode newOrderId).size s p = s.value := by
  have hgrowth : (ofZeros range mode newOrderId).growth p = 0.0 := growth_ofZeros hcount
  change s.value + (ofZeros range mode newOrderId).growth p = _
  rw [hgrowth, add_zero_eq s.zero_lt_value]

end Zeros

/-! ### A whole log -/

section Log

variable {σ : Scheme} {log : TimingLog}

/-- A record of the normalized log is one of the log with its count. -/
theorem exists_of_mem_records {r : NormalizedRecord}
    (hr : r ∈ (log.normalize σ.table σ.mode σ.newOrderId).records) :
    ∃ p ∈ σ.counted log.records, r = σ.normalized log.records p := by
  rw [records_normalize] at hr
  obtain ⟨p, hp, rfl⟩ := List.mem_map.mp hr
  exact ⟨p, hp, rfl⟩

/-- An analytical one has its value for its latency. -/
theorem exists_of_mem_analytical {r : NormalizedRecord}
    (hr : r ∈ (log.normalize σ.table σ.mode σ.newOrderId).analytical) :
    ∃ p ∈ σ.queries log.records, r.record = p.1 ∧ r.latency = σ.value log.records p := by
  rw [analytical_normalize_eq_map] at hr
  obtain ⟨p, hp, rfl⟩ := List.mem_map.mp hr
  exact ⟨p, hp, rfl, rfl⟩

section Uncorrected

variable (hσ : σ.mode = .subtractive)
  (hrescaled : ∀ p ∈ σ.queries log.records, σ.rescaled p = p.1.latency)

include hrescaled

/-- The corrected latencies of the queries are those that they came with. -/
theorem map_latency_analytical :
    ((log.normalize σ.table σ.mode σ.newOrderId).analytical.map fun r => r.record.latency) =
      (σ.queries log.records).map σ.rescaled := by
  rw [analytical_normalize_eq_map, List.map_map]
  exact List.map_congr_left fun p hp => (hrescaled p hp).symm

/-- **Nothing has to be lifted** exactly if no query has a negative latency. -/
theorem zero_le_low_iff_latency : 0.0 ≤ σ.low log.records ↔
    ∀ r ∈ (log.normalize σ.table σ.mode σ.newOrderId).analytical, ¬r.record.latency < 0.0 := by
  rw [zero_le_low_iff, analytical_normalize_eq_map, List.forall_mem_map]
  exact forall₂_congr fun p hp => by rw [hrescaled p hp]

include hσ

/-- If nothing has to be lifted, all latencies are what they were. -/
theorem latency_eq_of_zero_le_low (hlow : 0.0 ≤ σ.low log.records) {r : NormalizedRecord}
    (hr : r ∈ (log.normalize σ.table σ.mode σ.newOrderId).records) :
    r.latency = r.record.latency := by
  obtain ⟨p, hp, rfl⟩ := exists_of_mem_records hr
  by_cases ha : σ.IsAnalytical p.1.type
  · have hquery : p ∈ σ.queries log.records := List.mem_filter.mpr ⟨hp, decide_eq_true ha⟩
    rw [latency_normalized _ _ hquery, value, shift?_of_nonneg hσ hlow]
    exact hrescaled p hquery
  · exact if_neg ha

omit hrescaled in
/-- Otherwise the correction is the magnitude of the least latency. -/
theorem correction_eq_abs (hneg : ¬0.0 ≤ σ.low log.records) :
    (log.normalize σ.table σ.mode σ.newOrderId).correction = (σ.low log.records).abs := by
  rw [correction_normalize, shift?_of_neg hσ hneg, Option.elim_some,
    abs_of_lt_zero (low_lt_zero hneg)]

/-- **What the subtractive mode makes of a log** whose queries it does not correct for growth. -/
theorem isUncorrected (hlatency : ∀ r ∈ log.records, r.latency.isFinite = true) :
    (log.normalize σ.table σ.mode σ.newOrderId).IsUncorrected log σ.table.range where
  map_record_eq := σ.map_record_normalize log
  analytical_iff r hr := by
    obtain ⟨p, -, rfl⟩ := exists_of_mem_records hr
    exact decide_eq_true_iff
  unchanged_iff := by
    rw [← zero_le_low_iff_latency hrescaled]
    constructor
    · rintro ⟨-, hcorrection⟩
      by_contra hneg
      rw [correction_eq_abs hσ hneg] at hcorrection
      have hunits := (lt_iff.mp (low_lt_zero hneg)).2.2
      have habs := units_abs (σ.low log.records)
      rw [hcorrection, units_zero] at habs
      exact hunits.ne (abs_eq_zero.mp habs.symm)
    · intro hlow
      refine ⟨fun r hr => latency_eq_of_zero_le_low hσ hrescaled hlow hr, ?_⟩
      rw [correction_normalize, shift?_of_nonneg hσ hlow, Option.elim_none]
  raised := by
    rintro ⟨r, hr, hlt⟩
    have hneg : ¬0.0 ≤ σ.low log.records := fun hlow =>
      (zero_le_low_iff_latency hrescaled).mp hlow r hr hlt
    refine ⟨σ.low log.records, ?_, low_lt_zero hneg, correction_eq_abs hσ hneg,
      fun r hr => ?_⟩
    · rw [map_latency_analytical hrescaled]
      refine (isFirst_low hσ hneg).isLeastOf (List.forall_mem_map.mpr fun p hp => ?_)
      rw [hrescaled p hp]
      exact isNaN_of_isFinite (hlatency _ (mem_queries hp).1)
    · obtain ⟨p, hp, hrecord, hvalue⟩ := exists_of_mem_analytical hr
      rw [hvalue, hrecord, value_of_neg hσ hneg, hrescaled p hp, sub_eq_add,
        correction_eq_abs hσ hneg, abs_of_lt_zero (low_lt_zero hneg)]
  latency_eq r hr hout := by
    obtain ⟨p, -, rfl⟩ := exists_of_mem_records hr
    exact if_neg (of_decide_eq_false hout)

end Uncorrected

end Log

end Scheme

/-- **A table of zeros** leaves all latencies as they are if and only if no query has a negative
one. If one has, the subtractive mode raises all queries by the magnitude of the least latency.
The divisive mode divides by the scale factor, wherever NewOrders stand in the log. The count of
NewOrders is kept in 64 bits, so there are not more of them. -/
theorem TimingLog.isUncorrected_normalize (log : TimingLog) (range : AnalyticalRange)
    (newOrderId : TransactionType) (hlatency : ∀ r ∈ log.records, r.latency.isFinite = true)
    (hcount : log.countOf newOrderId < 2 ^ 64) :
    (log.normalize (.zeros range) .subtractive newOrderId).IsUncorrected log range ∧
      ∀ s : ScaleFactor, ∀ r ∈ (log.normalize (.zeros range) (.divisive s) newOrderId).analytical,
        r.latency = r.record.latency / s.value := by
  have hfinite (mode : NormalizationMode) :
      ∀ p ∈ (Scheme.ofZeros range mode newOrderId).queries log.records,
        p.2.toFloat.isFinite = true :=
    fun p hp => isFinite_toFloat_of_lt ((Scheme.mem_queries hp).2.1.trans_lt hcount)
  refine ⟨?_, fun s r hr => ?_⟩
  · exact Scheme.isUncorrected (σ := .ofZeros range .subtractive newOrderId) rfl
      (fun p hp => Scheme.rescaled_ofZeros (hfinite .subtractive p hp)) hlatency
  · obtain ⟨p, hp, hrecord, hvalue⟩ :=
      Scheme.exists_of_mem_analytical (σ := .ofZeros range (.divisive s) newOrderId) hr
    rw [hvalue, hrecord, Scheme.value_eq_div rfl,
      Scheme.size_ofZeros (hfinite (.divisive s) p hp)]

/-- Two queries around a NewOrder, the first of which has a negative latency. -/
def negativeLog : TimingLog :=
  ⟨[⟨7, 0.0, -1.5, "a", 0⟩, ⟨2, 0.5, 0.25, "b", 0⟩, ⟨8, 1.0, 4.0, "a", 0⟩]⟩

/-- With a table of zeros, both queries are raised by one and a half seconds, and divided by the
scale factor in the divisive mode. -/
theorem TimingLog.isUncorrected_negativeLog :
    (∀ r ∈ negativeLog.records, r.latency.isFinite = true) ∧ negativeLog.countOf 2 < 2 ^ 64 ∧
      (∃ r ∈ (negativeLog.normalize (.zeros .standard) .subtractive 2).analytical,
        r.record.latency < 0.0) ∧
      (negativeLog.normalize (.zeros .standard) .subtractive 2).correction = 1.5 ∧
      (negativeLog.normalize (.zeros .standard) .subtractive 2).IsUncorrected negativeLog
        .standard ∧
      ∀ s : ScaleFactor, ∀ r ∈ (negativeLog.normalize (.zeros .standard) (.divisive s) 2).analytical,
        r.latency = r.record.latency / s.value := by
  have hlatency : ∀ r ∈ negativeLog.records, r.latency.isFinite = true := by decide +kernel
  have hcount : negativeLog.countOf 2 < 2 ^ 64 := by decide +kernel
  have hnegative : ∃ r ∈ (negativeLog.normalize (.zeros .standard) .subtractive 2).analytical,
      r.record.latency < 0.0 := by decide +kernel
  exact ⟨hlatency, hcount, hnegative, by decide +kernel,
    negativeLog.isUncorrected_normalize .standard 2 hlatency hcount⟩

end MixedWorkload

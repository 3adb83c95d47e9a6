import MixedWorkload.Proofs.Binary64.Difference
import MixedWorkload.Proofs.Configuration
import MixedWorkload.Proofs.Definition

/-!
# The normalized log, record by record

Normalization walks down the log with a running count and then may change all analytical
records at once. `MixedWorkload.Scheme.records_normalize` says what comes out, each record
by itself: it has the NewOrders at or above it, and if it is analytical, the value of
`MixedWorkload.Scheme.value` for its latency.

The lifting of the subtractive mode is there so that no latency is negative. It succeeds
unless a correction is so large that it leaves the finite numbers:
`MixedWorkload.TimingLog.normalize_nonneg_iff` gives the exact condition. A corrected
latency of minus infinity is its own least value, and taking it off itself leaves no
number.
-/

namespace MixedWorkload

open Binary64

namespace Scheme

variable (σ : Scheme) (rs : List TimingRecord)

/-! ### One record before lifting -/

theorem contains_eq (t : TransactionType) :
    σ.table.range.contains t = decide (σ.IsAnalytical t) := rfl

/-- **The factor of an analytical type** is the one that the table looks up. -/
theorem factorFor_eq {t : TransactionType} (h : σ.IsAnalytical t) :
    σ.table.factorFor t = σ.factor t := by
  rw [FactorTable.factorFor, AnalyticalRange.indexOf_eq h, Option.bind_some, factor,
    List.getD_eq_getElem?_getD]

/-- A record with its NewOrders, before any lifting. -/
def unlifted (p : TimingRecord × ℕ) : NormalizedRecord :=
  ⟨p.1, p.2, if σ.IsAnalytical p.1.type then σ.rescaled p else p.1.latency,
    σ.IsAnalytical p.1.type⟩

/-- A record with its NewOrders and its value, if it has one. -/
def normalized (p : TimingRecord × ℕ) : NormalizedRecord :=
  ⟨p.1, p.2, if σ.IsAnalytical p.1.type then σ.value rs p else p.1.latency,
    σ.IsAnalytical p.1.type⟩

theorem normalizeRecord_eq (k : ℕ) (r : TimingRecord) :
    normalizeRecord σ.table σ.mode k r = σ.unlifted (r, k) := by
  simp only [normalizeRecord, unlifted, contains_eq, decide_eq_true_eq]
  split
  · next h =>
    rw [σ.factorFor_eq h]
    rcases hm : σ.mode with _ | s <;> simp only [NormalizationMode.rescale, rescaled, hm]
  · rfl

/-! ### The walk down the log -/

theorem newOrdersThrough_cons_zero (r : TimingRecord) :
    σ.newOrdersThrough (r :: rs) 0 = if r.type = σ.newOrderId then 1 else 0 := by
  simp only [newOrdersThrough, List.take_succ_cons, List.take_zero, List.countP_cons,
    List.countP_nil, Nat.zero_add, beq_iff_eq]

theorem newOrdersThrough_cons_succ (r : TimingRecord) (i : ℕ) :
    σ.newOrdersThrough (r :: rs) (i + 1) =
      (if r.type = σ.newOrderId then 1 else 0) + σ.newOrdersThrough rs i := by
  simp only [newOrdersThrough, List.take_succ_cons, List.countP_cons, beq_iff_eq]
  exact Nat.add_comm _ _

/-- **The running count is a count**: the walk from a given number of NewOrders on meets
each record with that number and those at or above it. -/
theorem annotate_eq_mapIdx (k : ℕ) :
    annotate σ.table σ.mode σ.newOrderId k rs =
      rs.mapIdx fun i r => σ.unlifted (r, k + σ.newOrdersThrough rs i) := by
  -- the walk goes on with another count than it began with, so the count is left open
  induction rs generalizing k with
  | nil => rfl
  | cons r rs ih =>
    have hk : (if r.type = σ.newOrderId then k + 1 else k) =
        k + if r.type = σ.newOrderId then 1 else 0 := by
      split <;> rfl
    rw [annotate, List.mapIdx_cons, hk, normalizeRecord_eq, ih, newOrdersThrough_cons_zero]
    simp only [newOrdersThrough_cons_succ, Nat.add_assoc]

theorem annotate_eq_map :
    annotate σ.table σ.mode σ.newOrderId 0 rs = (σ.counted rs).map σ.unlifted := by
  rw [annotate_eq_mapIdx, counted, List.mapIdx_eq_zipIdx_map, List.mapIdx_eq_zipIdx_map,
    List.map_map]
  simp only [Nat.zero_add]
  rfl

/-- The latencies that lifting looks at. -/
theorem leastLatency_eq :
    leastLatency ((σ.counted rs).map σ.unlifted) = least ((σ.queries rs).map σ.rescaled) := by
  rw [leastLatency, queries, List.filter_map, List.map_map]
  refine congrArg least (List.map_congr_left fun p hp => ?_)
  exact if_pos (of_decide_eq_true (List.mem_filter.mp hp).2)

/-! ### Lifting -/

/-- **The negative least number of a list** is the least one that the fold finds, if that is
negative. The two can differ only in the sign of a zero, which is not negative. -/
theorem leastNumber?_filter (xs : List Float) :
    (leastNumber? xs).filter (· < 0.0) =
      if (least xs).isNaN || decide (least xs ≥ 0.0) then none else some (least xs) := by
  have hnum := isNaN_least xs
  rw [hnum, Bool.false_or]
  cases h : leastNumber? xs with
  | none =>
    have hge : least xs ≥ 0.0 := by
      rw [least_of_leastNumber?_eq_none h]
      exact le_iff.mpr ⟨rfl, rfl, Int.natCast_nonneg infiniteUnits⟩
    rw [if_pos (decide_eq_true hge)]
    rfl
  | some m =>
    obtain ⟨hm, hunits⟩ := least_of_leastNumber? h
    by_cases hneg : m < 0.0
    · -- a negative number is no zero, so its units determine it
      have hlt := (lt_iff.mp hneg).2.2
      rw [units_zero] at hlt
      have heq : least xs = m := eq_of_units_eq hunits (by omega)
      have hnge : ¬least xs ≥ 0.0 := by
        rw [heq, ge_iff_le, not_le rfl hm]
        exact hneg
      rw [if_neg (by rwa [decide_eq_true_iff]), Option.filter_some, if_pos (decide_eq_true hneg),
        heq]
    · have hge : least xs ≥ 0.0 := by
        have hle := (le_iff.mp ((not_lt hm rfl).mp hneg)).2.2
        exact le_iff.mpr ⟨rfl, hnum, hunits ▸ hle⟩
      rw [if_pos (decide_eq_true hge), Option.filter_some,
        if_neg (by rwa [decide_eq_true_iff])]

/-- A record that is not analytical is what it is before lifting, and so is every record if
nothing is lifted. -/
theorem normalized_eq_unlifted {p : TimingRecord × ℕ}
    (h : σ.IsAnalytical p.1.type → σ.value rs p = σ.rescaled p) :
    σ.normalized rs p = σ.unlifted p := by
  unfold normalized unlifted
  split
  · next ha => rw [h ha]
  · rfl

theorem map_normalized_of_shift?_eq_none (h : σ.shift? rs = none) :
    (σ.counted rs).map (σ.normalized rs) = (σ.counted rs).map σ.unlifted :=
  List.map_congr_left fun p _ => σ.normalized_eq_unlifted rs fun _ => by rw [value, h]

theorem liftAll_eq_map {low : Float} (h : σ.shift? rs = some low) :
    liftAll low ((σ.counted rs).map σ.unlifted) = (σ.counted rs).map (σ.normalized rs) := by
  rw [liftAll, List.map_map]
  refine List.map_congr_left fun p _ => ?_
  by_cases ha : σ.IsAnalytical p.1.type
  · simp only [Function.comp_apply, unlifted, normalized, value, h, ha, decide_true, if_true]
  · simp only [Function.comp_apply, unlifted, normalized, ha, decide_false, if_false,
      Bool.false_eq_true]

/-- **Lifting, record by record**, with the amount that latencies are raised by. -/
theorem liftNegative_eq (hσ : σ.mode = .subtractive) :
    liftNegative ((σ.counted rs).map σ.unlifted) =
      ((σ.counted rs).map (σ.normalized rs), (σ.shift? rs).elim 0.0 fun low => -low) := by
  have hshift : σ.shift? rs =
      if (leastLatency ((σ.counted rs).map σ.unlifted)).isNaN ||
        decide (leastLatency ((σ.counted rs).map σ.unlifted) ≥ 0.0) then none
      else some (leastLatency ((σ.counted rs).map σ.unlifted)) := by
    rw [leastLatency_eq, ← leastNumber?_filter, shift?, hσ]
  -- lifting and the definition of the shift make the same test
  rw [liftNegative]
  split at hshift
  · next hc =>
    rw [if_pos hc, σ.map_normalized_of_shift?_eq_none _ hshift, hshift]
    rfl
  · next hc =>
    rw [if_neg hc, ← σ.liftAll_eq_map _ hshift, hshift]
    rfl

/-- **The normalized log, record by record.** -/
theorem records_normalize (log : TimingLog) :
    (log.normalize σ.table σ.mode σ.newOrderId).records =
      (σ.counted log.records).map (σ.normalized log.records) := by
  rcases hm : σ.mode with _ | s
  · have hrecords : (log.normalize σ.table .subtractive σ.newOrderId).records =
        (liftNegative ((σ.counted log.records).map σ.unlifted)).1 := by
      rw [← σ.annotate_eq_map, hm]
      rfl
    rw [hrecords, σ.liftNegative_eq _ hm]
  · have hrecords : (log.normalize σ.table (.divisive s) σ.newOrderId).records =
        (σ.counted log.records).map σ.unlifted := by
      rw [← σ.annotate_eq_map, hm]
      rfl
    rw [hrecords, σ.map_normalized_of_shift?_eq_none]
    rw [shift?, hm]

/-- **The correction** is what is taken off, with the opposite sign. -/
theorem correction_normalize (log : TimingLog) :
    (log.normalize σ.table σ.mode σ.newOrderId).correction =
      (σ.shift? log.records).elim 0.0 fun low => -low := by
  rcases hm : σ.mode with _ | s
  · have hcorrection : (log.normalize σ.table .subtractive σ.newOrderId).correction =
        (liftNegative ((σ.counted log.records).map σ.unlifted)).2 := by
      rw [← σ.annotate_eq_map, hm]
      rfl
    rw [hcorrection, σ.liftNegative_eq _ hm]
  · rw [shift?, hm]
    rfl

/-- The records of a normalized log are those of the log. -/
theorem map_record_normalize (log : TimingLog) :
    (log.normalize σ.table σ.mode σ.newOrderId).records.map NormalizedRecord.record =
      log.records := by
  rw [records_normalize, List.map_map, counted, List.mapIdx_eq_zipIdx_map, List.map_map]
  exact List.zipIdx_map_fst 0 log.records

/-- **The analytical records of a normalized log**, each with its value. -/
theorem analytical_normalize (log : TimingLog) :
    (log.normalize σ.table σ.mode σ.newOrderId).analytical =
      (σ.queries log.records).map (σ.normalized log.records) := by
  rw [NormalizedLog.analytical, records_normalize, List.filter_map]
  rfl

theorem latency_normalized {p : TimingRecord × ℕ} (h : p ∈ σ.queries rs) :
    (σ.normalized rs p).latency = σ.value rs p :=
  if_pos (of_decide_eq_true (List.mem_filter.mp h).2)

theorem analytical_normalize_eq_map (log : TimingLog) :
    (log.normalize σ.table σ.mode σ.newOrderId).analytical =
      (σ.queries log.records).map fun p => ⟨p.1, p.2, σ.value log.records p, true⟩ := by
  rw [analytical_normalize]
  refine List.map_congr_left fun p hp => ?_
  have ha := of_decide_eq_true (List.mem_filter.mp hp).2
  rw [normalized, if_pos ha, decide_eq_true ha]

/-- A value is a number only if the latency was one before lifting. -/
theorem isNaN_rescaled_of_value {p : TimingRecord × ℕ} (h : (σ.value rs p).isNaN = false) :
    (σ.rescaled p).isNaN = false := by
  by_contra hnan
  rw [Bool.not_eq_false] at hnan
  unfold value at h
  cases hs : σ.shift? rs with
  | none =>
    rw [hs, hnan] at h
    cases h
  | some low =>
    rw [hs, isNaN_sub low hnan] at h
    cases h

/-! ### No negative latency -/

section Nonneg

variable {σ rs} (hσ : σ.mode = .subtractive)

include hσ

theorem shift?_eq :
    σ.shift? rs = (leastNumber? ((σ.queries rs).map σ.rescaled)).filter (· < 0.0) := by
  rw [shift?, hσ]

/-- What lifting takes off is the least of the values. -/
theorem isFirst_of_shift? {low : Float} (h : σ.shift? rs = some low) :
    low < 0.0 ∧ IsFirst units low ((σ.queries rs).map σ.rescaled) := by
  rw [shift?_eq hσ, Option.filter_eq_some_iff] at h
  exact ⟨of_decide_eq_true h.2, isFirst_of_firstNumber? measures_lt h.1⟩

/-- **Lifting reaches zero**: values that all are above minus infinity are lifted to zero or
more. -/
theorem value_nonneg (h : ∀ p ∈ σ.queries rs, -infinity < σ.rescaled p)
    {p : TimingRecord × ℕ} (hp : p ∈ σ.queries rs) : 0.0 ≤ σ.value rs p := by
  have hnum : (σ.rescaled p).isNaN = false := (lt_iff.mp (h p hp)).2.1
  have hmem : σ.rescaled p ∈ (σ.queries rs).map σ.rescaled := List.mem_map_of_mem hp
  unfold value
  cases hs : σ.shift? rs with
  | none =>
    -- the least value is not negative, and this one is not less
    obtain ⟨m, hm, hfirst⟩ := exists_leastNumber? hmem hnum
    rw [shift?_eq hσ, hm, Option.filter_some, ite_eq_right_iff] at hs
    have hnot : ¬m < 0.0 := fun hlt => absurd (hs (decide_eq_true hlt)) (Option.some_ne_none m)
    have hle := (le_iff.mp ((not_lt hfirst.isNumber rfl).mp hnot)).2.2
    exact le_iff.mpr ⟨rfl, hnum, le_trans hle (hfirst.le _ hmem hnum)⟩
  | some low =>
    -- what is taken off is negative and above minus infinity, hence finite
    obtain ⟨hneg, hfirst⟩ := isFirst_of_shift? hσ hs
    obtain ⟨q, hq, hlow⟩ := List.mem_map.mp hfirst.mem
    have hfinite : low.isFinite = true := by
      have habove := (lt_iff.mp (h q hq)).2.2
      have hbelow := (lt_iff.mp hneg).2.2
      have hinf := infiniteUnits_pos
      rw [hlow, units_neg_infinity] at habove
      rw [units_zero] at hbelow
      exact isFinite_iff.mpr ⟨hfirst.isNumber, habove, by omega⟩
    exact sub_nonneg hnum hfinite (hfirst.le _ hmem hnum)

/-- **What lifting cannot reach**: if all values come out at zero or more, none was minus
infinity before, nor no number. -/
theorem neg_infinity_lt_rescaled (h : ∀ p ∈ σ.queries rs, 0.0 ≤ σ.value rs p)
    {p : TimingRecord × ℕ} (hp : p ∈ σ.queries rs) : -infinity < σ.rescaled p := by
  have hvalue : (σ.value rs p).isNaN = false := (le_iff.mp (h p hp)).2.1
  have hmem : σ.rescaled p ∈ (σ.queries rs).map σ.rescaled := List.mem_map_of_mem hp
  have hnum : (σ.rescaled p).isNaN = false := σ.isNaN_rescaled_of_value rs hvalue
  -- otherwise it is minus infinity, the least of all, and is taken off itself
  by_contra hnot
  have hle := (not_lt rfl hnum).mp hnot
  obtain ⟨m, hm, hfirst⟩ := exists_leastNumber? hmem hnum
  have hleast : m ≤ -infinity :=
    le_iff.mpr ⟨hfirst.isNumber, rfl, (hfirst.le _ hmem hnum).trans (le_iff.mp hle).2.2⟩
  obtain rfl := eq_of_le_neg_infinity hleast
  have hshift : σ.shift? rs = some (-infinity) := by
    rw [shift?_eq hσ, hm]
    rfl
  rw [value, hshift, eq_of_le_neg_infinity hle, sub_infinities] at hvalue
  cases hvalue

end Nonneg

/-- What is taken off is the rescaled latency of a record. -/
theorem mem_of_shift? {σ : Scheme} {rs : List TimingRecord} {low : Float}
    (hs : σ.shift? rs = some low) : low ∈ (σ.queries rs).map σ.rescaled := by
  cases hmode : σ.mode with
  | subtractive => exact (isFirst_of_shift? hmode hs).2.mem
  | divisive s =>
    rw [shift?, hmode] at hs
    cases hs

end Scheme

/-- **When no normalized latency is negative**: in the subtractive mode every analytical
record comes out with a latency of zero or more if and only if every corrected latency is
above minus infinity. -/
theorem TimingLog.normalize_nonneg_iff (log : TimingLog) (table : FactorTable)
    (newOrderId : TransactionType) :
    (∀ r ∈ (log.normalize table .subtractive newOrderId).analytical, 0.0 ≤ r.latency) ↔
      ∀ p ∈ Scheme.queries ⟨table, .subtractive, newOrderId⟩ log.records,
        -infinity < Scheme.rescaled ⟨table, .subtractive, newOrderId⟩ p := by
  have hlog := Scheme.analytical_normalize ⟨table, .subtractive, newOrderId⟩ log
  rw [hlog, List.forall_mem_map]
  constructor
  · intro h p hp
    refine Scheme.neg_infinity_lt_rescaled rfl (fun q hq => ?_) hp
    rw [← Scheme.latency_normalized _ _ hq]
    exact h q hq
  · intro h p hp
    rw [Scheme.latency_normalized _ _ hp]
    exact Scheme.value_nonneg rfl h hp

/-- Two NewOrders and a query. -/
def overflowingLog : TimingLog :=
  ⟨[⟨2, 0.0, 0.1, "a", 0⟩, ⟨2, 1.0, 0.1, "a", 0⟩, ⟨7, 2.0, 1.0, "b", 0⟩]⟩

/-- **A correction that overflows**: latencies and factors may all be finite and a normalized
latency no number. -/
theorem exists_normalize_isNaN :
    ∃ (log : TimingLog) (table : FactorTable),
      (∀ r ∈ log.records, r.latency.isFinite = true) ∧
      FactorTable.resolve (.sequence [1e308]) ⟨7, 7⟩ = .ok table ∧
      ∃ r ∈ (log.normalize table .subtractive 2).analytical,
        r.latency.isNaN = true ∧ ¬0.0 ≤ r.latency := by
  have hfactor : ∀ x ∈ [(1e308 : Float)], FactorTable.isFactor x = true := by decide +kernel
  have hlog : ∃ r ∈ (overflowingLog.normalize ⟨⟨7, 7⟩, [1e308]⟩ .subtractive 2).analytical,
      r.latency.isNaN = true := by
    rw [← List.any_eq_true]
    decide +kernel
  obtain ⟨r, hr, hnan⟩ := hlog
  refine ⟨overflowingLog, ⟨⟨7, 7⟩, [1e308]⟩, by decide +kernel,
    FactorTable.resolve_sequence rfl hfactor, r, hr, hnan, fun hle => ?_⟩
  exact absurd (hnan.symm.trans (le_iff.mp hle).2.1) (by decide)

end MixedWorkload

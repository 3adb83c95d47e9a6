import MixedWorkload.Proofs.Factors
import MixedWorkload.Proofs.Groups

/-!
# Lifting all queries by the same amount

In the subtractive mode a correction may leave a latency below zero, and then the latencies of
all queries are raised, by as much as the least of them lacks to zero. There is one amount for
all types, so lifting never inverts the order of two queries, of the same type or not; and the
query that lacked the most ends at zero exactly. `MixedWorkload.NormalizedLog.IsLifted` lists
this for a normalized log beside the log it comes from.

Hardly any of this asks latencies or factors to be finite
(`MixedWorkload.TimingLog.isLifted_normalize`). What is no number is passed over when the least
latency is looked for, and if that is minus infinity, whatever is lifted becomes infinity or no
number: even so no two queries change places.
-/

namespace MixedWorkload

open Binary64

/-- The least of the corrected latencies before lifting, infinity if none of them is a
number. -/
def Scheme.low (σ : Scheme) (rs : List TimingRecord) : Float :=
  (leastNumber? ((σ.queries rs).map σ.rescaled)).getD infinity

/-- **The queries of a log, all lifted by the same amount**, or not at all. -/
structure NormalizedLog.IsLifted (n : NormalizedLog) (σ : Scheme) (rs : List TimingRecord) :
    Prop where
  /-- A latency is corrected by the factor of its query times the NewOrders up to it. -/
  rescaled_eq : ∀ p ∈ σ.queries rs,
    σ.rescaled p = p.1.latency - σ.factor p.1.type * p.2.toFloat
  /-- The analytical records are the queries of the log, each with its value. -/
  analytical_eq : n.analytical = (σ.queries rs).map fun p => ⟨p.1, p.2, σ.value rs p, true⟩
  /-- If the least corrected latency is not negative, nothing is lifted. -/
  kept : 0.0 ≤ σ.low rs →
    n.correction = 0.0 ∧ ∀ p ∈ σ.queries rs, σ.value rs p = σ.rescaled p
  /-- Otherwise it is taken off every query, of whatever type, and the correction is what all of
  them are raised by. -/
  lifted : ¬0.0 ≤ σ.low rs →
    n.correction = -σ.low rs ∧ 0.0 < n.correction ∧
      ∀ p ∈ σ.queries rs, σ.value rs p = σ.rescaled p - σ.low rs
  /-- Then a query with the least latency is lifted to zero, and there is one. -/
  reaches_zero : ¬0.0 ≤ σ.low rs → (σ.low rs).isFinite = true →
    (∃ p ∈ σ.queries rs, σ.rescaled p = σ.low rs) ∧
      ∀ p ∈ σ.queries rs, σ.rescaled p = σ.low rs → σ.value rs p = 0.0
  /-- No two queries change places. -/
  keeps_order : ∀ p ∈ σ.queries rs, ∀ p' ∈ σ.queries rs, σ.rescaled p ≤ σ.rescaled p' →
    ¬σ.value rs p' < σ.value rs p
  /-- The least of the least latencies of all groups is zero, if there was anything to lift by a
  finite amount. All of them are numbers if latencies are finite and the table is one that the
  library makes. -/
  least_group : 0.0 < n.correction → (σ.low rs).isFinite = true →
    ∃ q, QueryGroups.ofLog n = .ok q ∧
      leastNumber? (q.groups.map QueryGroup.minLatency) = some 0.0 ∧
      (σ.table.IsMade → (∀ r ∈ rs, r.latency.isFinite = true) →
        (rs.countP fun r => r.type == σ.newOrderId) < 2 ^ 64 →
          IsLeastOf 0.0 (q.groups.map QueryGroup.minLatency))

namespace Scheme

variable {σ : Scheme} {rs : List TimingRecord} (hσ : σ.mode = .subtractive)

/-! ### The least corrected latency -/

theorem isNaN_low : (σ.low rs).isNaN = false := by
  rw [low]
  cases h : leastNumber? ((σ.queries rs).map σ.rescaled) with
  | none => rfl
  | some m => exact (isFirst_of_firstNumber? measures_lt h).isNumber

/-- **Lifting keeps the order.** -/
theorem not_value_lt {p p' : TimingRecord × ℕ} (h : σ.rescaled p ≤ σ.rescaled p') :
    ¬σ.value rs p' < σ.value rs p := by
  unfold value
  cases σ.shift? rs with
  | none => exact not_lt_of_le h
  | some low => exact not_sub_lt h low

include hσ

/-- **What is taken off** is the least corrected latency, if it is negative. -/
theorem shift?_eq_ite : σ.shift? rs = if 0.0 ≤ σ.low rs then none else some (σ.low rs) := by
  rw [shift?_eq hσ, low]
  cases h : leastNumber? ((σ.queries rs).map σ.rescaled) with
  | none =>
    have hinf : (0.0 : Float) ≤ infinity := by decide +kernel
    exact (if_pos hinf).symm
  | some m =>
    have hm := (isFirst_of_firstNumber? measures_lt h).isNumber
    rw [Option.filter_some, Option.getD_some]
    by_cases hneg : m < 0.0
    · rw [if_pos (decide_eq_true hneg), if_neg ((not_le rfl hm).mpr hneg)]
    · rw [if_neg (by rwa [decide_eq_true_iff]), if_pos ((not_lt hm rfl).mp hneg)]

theorem shift?_of_nonneg (h : 0.0 ≤ σ.low rs) : σ.shift? rs = none := by
  rw [shift?_eq_ite hσ, if_pos h]

theorem shift?_of_neg (h : ¬0.0 ≤ σ.low rs) : σ.shift? rs = some (σ.low rs) := by
  rw [shift?_eq_ite hσ, if_neg h]

/-! ### Lifted values -/

section Negative

variable (hneg : ¬0.0 ≤ σ.low rs)

include hneg

theorem value_of_neg (p : TimingRecord × ℕ) : σ.value rs p = σ.rescaled p - σ.low rs := by
  rw [value, shift?_of_neg hσ hneg]

omit hσ in
/-- What is taken off is a negative number. -/
theorem low_lt_zero : σ.low rs < 0.0 := (not_le rfl isNaN_low).mp hneg

/-- It is the corrected latency of a query. -/
theorem isFirst_low : IsFirst units (σ.low rs) ((σ.queries rs).map σ.rescaled) :=
  (isFirst_of_shift? hσ (shift?_of_neg hσ hneg)).2

section Finite

variable (hfinite : (σ.low rs).isFinite = true)

include hfinite

/-- A value that is a number is not negative, -/
theorem zero_le_value {p : TimingRecord × ℕ} (hp : p ∈ σ.queries rs)
    (hnumber : (σ.rescaled p).isNaN = false) : 0.0 ≤ σ.value rs p := by
  rw [value_of_neg hσ hneg]
  exact sub_nonneg hnumber hfinite
    ((isFirst_low hσ hneg).le _ (List.mem_map_of_mem hp) hnumber)

/-- and if it is a zero, it is the positive one. -/
theorem value_eq_zero {p : TimingRecord × ℕ} (hp : p ∈ σ.queries rs)
    (hnumber : (σ.rescaled p).isNaN = false) (hzero : units (σ.value rs p) = 0) :
    σ.value rs p = 0.0 := by
  have hlt := (lt_iff.mp (low_lt_zero hneg)).2.2
  rw [units_zero] at hlt
  rw [value_of_neg hσ hneg] at hzero ⊢
  exact sub_eq_zero_of_units hnumber hfinite hlt.ne
    ((isFirst_low hσ hneg).le _ (List.mem_map_of_mem hp) hnumber) hzero

/-- **A query with the least corrected latency** is lifted to zero. -/
theorem value_eq_zero_of_rescaled {p : TimingRecord × ℕ} (h : σ.rescaled p = σ.low rs) :
    σ.value rs p = 0.0 := by
  rw [value_of_neg hσ hneg, h, sub_self_of_isFinite hfinite]

end Finite

end Negative

/-- **A corrected latency is a number** if latencies are finite and growth is not negative. -/
theorem isNaN_rescaled {p : TimingRecord × ℕ} (hlatency : p.1.latency.isFinite = true)
    (hgrowth : 0.0 ≤ σ.growth p) : (σ.rescaled p).isNaN = false := by
  have heq : σ.rescaled p = p.1.latency + -σ.growth p := by
    simp only [rescaled, hσ, growth, sub_eq_add]
  rw [heq]
  exact isNaN_add_of_isFinite hlatency ((isNaN_neg _).trans (le_iff.mp hgrowth).2.1)

end Scheme

/-! ### The least of the least latencies -/

namespace QueryGroups

variable {range : AnalyticalRange} {rs : List NormalizedRecord} {x : Float}

/-- The least latency of a group is a latency. -/
theorem mem_latencies_of_mem_minLatency
    (h : x ∈ (ofRecords range rs).groups.map QueryGroup.minLatency) :
    x ∈ rs.map NormalizedRecord.latency := by
  obtain ⟨g, hg, rfl⟩ := List.mem_map.mp h
  obtain ⟨t, ht, rfl⟩ := mem_groups.mp hg
  have hne : (recordsOf t rs).map NormalizedRecord.latency ≠ [] :=
    fun hnil => recordsOf_ne_nil ht (List.map_eq_nil_iff.mp hnil)
  obtain ⟨r, hr, heq⟩ := List.mem_map.mp (extreme_mem lesser_mem hne)
  exact List.mem_map.mpr ⟨r, (List.mem_filter.mp hr).1, heq⟩

/-- Every latency has the least latency of a group below it. -/
theorem exists_minLatency_le (range : AnalyticalRange)
    (hx : x ∈ rs.map NormalizedRecord.latency) (hn : x.isNaN = false) :
    ∃ y ∈ (ofRecords range rs).groups.map QueryGroup.minLatency,
      y.isNaN = false ∧ units y ≤ units x := by
  obtain ⟨r, hr, rfl⟩ := List.mem_map.mp hx
  have htype : r.record.type ∈ occurringTypes rs :=
    mem_occurringTypes.mpr (List.mem_map_of_mem hr)
  have hmem : r.latency ∈ (recordsOf r.record.type rs).map NormalizedRecord.latency :=
    List.mem_map_of_mem (List.mem_filter.mpr ⟨hr, beq_self_eq_true _⟩)
  have hfirst := isFirst_extreme measures_lt hmem hn
  exact ⟨_, List.mem_map_of_mem (mem_groups.mpr ⟨_, htype, rfl⟩), hfirst.isNumber,
    hfirst.le _ hmem hn⟩

/-- **The least of the least latencies of all groups** is the least latency. -/
theorem isFirst_minLatency
    (h : IsFirst units x ((ofRecords range rs).groups.map QueryGroup.minLatency)) :
    IsFirst units x (rs.map NormalizedRecord.latency) := by
  refine ⟨mem_latencies_of_mem_minLatency h.mem, h.isNumber, fun v hv hn => ?_⟩
  obtain ⟨y, hy, hyn, hle⟩ := exists_minLatency_le range hv hn
  exact (h.le y hy hyn).trans hle

end QueryGroups

namespace Scheme

variable {σ : Scheme} {rs : List TimingRecord} (hσ : σ.mode = .subtractive)
  (hneg : ¬0.0 ≤ σ.low rs) (hfinite : (σ.low rs).isFinite = true)

include hσ hneg hfinite

/-- **The least value** of lifted queries is zero, and no other double has its place. -/
theorem eq_zero_of_isFirst {x : Float}
    (h : IsFirst units x ((σ.queries rs).map (σ.value rs))) : x = 0.0 := by
  obtain ⟨p, hp, rfl⟩ := List.mem_map.mp h.mem
  have hnumber := σ.isNaN_rescaled_of_value rs h.isNumber
  refine value_eq_zero hσ hneg hfinite hp hnumber (le_antisymm ?_ ?_)
  · obtain ⟨p₀, hp₀, hlow⟩ := List.mem_map.mp (isFirst_low hσ hneg).mem
    have hzero := value_eq_zero_of_rescaled hσ hneg hfinite hlow
    exact h.le 0.0 (List.mem_map.mpr ⟨p₀, hp₀, hzero⟩) rfl
  · exact (le_iff.mp (zero_le_value hσ hneg hfinite hp hnumber)).2.2

/-- **The least of the least latencies** of the groups is zero. -/
theorem leastNumber?_minLatency {analytical : List NormalizedRecord}
    (h : analytical.map NormalizedRecord.latency = (σ.queries rs).map (σ.value rs))
    (range : AnalyticalRange) :
    analytical ≠ [] ∧ leastNumber?
      ((QueryGroups.ofRecords range analytical).groups.map QueryGroup.minLatency) = some 0.0 := by
  obtain ⟨p, hp, hlow⟩ := List.mem_map.mp (isFirst_low hσ hneg).mem
  have hzero : (0.0 : Float) ∈ analytical.map NormalizedRecord.latency := by
    rw [h]
    exact List.mem_map.mpr ⟨p, hp, value_eq_zero_of_rescaled hσ hneg hfinite hlow⟩
  obtain ⟨x, hx, hnumber, -⟩ := QueryGroups.exists_minLatency_le range hzero rfl
  obtain ⟨m, hm, hfirst⟩ := exists_leastNumber? hx hnumber
  have hvalue := QueryGroups.isFirst_minLatency hfirst
  rw [h] at hvalue
  rw [hm, eq_zero_of_isFirst hσ hneg hfinite hvalue]
  refine ⟨fun hnil => ?_, rfl⟩
  rw [hnil] at hzero
  cases hzero

end Scheme

/-- **Lifting** in the subtractive mode raises all queries of a log by the same amount. -/
theorem TimingLog.isLifted_normalize (log : TimingLog) (table : FactorTable)
    (newOrderId : TransactionType) :
    (log.normalize table .subtractive newOrderId).IsLifted ⟨table, .subtractive, newOrderId⟩
      log.records := by
  have hcorrection := Scheme.correction_normalize ⟨table, .subtractive, newOrderId⟩ log
  have hanalytical := Scheme.analytical_normalize_eq_map ⟨table, .subtractive, newOrderId⟩ log
  set σ : Scheme := ⟨table, .subtractive, newOrderId⟩
  set n := log.normalize table .subtractive newOrderId
  have hσ : σ.mode = .subtractive := rfl
  have hmap : n.analytical.map NormalizedRecord.latency =
      (σ.queries log.records).map (σ.value log.records) := by
    rw [hanalytical, List.map_map]
    rfl
  have hkept (hnonneg : 0.0 ≤ σ.low log.records) : n.correction = 0.0 := by
    rw [hcorrection, Scheme.shift?_of_nonneg hσ hnonneg, Option.elim_none]
  have hlifted (hneg : ¬0.0 ≤ σ.low log.records) : n.correction = -σ.low log.records := by
    rw [hcorrection, Scheme.shift?_of_neg hσ hneg, Option.elim_some]
  exact {
    rescaled_eq := fun p _ => rfl
    analytical_eq := hanalytical
    kept := fun hnonneg => ⟨hkept hnonneg, fun p _ => by
      rw [Scheme.value, Scheme.shift?_of_nonneg hσ hnonneg]⟩
    lifted := fun hneg => by
      have hlow := lt_iff.mp (Scheme.low_lt_zero hneg)
      refine ⟨hlifted hneg, ?_, fun p _ => Scheme.value_of_neg hσ hneg p⟩
      rw [hlifted hneg]
      refine lt_iff.mpr ⟨rfl, (isNaN_neg _).trans hlow.1, ?_⟩
      rw [units_neg]
      have hunits := hlow.2.2
      rw [units_zero] at hunits ⊢
      omega
    reaches_zero := fun hneg hfinite =>
      ⟨List.mem_map.mp (Scheme.isFirst_low hσ hneg).mem,
        fun p _ => Scheme.value_eq_zero_of_rescaled hσ hneg hfinite⟩
    keeps_order := fun _ _ _ _ => Scheme.not_value_lt
    least_group := fun hpos hfinite => by
      have hneg : ¬0.0 ≤ σ.low log.records := by
        intro hnonneg
        rw [hkept hnonneg] at hpos
        exact not_lt_self _ hpos
      obtain ⟨hne, hleast⟩ := Scheme.leastNumber?_minLatency hσ hneg hfinite hmap n.range
      refine ⟨_, QueryGroups.ofLog_eq_ok hne, hleast, fun htable hlatency hcount => ?_⟩
      refine (isFirst_of_firstNumber? measures_lt hleast).isLeastOf fun x hx => ?_
      have hx := QueryGroups.mem_latencies_of_mem_minLatency hx
      rw [hmap] at hx
      obtain ⟨p, hp, rfl⟩ := List.mem_map.mp hx
      obtain ⟨hrecord, hle, -⟩ := Scheme.mem_queries hp
      have hgrowth := Scheme.zero_le_growth (Scheme.isFactor_factor htable.isFactor p.1.type)
        (isFinite_toFloat_of_lt (hle.trans_lt hcount))
      have hnumber := Scheme.isNaN_rescaled hσ (hlatency _ hrecord) hgrowth
      exact (le_iff.mp (Scheme.zero_le_value hσ hneg hfinite hp hnumber)).2.1 }

end MixedWorkload

import MixedWorkload.Proofs.Annotation
import MixedWorkload.Proofs.Division
import MixedWorkload.Proofs.Lifting

/-!
# The same query once more

The database only grows, so of two executions of one query that take equally long the later one
is the better: it had more data to deal with. Normalization sees it this way. Whatever the mode,
the later execution is corrected at least as strongly
(`MixedWorkload.TimingLog.correctsLaterMore_normalize`). In the subtractive mode its latency is
not greater, neither before lifting nor after it. In the divisive mode it is no larger in
magnitude, since a latency that is negative is divided towards zero as well.

Every step is rounded on the way, the product of factor and count, the difference, the sum and
the quotient, and each may leave the range of doubles. None of this inverts an order. There are
as many NewOrders up to the later record or more, and from there on one operation after the other
keeps the order of its operands.
-/

namespace MixedWorkload

open Binary64

/-- **A query that is executed once more**, and takes equally long, further down in a log. -/
structure NormalizedLog.Repeats (n : NormalizedLog) (i j : ℕ) (r r' : NormalizedRecord) :
    Prop where
  /-- One place is above the other. -/
  lt : i < j
  /-- This is the record at the first place -/
  first_eq : n.records[i]? = some r
  /-- and this the one at the second. -/
  second_eq : n.records[j]? = some r'
  /-- It is a query, -/
  analytical : r.analytical = true
  /-- the same one both times. -/
  type_eq : r'.record.type = r.record.type
  /-- Its latency was the same as well. -/
  latency_beq : (r'.record.latency == r.record.latency) = true

/-- **Later executions are corrected at least as strongly**, in a normalized log and in what the
walk down the log has made before lifting. -/
structure NormalizedLog.CorrectsLaterMore (n : NormalizedLog) (unlifted : List NormalizedRecord) :
    Prop where
  /-- In the subtractive mode the later latency is not greater before lifting -/
  unlifted_not_gt : n.mode = .subtractive → ∀ i j r r', n.Repeats i j r r' →
    ∀ u u', unlifted[i]? = some u → unlifted[j]? = some u' → ¬u'.latency > u.latency
  /-- nor after it. -/
  latency_not_gt : n.mode = .subtractive → ∀ i j r r', n.Repeats i j r r' →
    ¬r'.latency > r.latency
  /-- In the divisive mode it is no larger in magnitude. -/
  abs_le : ∀ s, n.mode = .divisive s → ∀ i j r r', n.Repeats i j r r' →
    r'.latency.abs ≤ r.latency.abs

/-! ### Operations that keep the order -/

theorem toRat_toFloat_le {m n : ℕ} (h : m ≤ n) : toRat m.toFloat ≤ toRat n.toFloat :=
  (rounds_toFloat m).toRat_le (rounds_toFloat n) (Nat.cast_le.mpr h)

section Quotient

variable {x x' y y' : Float} (hx : x.isFinite = true) (hx' : x'.isFinite = true)
  (hxx : |toRat x'| ≤ |toRat x|) (hy : 0.0 < y)

include hx hx' hxx hy

/-- **A dividend that is no larger** in magnitude makes a quotient that is no larger, -/
theorem abs_div_le_of_abs_le : (x' / y).abs ≤ (x / y).abs := by
  rcases isFinite_or_isInf (lt_iff.mp hy).2.1 with hfinite | hinf
  · have hpos := toRat_pos hy
    refine (rounds_div hx' hfinite hpos.ne').abs.le (rounds_div hx hfinite hpos.ne').abs ?_
    rw [abs_div, abs_div]
    exact div_le_div_of_nonneg_right hxx (abs_nonneg _)
  · exact (rounds_div_of_isInf hx' hinf).abs.le (rounds_div_of_isInf hx hinf).abs le_rfl

/-- and still does if the divisor grows. -/
theorem abs_div_le_abs_div (hyy : y ≤ y') : (x' / y').abs ≤ (x / y).abs := by
  have hdividend := abs_div_le_of_abs_le hx hx' hxx hy
  rcases isFinite_or_isInf (lt_iff.mp hy).2.1 with hfinite | hinf
  · exact le_of_le_of_le (abs_div_le hx' hy hfinite hyy) hdividend
  · -- nothing is greater than an infinite divisor
    rcases eq_infinity_or hinf with rfl | rfl
    · obtain rfl := eq_of_infinity_le hyy
      exact hdividend
    · exact absurd hy (by decide +kernel)

end Quotient

namespace Scheme

/-- **A query and a later one that count as the same**, each with its NewOrders. -/
structure IsRepeated (σ : Scheme) (p q : TimingRecord × ℕ) : Prop where
  /-- They are of the same type. -/
  type_eq : q.1.type = p.1.type
  /-- This is analytical. -/
  isAnalytical : σ.IsAnalytical p.1.type
  /-- Their latencies are finite -/
  isFinite : p.1.latency.isFinite = true ∧ q.1.latency.isFinite = true
  /-- and the same number. -/
  toRat_eq : toRat q.1.latency = toRat p.1.latency
  /-- The later one has as many NewOrders up to it or more, -/
  le : p.2 ≤ q.2
  /-- but not too many to be counted. -/
  isFinite_count : p.2.toFloat.isFinite = true ∧ q.2.toFloat.isFinite = true

/-- The later one is analytical as well. -/
theorem IsRepeated.isAnalytical_later {σ : Scheme} {p q : TimingRecord × ℕ}
    (h : σ.IsRepeated p q) : σ.IsAnalytical q.1.type :=
  h.type_eq ▸ h.isAnalytical

section Repeated

variable {σ : Scheme} {p q : TimingRecord × ℕ}
  (hfactor : ∀ t, FactorTable.isFactor (σ.factor t) = true) (h : σ.IsRepeated p q)

include hfactor h

/-- **Growth never decreases** down the log. -/
theorem growth_le : σ.growth p ≤ σ.growth q := by
  obtain ⟨hfinite, hnonneg⟩ := FactorTable.isFactor_iff.mp (hfactor p.1.type)
  obtain ⟨hp, hq⟩ := h.isFinite_count
  rw [growth, growth, h.type_eq]
  refine (rounds_mul hfinite hp).le (rounds_mul hfinite hq) ?_
  exact mul_le_mul_of_nonneg_left (toRat_toFloat_le h.le) (toRat_nonneg hnonneg)

/-- **At least as much is taken off further down**, in the subtractive mode. -/
theorem rescaled_le (hσ : σ.mode = .subtractive) : σ.rescaled q ≤ σ.rescaled p := by
  obtain ⟨hp, hq⟩ := h.isFinite
  have hlatency : q.1.latency ≤ p.1.latency :=
    (le_iff_toRat (isNaN_of_isFinite hq) (isNaN_of_isFinite hp)).mpr h.toRat_eq.le
  simp only [rescaled, hσ, sub_eq_add]
  exact add_le_of_le_of_le hq hp hlatency (neg_le_of_le (growth_le hfactor h))

/-- **The database is at least as large further down**, in the divisive mode. -/
theorem size_le (s : ScaleFactor) : σ.size s p ≤ σ.size s q := by
  have hs := s.isFinite_value
  have hself : s.value ≤ s.value :=
    le_iff.mpr ⟨isNaN_of_isFinite hs, isNaN_of_isFinite hs, le_rfl⟩
  exact add_le_of_le_of_le hs hs hself (growth_le hfactor h)

theorem abs_value_le {s : ScaleFactor} (hσ : σ.mode = .divisive s) (rs : List TimingRecord) :
    (σ.value rs q).abs ≤ (σ.value rs p).abs := by
  have hpos := zero_lt_size (hfactor p.1.type) h.isFinite_count.1 s
  rw [value_eq_div hσ, value_eq_div hσ]
  exact abs_div_le_abs_div h.isFinite.1 h.isFinite.2 (by rw [h.toRat_eq]) hpos
    (size_le hfactor h s)

end Repeated

/-! ### The records of a log -/

/-- Before lifting, a query has its corrected latency. -/
theorem latency_unlifted {σ : Scheme} {p : TimingRecord × ℕ} (h : σ.IsAnalytical p.1.type) :
    (σ.unlifted p).latency = σ.rescaled p :=
  if_pos h

/-- After it, it has its value. -/
theorem latency_normalized_of_isAnalytical {σ : Scheme} {rs : List TimingRecord}
    {p : TimingRecord × ℕ} (h : σ.IsAnalytical p.1.type) :
    (σ.normalized rs p).latency = σ.value rs p :=
  if_pos h

section Log

variable (σ : Scheme) (log : TimingLog) (i : ℕ)

/-- A record with its count, if there is one at this place. -/
theorem getElem?_counted :
    (σ.counted log.records)[i]? =
      log.records[i]?.map fun r => (r, σ.newOrdersThrough log.records i) :=
  List.getElem?_mapIdx

theorem getElem?_records_normalize :
    (log.normalize σ.table σ.mode σ.newOrderId).records[i]? =
      (σ.counted log.records)[i]?.map (σ.normalized log.records) := by
  rw [records_normalize, List.getElem?_map]

theorem getElem?_annotate :
    (annotate σ.table σ.mode σ.newOrderId 0 log.records)[i]? =
      (σ.counted log.records)[i]?.map σ.unlifted := by
  rw [annotate_eq_map, List.getElem?_map]

variable {log i} {j : ℕ} {r r' : NormalizedRecord}

/-- **A repeated query** of the normalized log is one of the log, with counts that the walk has
found. -/
theorem exists_isRepeated (hlatency : ∀ r ∈ log.records, r.latency.isFinite = true)
    (hcount : log.countOf σ.newOrderId < 2 ^ 64)
    (h : (log.normalize σ.table σ.mode σ.newOrderId).Repeats i j r r') :
    ∃ p q, σ.IsRepeated p q ∧
      (σ.counted log.records)[i]? = some p ∧ (σ.counted log.records)[j]? = some q ∧
      r = σ.normalized log.records p ∧ r' = σ.normalized log.records q := by
  have hfirst := h.first_eq
  have hsecond := h.second_eq
  rw [getElem?_records_normalize, Option.map_eq_some_iff] at hfirst hsecond
  obtain ⟨p, hp, rfl⟩ := hfirst
  obtain ⟨q, hq, rfl⟩ := hsecond
  refine ⟨p, q, ?_, hp, hq, rfl, rfl⟩
  rw [getElem?_counted, Option.map_eq_some_iff] at hp hq
  obtain ⟨t, ht, rfl⟩ := hp
  obtain ⟨t', ht', rfl⟩ := hq
  have hpfin := hlatency t (List.mem_of_getElem? ht)
  have hqfin := hlatency t' (List.mem_of_getElem? ht')
  have hfinite (k : ℕ) : (σ.newOrdersThrough log.records k).toFloat.isFinite = true :=
    isFinite_toFloat_of_lt ((List.take_sublist (k + 1) log.records).countP_le.trans_lt hcount)
  exact {
    type_eq := h.type_eq
    isAnalytical := of_decide_eq_true h.analytical
    isFinite := ⟨hpfin, hqfin⟩
    toRat_eq := (beq_iff_toRat (isNaN_of_isFinite hqfin) (isNaN_of_isFinite hpfin)).mp
      h.latency_beq
    le := newOrdersThrough_le σ log.records h.lt.le
    isFinite_count := ⟨hfinite i, hfinite j⟩ }

end Log

end Scheme

/-- **Normalization corrects later executions at least as strongly**, with every table that the
library makes and in every mode. -/
theorem TimingLog.correctsLaterMore_normalize (log : TimingLog) {table : FactorTable}
    (htable : table.IsMade) (mode : NormalizationMode) (newOrderId : TransactionType)
    (hlatency : ∀ r ∈ log.records, r.latency.isFinite = true)
    (hcount : log.countOf newOrderId < 2 ^ 64) :
    (log.normalize table mode newOrderId).CorrectsLaterMore
      (annotate table mode newOrderId 0 log.records) := by
  set σ : Scheme := ⟨table, mode, newOrderId⟩
  have hfactor := Scheme.isFactor_factor (σ := σ) htable.isFactor
  refine ⟨fun hσ i j r r' h u u' hu hu' => ?unlifted, fun hσ i j r r' h => ?lifted,
    fun s hσ i j r r' h => ?divided⟩ <;>
    obtain ⟨p, q, hpq, hp, hq, rfl, rfl⟩ := σ.exists_isRepeated hlatency hcount h
  case unlifted =>
    have hannotate := σ.getElem?_annotate log
    rw [hannotate i, hp, Option.map_some, Option.some_inj] at hu
    rw [hannotate j, hq, Option.map_some, Option.some_inj] at hu'
    subst hu hu'
    rw [gt_iff_lt, Scheme.latency_unlifted hpq.isAnalytical,
      Scheme.latency_unlifted hpq.isAnalytical_later]
    exact not_lt_of_le (Scheme.rescaled_le hfactor hpq hσ)
  case lifted =>
    rw [gt_iff_lt, Scheme.latency_normalized_of_isAnalytical hpq.isAnalytical,
      Scheme.latency_normalized_of_isAnalytical hpq.isAnalytical_later]
    exact Scheme.not_value_lt (Scheme.rescaled_le hfactor hpq hσ)
  case divided =>
    rw [Scheme.latency_normalized_of_isAnalytical hpq.isAnalytical,
      Scheme.latency_normalized_of_isAnalytical hpq.isAnalytical_later]
    exact Scheme.abs_value_le hfactor hpq hσ log.records

/-- A query that takes as long after a NewOrder as before it. -/
def repeatedLog : TimingLog :=
  ⟨[⟨7, 0.0, 1.0, "a", 0⟩, ⟨2, 0.5, 0.1, "b", 0⟩, ⟨7, 1.0, 1.0, "c", 1⟩]⟩

/-- The query that is repeated falls below zero and is lifted back to it, and the first one is
lifted as far. -/
theorem TimingLog.correctsLaterMore_repeatedLog :
    (⟨⟨7, 7⟩, [2.0]⟩ : FactorTable).IsMade ∧
      (∀ r ∈ repeatedLog.records, r.latency.isFinite = true) ∧
      repeatedLog.countOf 2 < 2 ^ 64 ∧
      (∃ r r', (repeatedLog.normalize ⟨⟨7, 7⟩, [2.0]⟩ .subtractive 2).Repeats 0 2 r r' ∧
        r.latency = 2.0 ∧ r'.latency = 0.0) ∧
      (repeatedLog.normalize ⟨⟨7, 7⟩, [2.0]⟩ .subtractive 2).CorrectsLaterMore
        (annotate ⟨⟨7, 7⟩, [2.0]⟩ .subtractive 2 0 repeatedLog.records) := by
  have hfactor : ∀ x ∈ [(2.0 : Float)], FactorTable.isFactor x = true := by decide +kernel
  have htable : (⟨⟨7, 7⟩, [2.0]⟩ : FactorTable).IsMade :=
    .resolve (FactorTable.resolve_sequence rfl hfactor)
  have hlatency : ∀ r ∈ repeatedLog.records, r.latency.isFinite = true := by decide +kernel
  have hcount : repeatedLog.countOf 2 < 2 ^ 64 := by decide +kernel
  have hrecords := Scheme.getElem?_records_normalize ⟨⟨⟨7, 7⟩, [2.0]⟩, .subtractive, 2⟩ repeatedLog
  exact ⟨htable, hlatency, hcount,
    ⟨_, _, ⟨by decide, hrecords 0, hrecords 2, rfl, rfl, by decide +kernel⟩, by decide +kernel,
      by decide +kernel⟩,
    repeatedLog.correctsLaterMore_normalize htable .subtractive 2 hlatency hcount⟩

end MixedWorkload

import MixedWorkload.Proofs.Division
import MixedWorkload.Proofs.Metrics

/-!
# NewOrders per minute

Transactional throughput is about two numbers only, the NewOrders of a log and its duration, and
both can be asked of the log itself. The library takes them from the normalized log instead,
with folds of its own, so `MixedWorkload.TimingLog.hasRate_throughput` has to say that this comes
to the same: normalization leaves types and starts alone, and a span is no duration only where
neither of them is divided by.

Starts may be anything here, infinite or no numbers at all. A span that is no number, or not
positive, makes the throughput zero; an infinite one divides the NewOrders down to zero. So the
throughput is a number in any case and never negative, and for the same reason it does not matter
in which order the records stand.
-/

namespace MixedWorkload

open Binary64

/-- NewOrders per minute in a run of a given duration, zero without a positive one. -/
def perMinute (newOrders : ℕ) (duration : Float) : Float :=
  if 0.0 < duration then newOrders.toFloat / duration * 60.0 else 0.0

/-- Durations serve as well as each other if they are equal, or neither is positive. -/
theorem perMinute_congr (newOrders : ℕ) {x y : Float} (h : x = y ∨ ¬0.0 < x ∧ ¬0.0 < y) :
    perMinute newOrders x = perMinute newOrders y := by
  rcases h with rfl | ⟨hx, hy⟩
  · rfl
  · rw [perMinute, perMinute, if_neg hx, if_neg hy]

/-- **A rate is not negative**, and a number for that matter. -/
theorem zero_le_perMinute {newOrders : ℕ} (h : newOrders.toFloat.isFinite = true)
    (duration : Float) : 0.0 ≤ perMinute newOrders duration := by
  rw [perMinute]
  split
  · next hpos =>
    have hcount : 0.0 ≤ newOrders.toFloat :=
      zero_le_of_toRat (isNaN_of_isFinite h)
        ((rounds_toFloat newOrders).toRat_nonneg (Nat.cast_nonneg newOrders))
    have hquotient := zero_le_div h hpos hcount
    -- the quotient of a small duration may be infinite, and sixty times as much is as well
    rcases isFinite_or_isInf (le_iff.mp hquotient).2.1 with hfinite | hinf
    · have hsixty : (60.0 : Float).isFinite = true ∧ (0.0 : Float) ≤ 60.0 := by decide +kernel
      have hproduct := rounds_mul hfinite hsixty.1
      refine zero_le_of_toRat hproduct.isNaN (hproduct.toRat_nonneg ?_)
      exact mul_nonneg (toRat_nonneg hquotient) (toRat_nonneg hsixty.2)
    · rcases eq_infinity_or hinf with hinfinity | hinfinity
      · rw [hinfinity]
        decide +kernel
      · rw [hinfinity] at hquotient
        exact absurd hquotient (by decide +kernel)
  · decide +kernel

/-- **The order of the starts does not matter** to a span that is divided by. -/
theorem span_of_perm {xs ys : List Float} (h : xs.Perm ys) :
    span xs = span ys ∨ ¬0.0 < span xs ∧ ¬0.0 < span ys := by
  rcases sub_congr (isNaN_greatest xs) (isNaN_greatest ys) (isNaN_least xs) (isNaN_least ys)
    (units_greatest_of_perm h) (units_least_of_perm h) with hspan | ⟨hx, hy⟩
  · exact Or.inl hspan
  · exact Or.inr ⟨not_zero_lt_of_units hx, not_zero_lt_of_units hy⟩

namespace TimingLog

variable (log : TimingLog) (table : FactorTable) (mode : NormalizationMode)
  (newOrderId : TransactionType)

/-- The duration is the span of the starts, wherever there is one. -/
theorem span_starts_or :
    span log.starts = log.duration ∨ ¬0.0 < span log.starts ∧ ¬0.0 < log.duration := by
  rw [duration]
  split
  · next hempty =>
    have hnil : log.starts = [] := by
      rw [starts, List.isEmpty_iff.mp hempty, List.map_nil]
    rw [hnil]
    exact Or.inr (by decide +kernel)
  · exact Or.inl rfl

/-- **The throughput of a normalized log** is the rate of its NewOrders. -/
theorem throughput_normalize :
    (log.normalize table mode newOrderId).throughput =
      perMinute (log.countOf newOrderId) log.duration := by
  calc (log.normalize table mode newOrderId).throughput
      = perMinute (log.countOf newOrderId) (Scheme.duration log.records) :=
        Scheme.throughput_normalize ⟨table, mode, newOrderId⟩ log
    _ = perMinute (log.countOf newOrderId) (span log.starts) :=
        (perMinute_congr _ (span_starts log.records)).symm
    _ = perMinute (log.countOf newOrderId) log.duration :=
        perMinute_congr _ log.span_starts_or

/-- **A rate of NewOrders** of a log. -/
structure HasRate (x : Float) : Prop where
  /-- It is their number divided by the duration of the log, sixty times, if that is positive, -/
  eq_of_pos : 0.0 < log.duration →
    x = (log.countOf newOrderId).toFloat / log.duration * 60.0
  /-- and zero otherwise. -/
  eq_zero : ¬0.0 < log.duration → x = 0.0
  /-- It is a number. -/
  isNumber : x.isNaN = false
  /-- It is not negative. -/
  zero_le : 0.0 ≤ x

/-- What throughput looks at in a record. -/
def typeAndStart (r : TimingRecord) : TransactionType × Float :=
  (r.type, r.start)

/-- **Throughput sees types and starts only**, and not their order. -/
theorem throughput_of_perm {log log' : TimingLog}
    (h : (log.records.map typeAndStart).Perm (log'.records.map typeAndStart))
    (table table' : FactorTable) (mode mode' : NormalizationMode) :
    (log.normalize table mode newOrderId).throughput =
      (log'.normalize table' mode' newOrderId).throughput := by
  have hcount : log.countOf newOrderId = log'.countOf newOrderId := by
    simpa [countOf, typeAndStart, List.countP_map, Function.comp_def] using
      h.countP_eq fun p => p.1 == newOrderId
  have hstarts : log.starts.Perm log'.starts := by
    simpa [starts, typeAndStart, Function.comp_def] using h.map Prod.snd
  have hspan (log : TimingLog) : perMinute (log'.countOf newOrderId) log.duration =
      perMinute (log'.countOf newOrderId) (span log.starts) :=
    (perMinute_congr _ log.span_starts_or).symm
  rw [throughput_normalize, throughput_normalize, hcount, hspan log, hspan log']
  exact perMinute_congr _ (span_of_perm hstarts)

/-- **Throughput is a rate of NewOrders**, whatever the factors and the mode, and the same for
all logs with these types and starts, in any order. -/
theorem hasRate_throughput (hcount : log.countOf newOrderId < 2 ^ 64) :
    log.HasRate newOrderId (log.normalize table mode newOrderId).throughput ∧
      ∀ log' : TimingLog, (log.records.map typeAndStart).Perm (log'.records.map typeAndStart) →
        ∀ table' mode', (log'.normalize table' mode' newOrderId).throughput =
          (log.normalize table mode newOrderId).throughput := by
  refine ⟨?_, fun log' h table' mode' => (throughput_of_perm newOrderId h _ _ _ _).symm⟩
  have hnonneg := zero_le_perMinute (isFinite_toFloat_of_lt hcount) log.duration
  rw [throughput_normalize]
  exact {
    eq_of_pos := fun hpos => if_pos hpos
    eq_zero := fun hnot => if_neg hnot
    isNumber := (le_iff.mp hnonneg).2.1
    zero_le := hnonneg }

/-- Three NewOrders within half a minute, one of which started at no known time, and a query. -/
def undatedLog : TimingLog :=
  ⟨[⟨2, 30.0, 0.1, "a", 0⟩, ⟨2, 0.0 / 0.0, 0.1, "a", 0⟩, ⟨7, 15.0, 1.0, "b", 0⟩,
    ⟨2, 0.0, 0.1, "b", 1⟩]⟩

/-- The same starts in another order, with other latencies and workers. -/
def redatedLog : TimingLog :=
  ⟨[⟨2, 0.0, 0.5, "c", 0⟩, ⟨2, 30.0, 0.5, "c", 0⟩, ⟨2, 0.0 / 0.0, -0.5, "c", 2⟩,
    ⟨7, 15.0, 0.0, "c", 0⟩]⟩

/-- The undated log has a throughput of six NewOrders per minute, in either order. -/
theorem hasRate_undatedLog :
    undatedLog.countOf 2 < 2 ^ 64 ∧
      undatedLog.HasRate 2 (undatedLog.normalize .reference .subtractive 2).throughput ∧
      0.0 < undatedLog.duration ∧
      (undatedLog.normalize .reference .subtractive 2).throughput = 6.0 ∧
      (redatedLog.normalize .reference .subtractive 2).throughput = 6.0 := by
  have hcount : undatedLog.countOf 2 < 2 ^ 64 := by decide +kernel
  have hpos : 0.0 < undatedLog.duration := by decide +kernel
  have hrate : (undatedLog.countOf 2).toFloat / undatedLog.duration * 60.0 = 6.0 := by
    decide +kernel
  have hperm : (undatedLog.records.map typeAndStart).Perm
      (redatedLog.records.map typeAndStart) := by decide +kernel
  obtain ⟨hlog, hsame⟩ := undatedLog.hasRate_throughput .reference .subtractive 2 hcount
  have hsix := (hlog.eq_of_pos hpos).trans hrate
  exact ⟨hcount, hlog, hpos, hsix, (hsame redatedLog hperm _ _).trans hsix⟩

end TimingLog

end MixedWorkload

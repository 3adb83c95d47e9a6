import MixedWorkload.Proofs.Binary64.Gaps
import MixedWorkload.Proofs.Binning

/-!
# The edges of bins

A point of the series announces the edge in front of its bin, a product of the width that is
rounded, while a start gets the number of its bin from a quotient that is rounded. So the two
need not agree: a start may be counted in a bin although it lies outside the interval between
the two edges (`MixedWorkload.NormalizedLog.exists_not_inBin`). How far outside is the subject of
this file (`MixedWorkload.NormalizedLog.AnnouncesBins`).

* A start is never behind the next edge, and if it is in front of its own edge, there is no
  double between the two. Both come from comparing the exact products: a start that reaches the
  exact product reaches the bin (`MixedWorkload.le_binIndex`), and one that a double separates
  from the exact product does not (`MixedWorkload.binIndex_lt`).
* If the products need no rounding, the interval is the announced one, with the edge itself and
  without the next. That is so for every width that is a whole number of seconds, up to some
  hundreds of years.
-/

namespace MixedWorkload

open Binary64

/-- **The edge in front of a bin**, as it is announced. -/
def binEdge (width : Float) (k : ℕ) : Float :=
  k.toFloat * width

/-- A start is in the interval between two edges. -/
def InBin (width : Float) (i : ℕ) (s : Float) : Prop :=
  binEdge width i ≤ s ∧ s < binEdge width (i + 1)

instance (width : Float) (i : ℕ) (s : Float) : Decidable (InBin width i s) :=
  inferInstanceAs (Decidable (_ ∧ _))

/-- One double comes right after another. -/
def IsNext (s t : Float) : Prop :=
  s < t ∧ ∀ x, s < x → t ≤ x

/-- A start is in the interval between two edges, or on the second, or right in front of the
first. -/
def NearBin (width : Float) (i : ℕ) (s : Float) : Prop :=
  (binEdge width i ≤ s ∨ IsNext s (binEdge width i)) ∧ s ≤ binEdge width (i + 1)

namespace NormalizedLog

variable (log : NormalizedLog)

/-- **Bins cover what they announce**, if there are as many as given. -/
structure CoversBins (width : Float) (bins : ℕ) : Prop where
  /-- A start is in the interval of its bin. -/
  inBin : ∀ r ∈ log.newOrders, 0.0 ≤ r.record.start →
    InBin width (binIndex width r.record.startInLog) r.record.start
  /-- The NewOrders in a bin are those that start in its interval. -/
  newOrdersIn_eq : ∀ i < bins, log.newOrdersIn width i =
    log.newOrders.countP fun r => InBin width i r.record.startInLog

/-- **Where the bins are**, by the edges that are announced. -/
structure AnnouncesBins (width : Float) : Prop where
  /-- Every point announces the edge of a bin and has the NewOrders in it. -/
  point_eq : ∀ points, log.throughputSeries width = .ok points →
    ∀ i (hi : i < points.length),
      points[i] = ⟨binEdge width i, (log.newOrdersIn width i).toFloat / width⟩
  /-- A start is near the interval of its bin. -/
  nearBin : ∀ points, log.throughputSeries width = .ok points →
    ∀ r ∈ log.newOrders, 0.0 ≤ r.record.start →
      binIndex width r.record.startInLog < points.length ∧
        NearBin width (binIndex width r.record.startInLog) r.record.start
  /-- Bins cover what they announce if no edge is rounded. -/
  covers_of_exact : ∀ points, log.throughputSeries width = .ok points →
    (∀ k ≤ points.length, toRat (binEdge width k) = k * toRat width) →
      log.CoversBins width points.length
  /-- And so they do for a width of whole seconds. -/
  covers_of_whole : ∀ points (seconds : ℕ), log.throughputSeries width = .ok points →
    width = seconds.toFloat → seconds < 2 ^ 33 → log.CoversBins width points.length

end NormalizedLog

/-! ### A start and the edges of its bin -/

section Edge

variable {width start : Float} {i j k : ℕ}

variable (hfinite : width.isFinite = true)

include hfinite

/-- **An edge** is the rounded product. -/
theorem rounds_binEdge (hk : k < 2 ^ 53) : Rounds (binEdge width k) (k * toRat width) := by
  have hvalue := (rounds_toFloat k).toRat_natCast hk
  have hproduct := rounds_mul hvalue.1 hfinite
  rwa [hvalue.2] at hproduct

variable (hpos : 0.0 < width)

include hpos

/-- Edges are in order. -/
theorem binEdge_le (hj : j < 2 ^ 53) (h : i ≤ j) : binEdge width i ≤ binEdge width j := by
  refine (rounds_binEdge hfinite (h.trans_lt hj)).le (rounds_binEdge hfinite hj) ?_
  exact mul_le_mul_of_nonneg_right (Nat.cast_le.mpr h) (toRat_pos hpos).le

/-- **A start is in one interval** at most. -/
theorem InBin.eq (hi : i < 2 ^ 53) (hj : j < 2 ^ 53) (h : InBin width i start)
    (h' : InBin width j start) : i = j := by
  have hle {i j : ℕ} (hi : i < 2 ^ 53) (h : InBin width i start) (h' : InBin width j start) :
      i ≤ j := by
    by_contra hlt
    have hedges := binEdge_le hfinite hpos hi (Nat.lt_of_not_le hlt)
    exact not_lt_of_le h.1 (less_of_less_of_le h'.2 hedges)
  exact le_antisymm (hle hi h h') (hle hj h' h)

variable (hstart : 0.0 ≤ start) (hsfinite : start.isFinite = true)

include hstart hsfinite

/-- **A start that reaches the exact product** reaches the bin. -/
theorem le_binIndex (hk : k < 2 ^ 53) (h : k * toRat width ≤ toRat start) :
    k ≤ binIndex width start := by
  have hquotient := (rounds_div_width hfinite hpos hstart hsfinite).1
  rw [← le_div_iff₀ (toRat_pos hpos)] at h
  have hle := (rounds_toFloat k).toRat_le hquotient h
  rw [toRat_toFloat hk] at hle
  exact Nat.le_floor hle

/-- **A start that a double separates from the exact product** does not. -/
theorem binIndex_lt {x : Float} (hlt : start < x) (h : toRat x ≤ k * toRat width) :
    binIndex width start < k := by
  obtain ⟨hquotient, hnonneg⟩ := rounds_div_width hfinite hpos hstart hsfinite
  have hwidth := toRat_pos hpos
  have hgap := toRat_mul_lt (toRat_nonneg hstart)
    ((lt_iff_toRat (lt_iff.mp hlt).1 (lt_iff.mp hlt).2.1).mp hlt)
  rw [binIndex, Nat.floor_lt hnonneg]
  refine hquotient.toRat_lt_natCast (div_nonneg (toRat_nonneg hstart) hwidth.le) ?_
  rw [div_mul_eq_mul_div, div_lt_iff₀ hwidth]
  exact hgap.trans_le h

/-- **The bin of a start** is near it. -/
theorem nearBin_binIndex (h : binIndex width start + 1 < 2 ^ 53) :
    NearBin width (binIndex width start) start := by
  have hnumber := isNaN_of_isFinite hsfinite
  have hlow := rounds_binEdge hfinite (Nat.lt_of_succ_lt h)
  have hhigh := rounds_binEdge hfinite h
  constructor
  · by_contra hnot
    rw [not_or] at hnot
    have hlt := (not_le hlow.isNaN hnumber).mp hnot.1
    have hnext : ¬∀ x, start < x → binEdge width (binIndex width start) ≤ x :=
      fun hall => hnot.2 ⟨hlt, hall⟩
    push Not at hnext
    obtain ⟨x, hx, hedge⟩ := hnext
    have hxnumber := (lt_iff.mp hx).2.1
    -- the edge would not be behind `x` if the exact product were not
    have hexact : toRat x ≤ binIndex width start * toRat width := by
      by_contra hgt
      exact hedge (hlow.le (rounds_toRat hxnumber) (le_of_not_ge hgt))
    exact absurd (binIndex_lt hfinite hpos hstart hsfinite hx hexact) (lt_irrefl _)
  · by_contra hnot
    have hexact : ((binIndex width start + 1 : ℕ) : ℚ) * toRat width ≤ toRat start := by
      by_contra hgt
      exact hnot ((rounds_toRat hnumber).le hhigh (le_of_not_ge hgt))
    exact absurd (le_binIndex hfinite hpos hstart hsfinite h hexact) (Nat.not_succ_le_self _)

/-- **Between two edges that are not rounded** is what is in the bin. -/
theorem inBin_binIndex (h : binIndex width start + 1 < 2 ^ 53)
    (hexact : ∀ k ≤ binIndex width start + 1, toRat (binEdge width k) = k * toRat width) :
    InBin width (binIndex width start) start := by
  have hnumber := isNaN_of_isFinite hsfinite
  have hlow := rounds_binEdge hfinite (Nat.lt_of_succ_lt h)
  have hhigh := rounds_binEdge hfinite h
  constructor
  · by_contra hnot
    have hlt := (not_le hlow.isNaN hnumber).mp hnot
    exact absurd (binIndex_lt hfinite hpos hstart hsfinite hlt (hexact _ (Nat.le_succ _)).le)
      (lt_irrefl _)
  · by_contra hnot
    have hle := (not_lt hnumber hhigh.isNaN).mp hnot
    rw [le_iff_toRat hhigh.isNaN hnumber, hexact _ le_rfl] at hle
    exact absurd (le_binIndex hfinite hpos hstart hsfinite h hle) (Nat.not_succ_le_self _)

end Edge

/-- **The edges of bins of whole seconds** are not rounded. -/
theorem toRat_binEdge_toFloat {seconds k : ℕ} (hseconds : seconds < 2 ^ 33) (hk : k ≤ maxBins) :
    toRat (binEdge seconds.toFloat k) = k * toRat seconds.toFloat := by
  have hwidth := (rounds_toFloat seconds).toRat_natCast (hseconds.trans (by norm_num))
  have hedge := rounds_binEdge hwidth.1 (hk.trans_lt (by decide))
  have hproduct : k * seconds < 2 ^ 53 :=
    calc k * seconds ≤ maxBins * 2 ^ 33 := Nat.mul_le_mul hk hseconds.le
      _ < 2 ^ 53 := by decide
  rw [hwidth.2, ← Nat.cast_mul] at hedge ⊢
  exact (hedge.toRat_natCast hproduct).2

/-- The standard width is one of whole seconds. -/
example : Config.standard.binWidth = (5 : ℕ).toFloat := by decide +kernel

/-! ### The starts of a log -/

/-- **A start that is not before the log** is as great as it is counted, be it a negative zero. -/
theorem TimingRecord.startInLog_compare {r : TimingRecord} (h : 0.0 ≤ r.start) (x : Float) :
    (r.startInLog ≤ x ↔ r.start ≤ x) ∧ (x ≤ r.startInLog ↔ x ≤ r.start) ∧
      (r.startInLog < x ↔ r.start < x) := by
  unfold startInLog
  split
  · exact ⟨Iff.rfl, Iff.rfl, Iff.rfl⟩
  · next hnot =>
    obtain ⟨-, hnumber, hlow⟩ := le_iff.mp h
    have hhigh := (le_iff.mp ((not_lt rfl hnumber).mp hnot)).2.2
    have hunits : units 0.0 = units r.start := le_antisymm hlow hhigh
    have hzero : (0.0 : Float).isNaN = r.start.isNaN := hnumber.symm
    simp only [le_iff, lt_iff, hunits, hzero, and_self]

theorem inBin_startInLog_iff {r : TimingRecord} (h : 0.0 ≤ r.start) {width : Float} {i : ℕ} :
    InBin width i r.startInLog ↔ InBin width i r.start :=
  and_congr (TimingRecord.startInLog_compare h _).2.1 (TimingRecord.startInLog_compare h _).2.2

theorem nearBin_startInLog_iff {r : TimingRecord} (h : 0.0 ≤ r.start) {width : Float} {i : ℕ} :
    NearBin width i r.startInLog ↔ NearBin width i r.start := by
  refine and_congr (or_congr (TimingRecord.startInLog_compare h _).2.1 ?_)
    (TimingRecord.startInLog_compare h _).1
  exact and_congr (TimingRecord.startInLog_compare h _).2.2
    (forall_congr' fun x => imp_congr_left (TimingRecord.startInLog_compare h x).2.2)

/-! ### The series of a log -/

namespace NormalizedLog

variable {log : NormalizedLog} {width : Float} {points : List ThroughputPoint}

/-- **The bins of a series**, where there is one. -/
structure HasBins (log : NormalizedLog) (width : Float) (points : List ThroughputPoint) : Prop where
  /-- The width is finite. -/
  isFinite_width : width.isFinite = true
  /-- It is positive. -/
  width_pos : 0.0 < width
  /-- There are not too many bins. -/
  length_le : points.length ≤ maxBins
  /-- Each has the NewOrders with its number. -/
  getElem_eq : ∀ i (hi : i < points.length),
    points[i] = ⟨binEdge width i, (log.newOrdersIn width i).toFloat / width⟩
  /-- Every NewOrder is in one of them. -/
  start : ∀ r ∈ log.newOrders, r.record.startInLog.isFinite = true ∧
    0.0 ≤ r.record.startInLog ∧ binIndex width r.record.startInLog < points.length

theorem hasBins (h : log.throughputSeries width = .ok points) : log.HasBins width points := by
  have hwidth : Config.isPositive width = true := by
    by_contra hnot
    rw [throughputSeries_eq_error (Bool.eq_false_of_not_eq_true hnot)] at h
    cases h
  obtain ⟨hfinite, hpos⟩ := Config.isPositive_iff.mp hwidth
  by_cases hne : log.newOrders = []
  · rw [throughputSeries_eq_nil hwidth hne, Except.ok.injEq] at h
    subst h
    exact ⟨hfinite, hpos, Nat.zero_le _, nofun, by rw [hne]; exact List.forall_mem_nil _⟩
  · obtain ⟨last, hlast, hseries⟩ := exists_throughputSeries hfinite hpos hne
    rw [hseries] at h
    split at h
    · next hfits =>
      obtain rfl := Except.ok.inj h
      have hlength : (log.seriesTo width last).length = binIndex width last + 1 := by
        rw [seriesTo, List.length_map, List.length_range]
      refine ⟨hfinite, hpos, hlength ▸ hfits.2, fun i hi => ?_, fun r hr => ?_⟩
      · simp only [seriesTo, List.getElem_map, List.getElem_range, binEdge]
      · have hmem : r.record.startInLog ∈ log.startsInLog := List.mem_map_of_mem hr
        have hstart := log.zero_le_of_mem_startsInLog hmem
        have hle := hlast.le _ hmem
        refine ⟨isFinite_of_le hstart hle (isFinite_of_div hfits.1).1, hstart, ?_⟩
        rw [hlength]
        exact Nat.lt_succ_of_le (binOf_of_mem hfinite hpos hlast hfits hmem).2
    · cases h

/-- So few bins have their numbers among the doubles. -/
theorem HasBins.lt (h : log.HasBins width points) {i : ℕ} (hi : i ≤ points.length) : i < 2 ^ 53 :=
  hi.trans_lt (h.length_le.trans_lt (by decide))

/-- **A start is near the interval of its bin.** -/
theorem HasBins.nearBin (h : log.HasBins width points) {r : NormalizedRecord}
    (hr : r ∈ log.newOrders) (hstart : 0.0 ≤ r.record.start) :
    binIndex width r.record.startInLog < points.length ∧
      NearBin width (binIndex width r.record.startInLog) r.record.start := by
  obtain ⟨hsfinite, hnonneg, hindex⟩ := h.start r hr
  refine ⟨hindex, (nearBin_startInLog_iff hstart).mp ?_⟩
  exact nearBin_binIndex h.isFinite_width h.width_pos hnonneg hsfinite
    (h.lt (Nat.succ_le_of_lt hindex))

/-- **Bins cover what they announce** if no edge is rounded. -/
theorem HasBins.coversBins (h : log.HasBins width points)
    (hexact : ∀ k ≤ points.length, toRat (binEdge width k) = k * toRat width) :
    log.CoversBins width points.length := by
  have hin : ∀ r ∈ log.newOrders,
      InBin width (binIndex width r.record.startInLog) r.record.startInLog := by
    intro r hr
    obtain ⟨hsfinite, hnonneg, hindex⟩ := h.start r hr
    exact inBin_binIndex h.isFinite_width h.width_pos hnonneg hsfinite
      (h.lt (Nat.succ_le_of_lt hindex)) fun k hk => hexact k (hk.trans (Nat.succ_le_of_lt hindex))
  constructor
  · intro r hr hstart
    exact (inBin_startInLog_iff hstart).mp (hin r hr)
  · intro i hi
    refine List.countP_congr fun r hr => ?_
    rw [beq_iff_eq, decide_eq_true_eq]
    constructor
    · rintro rfl
      exact hin r hr
    · intro hi'
      exact (hin r hr).eq h.isFinite_width h.width_pos (h.lt (h.start r hr).2.2.le) (h.lt hi.le) hi'

/-- **Where the bins are**, for every log and every width. -/
theorem announcesBins (log : NormalizedLog) (width : Float) : log.AnnouncesBins width where
  point_eq points h := (hasBins h).getElem_eq
  nearBin points h r hr hstart := (hasBins h).nearBin hr hstart
  covers_of_exact points h hexact := (hasBins h).coversBins hexact
  covers_of_whole points seconds h hwidth hseconds := by
    subst hwidth
    exact (hasBins h).coversBins fun k hk =>
      toRat_binEdge_toFloat hseconds (hk.trans (hasBins h).length_le)

/-- Three NewOrders and a query. -/
def edgeLog : NormalizedLog :=
  TimingLog.normalize ⟨[⟨2, 3.9, 0.1, "a", 0⟩, ⟨2, 9.1, 0.1, "a", 0⟩, ⟨2, 10.0, 0.1, "a", 0⟩,
    ⟨7, 0.0, 1.0, "b", 0⟩]⟩ ⟨⟨7, 7⟩, [0.0]⟩ .subtractive 2

/-- **Starts outside the interval of their bin**: of the starts at 3.9, 9.1 and 10 seconds, the
first is counted in the bin with the number three and in the interval of the bin before, the
second in the one with the number six and in the interval of the bin behind. -/
theorem exists_not_inBin : ∃ points, edgeLog.throughputSeries 1.3 = .ok points ∧
    points.map ThroughputPoint.perSecond =
      [0.0, 0.0, 0.0, 1.0 / 1.3, 0.0, 0.0, 1.0 / 1.3, 1.0 / 1.3] ∧
    (List.range points.length).map (fun i =>
      edgeLog.newOrders.countP fun r => InBin 1.3 i r.record.start) = [0, 0, 1, 0, 0, 0, 0, 2] := by
  have hseries : (edgeLog.throughputSeries 1.3).toOption.map (List.map ThroughputPoint.perSecond) =
      some [0.0, 0.0, 0.0, 1.0 / 1.3, 0.0, 0.0, 1.0 / 1.3, 1.0 / 1.3] := by
    decide +kernel
  obtain ⟨points, hpoints, hrates⟩ := Option.map_eq_some_iff.mp hseries
  have hlength : points.length = 8 := by
    rw [← List.length_map ThroughputPoint.perSecond, hrates]
    rfl
  refine ⟨points, ?_, hrates, ?_⟩
  · cases hresult : edgeLog.throughputSeries 1.3 with
    | error e =>
      rw [hresult] at hpoints
      cases hpoints
    | ok points' =>
      rw [hresult] at hpoints
      rw [Option.some.inj hpoints]
  · rw [hlength]
    decide +kernel

end NormalizedLog

end MixedWorkload

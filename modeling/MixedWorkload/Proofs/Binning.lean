import MixedWorkload.Proofs.Binary64.Monotone
import MixedWorkload.Proofs.Binary64.Truncation
import MixedWorkload.Proofs.Configuration
import MixedWorkload.Proofs.Groups
import MixedWorkload.Throughput

/-!
# Throughput in bins

Throughput is counted in bins of one width, and no NewOrder is lost on the way or counted
twice. `MixedWorkload.NormalizedLog.IsBinned` lists this for a log and a width, whatever they
are: for which widths and starts there is a series at all, and that it then has a bin for each
number from zero to that of the last start, with the NewOrders of that number.

How many bins there are and which of them a start is in are computed on their own, each by a
quotient that is rounded and then cut off. The two agree because rounding and cutting off both
keep the order (`MixedWorkload.binOf_le`): a start that is not later than the last has a number
that is not greater, so no start has to be put back into the last bin, where counting would put
it if it lay behind.

| computed | exact | theorem |
|---|---|---|
| the bin of a start | `MixedWorkload.binIndex` | `MixedWorkload.binOf_le` |
| the number of bins | `MixedWorkload.LastFits` | `MixedWorkload.binCount?_eq_ite` |
| the starts in each bin | `List.countP` | `MixedWorkload.toList_countBins` |
-/

namespace MixedWorkload

open Binary64

/-- The start of a record, or zero if it is before the log or no number. -/
def TimingRecord.startInLog (r : TimingRecord) : Float :=
  if 0.0 < r.start then r.start else 0.0

/-- The number of the bin of a start: how many times the width fits into it, by the rounded
quotient. -/
def binIndex (width start : Float) : ℕ :=
  ⌊toRat (start / width)⌋₊

/-- There are not too many bins up to a last start. -/
def LastFits (width last : Float) : Prop :=
  (last / width).isFinite = true ∧ binIndex width last < maxBins

instance (width last : Float) : Decidable (LastFits width last) :=
  inferInstanceAs (Decidable (_ ∧ _))

namespace NormalizedLog

variable (log : NormalizedLog)

/-- The starts of the NewOrders. -/
def startsInLog : List Float :=
  log.newOrders.map fun r => r.record.startInLog

/-- The number of NewOrders in a bin. -/
def newOrdersIn (width : Float) (i : ℕ) : ℕ :=
  log.newOrders.countP fun r => binIndex width r.record.startInLog == i

/-- The series of the bins from zero to that of a last start, each with its NewOrders. -/
def seriesTo (width last : Float) : List ThroughputPoint :=
  (List.range (binIndex width last + 1)).map fun i =>
    ⟨i.toFloat * width, (log.newOrdersIn width i).toFloat / width⟩

/-- **The NewOrders up to a last start, counted in bins.** -/
structure IsCounted (width last : Float) : Prop where
  /-- There is a bin for each number up to that of the last start, with the NewOrders in it. -/
  series_eq : log.throughputSeries width = .ok (log.seriesTo width last)
  /-- All NewOrders are counted. -/
  sum_eq : ((List.range (binIndex width last + 1)).map (log.newOrdersIn width)).sum =
    log.newOrders.length
  /-- The last bin is not empty. -/
  one_le_last : 1 ≤ log.newOrdersIn width (binIndex width last)
  /-- The number of bins is computed to be one more than the number of the last. -/
  binCount_eq : binCount? width last = some (binIndex width last + 1)
  /-- Every start is computed to be in one of these bins, so that none has to be put back into
  the last of them. -/
  min_eq : ∀ bins, binCount? width last = some bins → 1 ≤ bins ∧ ∀ s ∈ log.startsInLog,
    binOf width s = binIndex width s ∧ binOf width s < bins ∧
      min (binOf width s) (bins - 1) = binOf width s

/-- **Binning loses nothing and counts nothing twice.** -/
structure IsBinned (width : Float) : Prop where
  /-- It fails for the width if and only if that is no positive finite number. -/
  config_iff : log.throughputSeries width = .error (.config (.binWidth width)) ↔
    width.isFinite = false ∨ width ≤ 0.0
  /-- For a positive width, the series is empty if and only if there is no NewOrder. -/
  nil_iff : width.isFinite = true → 0.0 < width →
    (log.throughputSeries width = .ok [] ↔ log.newOrders = [])
  /-- If there is one, there is a last start. The series is refused if and only if there would
  be too many bins up to it, and otherwise all NewOrders are counted. -/
  last : width.isFinite = true → 0.0 < width → log.newOrders ≠ [] →
    ∃ last, IsGreatestOf last log.startsInLog ∧
      (log.throughputSeries width = .error (.domain (.binCount last maxBins width)) ↔
        ¬LastFits width last) ∧
      (LastFits width last → log.IsCounted width last)

end NormalizedLog

/-! ### The bin of a start -/

section Bin

variable {width last start : Float} (hfinite : width.isFinite = true) (hpos : 0.0 < width)

include hfinite hpos

/-- The quotient of a finite start that is not negative. -/
theorem rounds_div_width (hstart : 0.0 ≤ start) (hsfinite : start.isFinite = true) :
    Rounds (start / width) (toRat start / toRat width) ∧ 0 ≤ toRat (start / width) := by
  have hwidth := toRat_pos hpos
  have hrounds := rounds_div hsfinite hfinite hwidth.ne'
  exact ⟨hrounds, hrounds.toRat_nonneg (div_nonneg (toRat_nonneg hstart) hwidth.le)⟩

/-- **An earlier start** has a quotient that is not greater, and finite if the other is. -/
theorem div_le_div_width (hstart : 0.0 ≤ start) (hle : start ≤ last)
    (hquotient : (last / width).isFinite = true) :
    (start / width).isFinite = true ∧ 0 ≤ toRat (start / width) ∧
      start / width ≤ last / width := by
  have hlast := (isFinite_of_div hquotient).1
  have hsfinite := isFinite_of_le hstart hle hlast
  have hwidth := toRat_pos hpos
  obtain ⟨hrounds, hnonneg⟩ := rounds_div_width hfinite hpos hstart hsfinite
  have hexact : toRat start / toRat width ≤ toRat last / toRat width :=
    div_le_div_of_nonneg_right ((le_iff_toRat (isNaN_of_isFinite hsfinite)
      (isNaN_of_isFinite hlast)).mp hle) hwidth.le
  have hquotients := hrounds.le (rounds_div hlast hfinite hwidth.ne') hexact
  exact ⟨isFinite_of_le (zero_le_of_toRat hrounds.isNaN hnonneg) hquotients hquotient, hnonneg,
    hquotients⟩

/-- **The computed bin** of a start is the exact one, and it does not lie behind that of a later
start, if this is not too late. -/
theorem binOf_le (hstart : 0.0 ≤ start) (hle : start ≤ last) (hfits : LastFits width last) :
    binOf width start = binIndex width start ∧ binIndex width start ≤ binIndex width last := by
  obtain ⟨hquotient, hbound⟩ := hfits
  obtain ⟨hsfinite, hnonneg, hquotients⟩ :=
    div_le_div_width hfinite hpos hstart hle hquotient
  have hindex : binIndex width start ≤ binIndex width last :=
    Nat.floor_le_floor ((le_iff_toRat (isNaN_of_isFinite hsfinite)
      (isNaN_of_isFinite hquotient)).mp hquotients)
  have hword : maxBins < 2 ^ 64 := by decide
  exact ⟨toNat_toUInt64 hsfinite hnonneg ((hindex.trans_lt hbound).trans hword), hindex⟩

/-- **The computed number of bins** is one more than the number of the last, if there are not too
many. -/
theorem binCount?_eq_ite (hlast : 0.0 ≤ last) :
    binCount? width last =
      if LastFits width last then some (binIndex width last + 1) else none := by
  have hlimit : toRat maxBins.toFloat = maxBins := toRat_toFloat (by decide)
  have hlimitn : maxBins.toFloat.isNaN = false := (rounds_toFloat maxBins).isNaN
  cases hquotient : (last / width).isFinite with
  | false =>
    have hnot : ¬LastFits width last := fun h => Bool.false_ne_true (hquotient.symm.trans h.1)
    rw [if_neg hnot, binCount?, hquotient]
    rfl
  | true =>
    have hnonneg := (rounds_div_width hfinite hpos hlast (isFinite_of_div hquotient).1).2
    have hlt : last / width < maxBins.toFloat ↔ binIndex width last < maxBins := by
      rw [lt_iff_toRat (isNaN_of_isFinite hquotient) hlimitn, hlimit, binIndex,
        Nat.floor_lt hnonneg]
    by_cases hfits : LastFits width last
    · have hle := (le_iff.mp hlast).2
      rw [if_pos hfits, binCount?, hquotient, decide_eq_true (hlt.mpr hfits.2),
        (binOf_le hfinite hpos hlast (le_iff.mpr ⟨hle.1, hle.1, le_rfl⟩) hfits).1]
      rfl
    · have hnot : ¬last / width < maxBins.toFloat :=
        fun h => hfits ⟨hquotient, hlt.mp h⟩
      rw [if_neg hfits, binCount?, hquotient, decide_eq_false hnot]
      rfl

end Bin

/-! ### Counting -/

/-- **Counting one at a time**: a list adds to each entry as many as it has members for it. -/
theorem getElem?_foldl_modify {α : Type*} (index : α → ℕ) (xs : List α) (counts : Array ℕ)
    (i : ℕ) :
    (xs.foldl (fun counts x => counts.modify (index x) (· + 1)) counts)[i]? =
      counts[i]?.map (· + xs.countP fun x => index x == i) := by
  induction xs generalizing counts with
  | nil => exact Option.map_id'.symm
  | cons x xs ih =>
    rw [List.foldl_cons, ih, Array.getElem?_modify, List.countP_cons]
    by_cases hx : index x = i
    · rw [if_pos hx, if_pos (beq_iff_eq.mpr hx), Option.map_map]
      refine congrFun (congrArg Option.map (funext fun n => ?_)) _
      exact Nat.add_right_comm n 1 _
    · rw [if_neg hx, if_neg (by rwa [beq_iff_eq]), Nat.add_zero]

/-- **The counts of the bins**, if every start is in one of them. -/
theorem toList_countBins {width : Float} {bins : ℕ} {starts : List Float}
    (h : ∀ s ∈ starts, binOf width s < bins) :
    (countBins width bins starts).toList =
      (List.range bins).map fun i => starts.countP fun s => binOf width s == i := by
  have hcount (i : ℕ) : (starts.countP fun s => min (binOf width s) (bins - 1) == i) =
      starts.countP fun s => binOf width s == i := by
    refine List.countP_congr fun s hs => ?_
    rw [Nat.min_eq_left (Nat.le_sub_one_of_lt (h s hs))]
  refine List.ext_getElem? fun i => ?_
  rw [Array.getElem?_toList, countBins, getElem?_foldl_modify, hcount, List.getElem?_map,
    Array.getElem?_replicate]
  by_cases hi : i < bins
  · rw [if_pos hi, List.getElem?_range hi]
    exact congrArg some (Nat.zero_add _)
  · rw [if_neg hi, List.getElem?_eq_none (by rw [List.length_range]; omega)]
    rfl

theorem mapIdx_map_range {α β : Type*} (f : ℕ → α) (g : ℕ → α → β) (n : ℕ) :
    ((List.range n).map f).mapIdx g = (List.range n).map fun i => g i (f i) := by
  refine List.ext_getElem (by simp only [List.length_mapIdx, List.length_map]) fun i _ _ => ?_
  rw [List.getElem_mapIdx, List.getElem_map, List.getElem_map, List.getElem_range]

/-! ### The starts of a log -/

namespace NormalizedLog

variable (log : NormalizedLog)

theorem newOrderStarts_eq : log.newOrderStarts = log.startsInLog := by
  refine List.map_congr_left fun r _ => ?_
  have hzero : (0.0 : Float).isNaN = false := rfl
  simp only [greater, TimingRecord.startInLog, hzero, Bool.false_or, decide_eq_true_eq]

/-- No start is before the log. -/
theorem zero_le_of_mem_startsInLog {s : Float} (h : s ∈ log.startsInLog) : 0.0 ≤ s := by
  obtain ⟨r, -, rfl⟩ := List.mem_map.mp h
  unfold TimingRecord.startInLog
  split
  · next hpos => exact le_of_less hpos
  · exact le_iff.mpr ⟨rfl, rfl, le_rfl⟩

theorem newOrdersIn_eq (width : Float) (i : ℕ) :
    log.newOrdersIn width i = log.startsInLog.countP fun s => binIndex width s == i := by
  rw [startsInLog, List.countP_map]
  rfl

/-- The greatest of the starts is the last. -/
theorem isGreatestOf_foldl {first : Float} {others : List Float}
    (h : log.startsInLog = first :: others) :
    IsGreatestOf (others.foldl greater first) log.startsInLog := by
  have hnumber : ∀ s ∈ log.startsInLog, s.isNaN = false :=
    fun s hs => (le_iff.mp (log.zero_le_of_mem_startsInLog hs)).2.1
  rw [h] at hnumber ⊢
  exact (isFirst_foldl measures_gt (hnumber first List.mem_cons_self) others).isGreatestOf hnumber

/-! ### The series -/

variable {log} {width : Float}

theorem isPositive_eq_false_iff :
    Config.isPositive width = false ↔ width.isFinite = false ∨ width ≤ 0.0 := by
  rw [Config.isPositive, Bool.and_eq_false_iff, Bool.not_eq_false', decide_eq_true_iff]

theorem throughputSeries_eq_error (h : Config.isPositive width = false) :
    log.throughputSeries width = .error (.config (.binWidth width)) := by
  rw [throughputSeries, h]
  rfl

/-- Without a NewOrder, the series is empty. -/
theorem throughputSeries_eq_nil (hwidth : Config.isPositive width = true)
    (h : log.newOrders = []) : log.throughputSeries width = .ok [] := by
  have hstarts : log.newOrderStarts = [] := by rw [newOrderStarts, h, List.map_nil]
  rw [throughputSeries, hwidth, hstarts]
  rfl

section Positive

variable (hfinite : width.isFinite = true) (hpos : 0.0 < width)

include hfinite hpos

theorem binOf_of_mem {last s : Float} (hlast : IsGreatestOf last log.startsInLog)
    (hfits : LastFits width last) (hs : s ∈ log.startsInLog) :
    binOf width s = binIndex width s ∧ binIndex width s ≤ binIndex width last :=
  binOf_le hfinite hpos (log.zero_le_of_mem_startsInLog hs) (hlast.le s hs) hfits

/-- **What is counted** is what is in the bins. -/
theorem mapIdx_countBins {last : Float} (hlast : IsGreatestOf last log.startsInLog)
    (hfits : LastFits width last) :
    (countBins width (binIndex width last + 1) log.startsInLog).toList.mapIdx
      (ThroughputPoint.ofCount width) = log.seriesTo width last := by
  have hlt : ∀ s ∈ log.startsInLog, binOf width s < binIndex width last + 1 := fun s hs => by
    obtain ⟨heq, hle⟩ := binOf_of_mem hfinite hpos hlast hfits hs
    rw [heq]
    exact Nat.lt_succ_of_le hle
  have hcount (i : ℕ) : (log.startsInLog.countP fun s => binOf width s == i) =
      log.newOrdersIn width i := by
    rw [newOrdersIn_eq]
    exact List.countP_congr fun s hs => by
      rw [(binOf_of_mem hfinite hpos hlast hfits hs).1]
  rw [toList_countBins hlt, mapIdx_map_range]
  simp only [hcount]
  rfl

/-- **The series of a log with a NewOrder**, for a positive width. -/
theorem exists_throughputSeries (hne : log.newOrders ≠ []) :
    ∃ last, IsGreatestOf last log.startsInLog ∧
      log.throughputSeries width = if LastFits width last then .ok (log.seriesTo width last)
        else .error (.domain (.binCount last maxBins width)) := by
  have hne : log.startsInLog ≠ [] := fun hnil => hne (List.map_eq_nil_iff.mp hnil)
  obtain ⟨first, others, hstarts⟩ := List.exists_cons_of_ne_nil hne
  have hlast := log.isGreatestOf_foldl hstarts
  refine ⟨_, hlast, ?_⟩
  have hcount := binCount?_eq_ite hfinite hpos (log.zero_le_of_mem_startsInLog hlast.mem)
  have hwidth := Config.isPositive_iff.mpr ⟨hfinite, hpos⟩
  by_cases hfits : LastFits width (others.foldl greater first)
  · rw [if_pos hfits] at hcount ⊢
    rw [← mapIdx_countBins hfinite hpos hlast hfits, throughputSeries, hwidth,
      newOrderStarts_eq, hstarts]
    simp only [hcount]
    rfl
  · rw [if_neg hfits] at hcount ⊢
    rw [throughputSeries, hwidth, newOrderStarts_eq, hstarts]
    simp only [hcount]
    rfl

/-- **The NewOrders are counted** if there are not too many bins. -/
theorem isCounted {last : Float} (hlast : IsGreatestOf last log.startsInLog)
    (hfits : LastFits width last)
    (hseries : log.throughputSeries width = .ok (log.seriesTo width last)) :
    log.IsCounted width last := by
  have hcount : binCount? width last = some (binIndex width last + 1) := by
    rw [binCount?_eq_ite hfinite hpos (log.zero_le_of_mem_startsInLog hlast.mem), if_pos hfits]
  exact {
    series_eq := hseries
    sum_eq := by
      refine sum_countP_eq_length (fun r : NormalizedRecord =>
        binIndex width r.record.startInLog) List.nodup_range fun r hr => ?_
      exact List.mem_range.mpr (Nat.lt_succ_of_le
        (binOf_of_mem hfinite hpos hlast hfits (List.mem_map_of_mem hr)).2)
    one_le_last := by
      rw [newOrdersIn_eq]
      exact List.countP_pos_iff.mpr ⟨last, hlast.mem, beq_self_eq_true _⟩
    binCount_eq := hcount
    min_eq := fun bins hbins => by
      obtain rfl := Option.some_inj.mp (hcount.symm.trans hbins)
      refine ⟨Nat.succ_le_succ (Nat.zero_le _), fun s hs => ?_⟩
      obtain ⟨heq, hle⟩ := binOf_of_mem hfinite hpos hlast hfits hs
      rw [heq]
      exact ⟨rfl, Nat.lt_succ_of_le hle, Nat.min_eq_left hle⟩ }

end Positive

/-- **Binning**, for every log and every width. -/
theorem isBinned (log : NormalizedLog) (width : Float) : log.IsBinned width where
  config_iff := by
    rw [← isPositive_eq_false_iff]
    refine ⟨fun h => ?_, throughputSeries_eq_error⟩
    by_contra hwidth
    rw [Bool.not_eq_false] at hwidth
    obtain ⟨hfinite, hpos⟩ := Config.isPositive_iff.mp hwidth
    by_cases hne : log.newOrders = []
    · rw [throughputSeries_eq_nil hwidth hne] at h
      cases h
    · obtain ⟨last, -, hseries⟩ := exists_throughputSeries hfinite hpos hne
      rw [hseries] at h
      split at h <;> cases h
  nil_iff := fun hfinite hpos => by
    refine ⟨fun h => ?_, throughputSeries_eq_nil (Config.isPositive_iff.mpr ⟨hfinite, hpos⟩)⟩
    by_contra hne
    obtain ⟨last, -, hseries⟩ := exists_throughputSeries hfinite hpos hne
    rw [hseries] at h
    split at h
    · -- there is the bin of the last start
      rw [Except.ok.injEq, seriesTo, List.map_eq_nil_iff, List.range_eq_nil] at h
      cases h
    · cases h
  last := fun hfinite hpos hne => by
    obtain ⟨last, hlast, hseries⟩ := exists_throughputSeries hfinite hpos hne
    by_cases hfits : LastFits width last
    · rw [if_pos hfits] at hseries
      refine ⟨last, hlast, ?_, fun _ => isCounted hfinite hpos hlast hfits hseries⟩
      rw [hseries]
      exact ⟨nofun, fun hnot => absurd hfits hnot⟩
    · rw [if_neg hfits] at hseries
      exact ⟨last, hlast, ⟨fun _ => hfits, fun _ => hseries⟩, fun h => absurd h hfits⟩

end NormalizedLog

end MixedWorkload

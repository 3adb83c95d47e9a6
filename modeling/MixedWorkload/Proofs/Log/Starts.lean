import MixedWorkload.Proofs.Binary64.Monotone
import MixedWorkload.Proofs.Extremes
import MixedWorkload.Proofs.Log.Faults

/-!
# The origin of time

The starts in a file have an arbitrary origin. Reading takes the least of them off all of them,
and from then on the library relies on a log that begins at zero: bins are counted from zero, and
the duration of a log is expected to be its last start. `MixedWorkload.TimingLog.StartsAtZero`
lists what this relies on, for a file with any finite starts.

The origin is one of the starts, so it is taken off itself and leaves the positive zero. The
other differences are rounded, and may even overflow to infinity, but rounding inverts no order.
The duration is then computed as a difference once more, of the greatest start and the least,
which is a zero by now. This leaves the greatest start as it is, and if that is a zero as well,
both folds have met the same one (`MixedWorkload.foldl_lesser_eq_foldl_greater`).
-/

namespace MixedWorkload

open Binary64

/-! ### Zero in a difference -/

namespace Binary64

/-- **A zero that is taken off** leaves any other number as it is. -/
theorem sub_of_units_eq_zero {x y : Float} (hx : x.isNaN = false) (hx0 : units x ≠ 0)
    (hy : y.isNaN = false) (hy0 : units y = 0) : x - y = x := by
  obtain ⟨s, hs⟩ := partUnits_eq_zero hy0 hy
  rw [isNaN_eq] at hx
  rw [units] at hx0
  rw [sub_eq_packed, hs]
  refine Eq.trans ?_ (packed_decoded x)
  cases hd : decoded x with
  | notANumber =>
    rw [hd] at hx
    cases hx
  | zero t =>
    rw [hd] at hx0
    exact absurd rfl hx0
  | infinity | finite => rfl

end Binary64

/-! ### Extremes of equal numbers -/

/-- A number is taken unless the one before it comes before. -/
theorem keep_of_not {before : Float → Float → Prop} [DecidableRel before] {x y : Float}
    (hy : y.isNaN = false) (h : ¬before x y) : keep before x y = y := by
  refine if_neg ?_
  rw [hy, Bool.false_or, decide_eq_true_iff]
  exact h

/-- **Among equal numbers** the least and the greatest are found in the same place. -/
theorem foldl_lesser_eq_foldl_greater {x : Float} {xs : List Float} (hx : x.isNaN = false)
    (h : ∀ y ∈ xs, y.isNaN = false ∧ units y = units x) :
    xs.foldl lesser x = xs.foldl greater x := by
  induction xs generalizing x with
  | nil => rfl
  | cons y ys ih =>
    obtain ⟨⟨hy, hunits⟩, hys⟩ := List.forall_mem_cons.mp h
    have hlesser : keep (· < ·) x y = y :=
      keep_of_not hy fun hlt => absurd (lt_iff.mp hlt).2.2 hunits.not_gt
    have hgreater : keep (· > ·) x y = y :=
      keep_of_not hy fun hgt => absurd (lt_iff.mp hgt).2.2 hunits.not_lt
    change (y :: ys).foldl (keep (· < ·)) x = (y :: ys).foldl (keep (· > ·)) x
    rw [List.foldl_cons, List.foldl_cons, hlesser, hgreater]
    refine ih hy fun z hz => ?_
    rw [hunits]
    exact hys z hz

/-- The folds from the infinities begin at the first number. -/
theorem least_cons {x : Float} (hx : x.isNaN = false) (xs : List Float) :
    least (x :: xs) = xs.foldl lesser x := by
  have hfirst : keep (· < ·) infinity x = x := keep_of_not hx (not_infinity_lt x)
  rw [least_eq_foldl, List.foldl_cons, hfirst]
  rfl

theorem greatest_cons {x : Float} (hx : x.isNaN = false) (xs : List Float) :
    greatest (x :: xs) = xs.foldl greater x := by
  have hfirst : keep (· > ·) (-infinity) x = x := keep_of_not hx (not_lt_neg_infinity x)
  rw [greatest_eq_foldl, List.foldl_cons, hfirst]
  rfl

/-- **The span of numbers that begin at zero** is the greatest of them. -/
theorem isGreatestOf_span {xs : List Float} (hzero : 0.0 ∈ xs) (hnonneg : ∀ x ∈ xs, 0.0 ≤ x) :
    IsGreatestOf (span xs) xs := by
  have hnumber : ∀ x ∈ xs, x.isNaN = false := fun x hx => (le_iff.mp (hnonneg x hx)).2.1
  have hleast := isFirst_least hzero rfl
  have hgreatest := isFirst_greatest hzero rfl
  have hlow : units (least xs) = 0 := by
    have hle := hleast.le 0.0 hzero rfl
    have hge := (le_iff.mp (hnonneg _ hleast.mem)).2.2
    rw [units_zero] at hle hge
    exact le_antisymm hle hge
  by_cases hhigh : units (greatest xs) = 0
  · -- all are zeros, and the difference is that of a zero and itself
    have hall : ∀ x ∈ xs, units x = 0 := by
      intro x hx
      have hle := hgreatest.le x hx (hnumber x hx)
      have hge := (le_iff.mp (hnonneg x hx)).2.2
      rw [units_zero] at hge
      omega
    have hsame : greatest xs = least xs := by
      obtain ⟨x, ys, rfl⟩ := List.exists_cons_of_ne_nil (List.ne_nil_of_mem hzero)
      obtain ⟨hx, hys⟩ := List.forall_mem_cons.mp hnumber
      obtain ⟨hx0, hys0⟩ := List.forall_mem_cons.mp hall
      rw [greatest_cons hx, least_cons hx]
      refine (foldl_lesser_eq_foldl_greater hx fun y hy => ⟨hys y hy, ?_⟩).symm
      rw [hys0 y hy, hx0]
    have hfinite : (least xs).isFinite = true := by
      have hpos := infiniteUnits_pos
      exact isFinite_iff.mpr ⟨hleast.isNumber, by omega, by omega⟩
    rw [span, hsame, sub_self_of_isFinite hfinite]
    refine ⟨hzero, fun x hx => le_iff.mpr ⟨hnumber x hx, rfl, ?_⟩⟩
    rw [hall x hx, units_zero]
  · rw [span, sub_of_units_eq_zero hgreatest.isNumber hhigh hleast.isNumber hlow]
    exact hgreatest.isGreatestOf hnumber

namespace TimingLog

/-! ### The starts in a file -/

/-- **The start that a record of a file gives**, in the units of the file: the finite number that
its second cell denotes. -/
def GivesStart (record : Csv.Record) (start : Float) : Prop :=
  ∃ cells text, HasCells record cells ∧ cells[1]? = some text ∧
    readFinite? text.toList = some start

theorem GivesStart.isFinite {record : Csv.Record} {start : Float} (h : GivesStart record start) :
    start.isFinite = true := by
  obtain ⟨cells, text, -, -, hread⟩ := h
  exact isFinite_of_readFinite? hread

/-- The start of a row is that of its second cell. -/
theorem start_of_readRow {cells : List String} {row : TimingRecord}
    (h : readRow cells = .ok row) :
    ∃ text, cells[1]? = some text ∧ readFinite? text.toList = some row.start := by
  unfold readRow at h
  split at h
  · next start _ _ _ =>
    obtain ⟨type, -, h⟩ := exists_of_bind_eq_ok h
    obtain ⟨value, hstart, h⟩ := exists_of_bind_eq_ok h
    obtain ⟨latency, -, h⟩ := exists_of_bind_eq_ok h
    obtain ⟨phase, -, h⟩ := exists_of_bind_eq_ok h
    cases h
    exact ⟨start, rfl, readCell_eq_ok hstart⟩
  · cases h

theorem givesStart_of_readRecord {index : ℕ} {record : Csv.Record} {row : TimingRecord}
    (h : readRecord index record = .ok row) : GivesStart record row.start := by
  obtain ⟨cells, hcells, -⟩ := (exists_readRecord_iff index).mp ⟨row, h⟩
  rw [readRecord_of_hasCells hcells] at h
  cases hrow : readRow cells with
  | error fault =>
    rw [hrow] at h
    cases h
  | ok row' =>
    rw [hrow] at h
    obtain rfl : row' = row := Except.ok.inj h
    obtain ⟨text, htext, hread⟩ := start_of_readRow hrow
    exact ⟨cells, text, hcells, htext, hread⟩

/-- **Rows have the starts that their records give.** -/
theorem forall₂_givesStart {index : ℕ} {records : List Csv.Record} {rows : List TimingRecord}
    (h : readRecordsFrom index records = .ok rows) :
    List.Forall₂ GivesStart records (rows.map TimingRecord.start) := by
  induction records generalizing index rows with
  | nil =>
    cases h
    exact .nil
  | cons record records ih =>
    obtain ⟨row, rest, hrow, hrest, rfl⟩ := exists_of_readRecordsFrom_cons h
    exact .cons (givesStart_of_readRecord hrow) (ih hrest)

/-- **Only finite starts are given.** -/
theorem isFinite_of_forall₂_givesStart {records : List Csv.Record} {given : List Float}
    (h : List.Forall₂ GivesStart records given) : ∀ s ∈ given, s.isFinite = true := by
  induction h with
  | nil => exact List.forall_mem_nil _
  | cons hgives _ ih => exact List.forall_mem_cons.mpr ⟨hgives.isFinite, ih⟩

/-! ### Starts from the earliest -/

/-- **A log that counts its starts from the earliest**, where `given` are the starts as the file
gives them. -/
structure CountsFrom (origin : Float) (given : List Float) (log : TimingLog) : Prop where
  /-- The origin is the least of the starts that are given. -/
  isLeastOf : IsLeastOf origin given
  /-- It is taken off each of them. -/
  starts_eq : log.starts = given.map fun s => s - origin
  /-- No start is before zero. -/
  zero_le : ∀ r ∈ log.records, 0.0 ≤ r.start
  /-- Some record starts at zero. -/
  exists_zero : ∃ r ∈ log.records, r.start = 0.0
  /-- The order of the starts is kept. -/
  sub_le : ∀ s ∈ given, ∀ s' ∈ given, s ≤ s' → s - origin ≤ s' - origin
  /-- The duration is the greatest start. -/
  isGreatestOf_duration : IsGreatestOf log.duration log.starts

/-- **Time begins at zero** in every log that is read from a file. -/
structure StartsAtZero (file : List UInt8) : Prop where
  /-- A log with records counts from the earliest of the starts that the file gives, and these
  are finite. -/
  countsFrom : ∀ log, read file = .ok log → log.records ≠ [] →
    ∃ origin given, List.Forall₂ GivesStart (dataRecords file) given ∧
      (∀ s ∈ given, s.isFinite = true) ∧ log.CountsFrom origin given
  /-- A log without records takes no time. -/
  duration_eq : ∀ log, read file = .ok log → log.records = [] → log.duration = 0.0

/-- The log that is made of rows with finite starts. -/
theorem countsFrom_ofRows {rows : List TimingRecord} (hne : rows ≠ [])
    (hfinite : ∀ s ∈ rows.map TimingRecord.start, s.isFinite = true) :
    (ofRows rows).CountsFrom (least (rows.map TimingRecord.start))
      (rows.map TimingRecord.start) := by
  have hnumber : ∀ s ∈ rows.map TimingRecord.start, s.isNaN = false :=
    fun s hs => isNaN_of_isFinite (hfinite s hs)
  obtain ⟨row, hrow⟩ := List.exists_mem_of_ne_nil rows hne
  have hmem : row.start ∈ rows.map TimingRecord.start := List.mem_map_of_mem hrow
  have hfirst := isFirst_least hmem (hnumber _ hmem)
  have horigin := hfinite _ hfirst.mem
  have hstarts : (ofRows rows).starts =
      (rows.map TimingRecord.start).map fun s => s - least (rows.map TimingRecord.start) := by
    simp [starts, ofRows]
  have hnonneg : ∀ s ∈ (ofRows rows).starts, 0.0 ≤ s := by
    rw [hstarts]
    rintro _ hdiff
    obtain ⟨s, hs, rfl⟩ := List.mem_map.mp hdiff
    exact Binary64.sub_nonneg (hnumber s hs) horigin (hfirst.le s hs (hnumber s hs))
  have hzero : 0.0 ∈ (ofRows rows).starts := by
    rw [hstarts]
    exact List.mem_map.mpr ⟨_, hfirst.mem, sub_self_of_isFinite horigin⟩
  refine ⟨hfirst.isLeastOf hnumber, hstarts, fun r hr => hnonneg _ (List.mem_map_of_mem hr),
    List.mem_map.mp hzero, fun s hs s' hs' hle => ?_, ?_⟩
  · refine (rounds_sub (hfinite s hs) horigin).le (rounds_sub (hfinite s' hs') horigin) ?_
    have hrat := (le_iff_toRat (hnumber s hs) (hnumber s' hs')).mp hle
    linarith
  · have hsome : (ofRows rows).isEmpty = false := by simp [isEmpty, ofRows, hne]
    rw [duration, hsome]
    exact isGreatestOf_span hzero hnonneg

/-- **Every file has its time begin at zero.** -/
theorem startsAtZero (file : List UInt8) : StartsAtZero file where
  countsFrom log hlog hne := by
    obtain ⟨rows, hrows, rfl⟩ := read_eq_ok_iff.mp hlog
    have hgives := forall₂_givesStart hrows
    have hfinite := isFinite_of_forall₂_givesStart hgives
    have hrows : rows ≠ [] := fun hnil => hne (List.map_eq_nil_iff.mpr hnil)
    exact ⟨_, _, hgives, hfinite, countsFrom_ofRows hrows hfinite⟩
  duration_eq log _ hnil := by
    have hempty : log.isEmpty = true := by rw [isEmpty, hnil, List.isEmpty_nil]
    rw [duration, hempty]
    rfl

end TimingLog

end MixedWorkload

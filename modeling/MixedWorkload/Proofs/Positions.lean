import MixedWorkload.Proofs.Evaluation

/-!
# Positions in a valid range

Positions in the analytical range are computed in the arithmetic of the type numbers, and
nothing checks that they fit. They do, for a reason that has nothing to do with arithmetic:
the range of all types would contain the type of NewOrder, and settings of this kind are
refused. `MixedWorkload.Config.HasExactPositions` says what this gives for a range, and
`MixedWorkload.Evaluation.SeparatesTypes` what it gives for an evaluation: no record is both
a NewOrder and a query, every group has a number, and there are no more groups than numbers.
Both hold as soon as the settings pass (`MixedWorkload.Config.hasExactPositions_of_validate`).
-/

namespace MixedWorkload

/-! ### Positions -/

namespace AnalyticalRange

variable (r : AnalyticalRange)

/-- A type of a range. -/
def Spans (t : TransactionType) : Prop := r.lower ≤ t ∧ t ≤ r.upper

/-- The number of a query as a natural number, zero for a type outside the range. -/
def number (t : TransactionType) : ℕ := ((r.queryNumber t).getD 0).toNat

variable {r} {t : TransactionType}

theorem isSome_indexOf : (r.indexOf t).isSome = true ↔ r.Spans t := by
  rw [indexOf, Spans, ← contains_iff]
  split
  · next h => exact ⟨fun _ => h, fun _ => rfl⟩
  · next h => exact ⟨fun hsome => absurd hsome Bool.false_ne_true, fun hin => absurd hin h⟩

theorem isSome_queryNumber : (r.queryNumber t).isSome = true ↔ r.Spans t := by
  rw [queryNumber, Option.isSome_map, isSome_indexOf]

end AnalyticalRange

namespace Config

/-- **Positions are exact**: no number of a position or of a width is wrapped, and the types
of the range are numbered from one without a gap. -/
structure HasExactPositions (c : Config) : Prop where
  /-- The width of the range is computed without wrapping. -/
  width_fits : c.range.lower.toNat ≤ c.range.upper.toNat ∧
    c.range.upper.toNat - c.range.lower.toNat + 1 < 2 ^ 32
  /-- The range is not that of all types. -/
  ne_all : c.range ≠ ⟨0, 4294967295⟩
  /-- The number of queries is the width. -/
  queryCount_eq : c.range.queryCount = c.range.upper.toNat - c.range.lower.toNat + 1
  /-- The number of a query is computed from its index without wrapping. -/
  number_fits : ∀ t index, c.range.indexOf t = some index →
    index + 1 < 2 ^ 32 ∧ c.range.number t = index + 1
  /-- The types with an index are those of the range. -/
  isSome_indexOf : ∀ t, (c.range.indexOf t).isSome = true ↔ c.range.Spans t
  /-- So are the types with a number. -/
  isSome_queryNumber : ∀ t, (c.range.queryNumber t).isSome = true ↔ c.range.Spans t
  /-- A greater type has a greater number. -/
  number_lt : ∀ t t', c.range.Spans t → c.range.Spans t' → t < t' →
    c.range.number t < c.range.number t'
  /-- Every number from one to the number of queries is that of one type. -/
  bijOn_number : Set.BijOn c.range.number {t | c.range.Spans t} (Set.Icc 1 c.range.queryCount)

namespace IsValid

variable {c : Config} (h : c.IsValid)

include h

/-- **The number of a type** is its distance from the least type, counted from one. -/
theorem number_eq {t : TransactionType} (ht : c.range.Spans t) :
    c.range.number t = t.toNat - c.range.lower.toNat + 1 :=
  h.toNat_queryNumber ht

/-- The numbers of the types of a range are those up to its width. -/
theorem number_mem {t : TransactionType} (ht : c.range.Spans t) :
    c.range.number t ∈ Set.Icc 1 c.range.queryCount := by
  have hle := UInt32.le_iff_toNat_le.mp ht.2
  rw [h.number_eq ht, h.queryCount_eq]
  exact ⟨by omega, by omega⟩

theorem number_lt {t t' : TransactionType} (ht : c.range.Spans t) (ht' : c.range.Spans t')
    (hlt : t < t') : c.range.number t < c.range.number t' := by
  have hge := UInt32.le_iff_toNat_le.mp ht.1
  have hnat := UInt32.lt_iff_toNat_lt.mp hlt
  rw [h.number_eq ht, h.number_eq ht']
  omega

/-- **The types of a valid range are numbered without a gap.** -/
theorem bijOn_number :
    Set.BijOn c.range.number {t | c.range.Spans t} (Set.Icc 1 c.range.queryCount) := by
  refine ⟨fun t ht => h.number_mem ht, fun t ht t' ht' heq => ?_, fun n hn => ?_⟩
  · have hge := UInt32.le_iff_toNat_le.mp ht.1
    have hge' := UInt32.le_iff_toNat_le.mp ht'.1
    rw [h.number_eq ht, h.number_eq ht'] at heq
    exact UInt32.toNat_inj.mp (by omega)
  · -- the type with a given number is that far above the least one
    have hupper := c.range.upper.toNat_lt
    have hle := UInt32.le_iff_toNat_le.mp h.lower_le_upper
    obtain ⟨hone, hcount⟩ := hn
    rw [h.queryCount_eq] at hcount
    have hfits : c.range.lower.toNat + (n - 1) < 2 ^ 32 := by omega
    have hnat : (UInt32.ofNat (c.range.lower.toNat + (n - 1))).toNat =
        c.range.lower.toNat + (n - 1) := UInt32.toNat_ofNat_of_lt' hfits
    have ht : c.range.Spans (UInt32.ofNat (c.range.lower.toNat + (n - 1))) := by
      constructor <;> rw [UInt32.le_iff_toNat_le, hnat] <;> omega
    refine ⟨_, ht, ?_⟩
    rw [h.number_eq ht, hnat]
    omega

theorem number_fits {t : TransactionType} {index : ℕ} (hindex : c.range.indexOf t = some index) :
    index + 1 < 2 ^ 32 ∧ c.range.number t = index + 1 := by
  have ht : c.range.Spans t := AnalyticalRange.isSome_indexOf.mp (by rw [hindex]; rfl)
  have hle := UInt32.le_iff_toNat_le.mp ht.2
  have hwidth := h.width_lt
  rw [AnalyticalRange.indexOf_eq ht] at hindex
  obtain rfl := Option.some.inj hindex
  exact ⟨by omega, h.number_eq ht⟩

/-- **Valid settings have exact positions.** -/
theorem hasExactPositions : c.HasExactPositions where
  width_fits := ⟨UInt32.le_iff_toNat_le.mp h.lower_le_upper, h.width_lt⟩
  ne_all hall := by
    have hwidth := h.width_lt
    rw [hall] at hwidth
    exact absurd hwidth (by decide)
  queryCount_eq := h.queryCount_eq
  number_fits _ _ hindex := h.number_fits hindex
  isSome_indexOf _ := AnalyticalRange.isSome_indexOf
  isSome_queryNumber _ := AnalyticalRange.isSome_queryNumber
  number_lt _ _ ht ht' hlt := h.number_lt ht ht' hlt
  bijOn_number := h.bijOn_number

/-- **A list of ascending types of a range** is no longer than the range is wide. -/
theorem length_le {types : List TransactionType} (hasc : types.Pairwise (· < ·))
    (hin : ∀ t ∈ types, c.range.Spans t) : types.length ≤ c.range.queryCount := by
  have hnodup : (types.map c.range.number).Nodup := by
    rw [List.Nodup, List.pairwise_map]
    exact hasc.imp_of_mem fun ht ht' hlt => (h.number_lt (hin _ ht) (hin _ ht') hlt).ne
  have hsub : (types.map c.range.number).toFinset ⊆ Finset.Icc 1 c.range.queryCount := by
    intro n hn
    obtain ⟨t, ht, rfl⟩ := List.mem_map.mp (List.mem_toFinset.mp hn)
    exact Finset.mem_Icc.mpr (h.number_mem (hin t ht))
  calc types.length
      = (types.map c.range.number).length := (List.length_map _).symm
    _ = (types.map c.range.number).toFinset.card := (List.toFinset_card_of_nodup hnodup).symm
    _ ≤ (Finset.Icc 1 c.range.queryCount).card := Finset.card_le_card hsub
    _ = c.range.queryCount := by rw [Nat.card_Icc, Nat.add_sub_cancel]

end IsValid

end Config

/-! ### Evaluations -/

namespace Evaluation

/-- **An evaluation keeps NewOrders and queries apart**, and each query has its number. -/
structure SeparatesTypes (c : Config) (e : Evaluation) : Prop where
  /-- No NewOrder is analytical. -/
  newOrder_not_analytical : ∀ r ∈ e.log.records, r.record.type = c.newOrderId →
    r.analytical = false
  /-- A group has the number of its type, not the one that stands for none. -/
  queryNumber_eq : ∀ g ∈ e.groups.groups, c.range.queryNumber g.type = some g.queryNumber
  /-- The numbers of groups count from one. -/
  queryNumber_mem : ∀ g ∈ e.groups.groups,
    g.queryNumber.toNat ∈ Set.Icc 1 c.range.queryCount
  /-- There are no more groups than queries. -/
  length_le : e.groups.length ≤ c.range.queryCount

variable {power : Float → Float → Float} {log : TimingLog} {options : EvaluationOptions}

/-- **Every evaluation keeps them apart**, for its settings have passed. -/
theorem separatesTypes {e : Evaluation} (h : ofLogBy power log options = .ok e) :
    e.SeparatesTypes options.config := by
  obtain ⟨table, types, haccepts, htypes, -, -, rfl⟩ := eq_result_of_ofLogBy h
  have hvalid := haccepts.isValid
  have hspans : ∀ t ∈ types, options.config.range.Spans t := by
    intro t ht
    have hrange := ((htypes.mem_iff t).mp ht).1
    rwa [Scheme.IsAnalytical, EvaluationOptions.scheme, haccepts.range_eq] at hrange
  have hnumber : ∀ g ∈ ((options.scheme table).groups log.records types).groups,
      ∃ t ∈ types, g.type = t ∧ g.queryNumber = (options.config.range.queryNumber t).getD 0 := by
    intro g hg
    obtain ⟨t, ht, rfl⟩ := List.mem_map.mp hg
    refine ⟨t, ht, rfl, ?_⟩
    rw [← haccepts.range_eq]
    rfl
  refine ⟨fun r hr htype => ?_, fun g hg => ?_, fun g hg => ?_, ?_⟩
  · have hrecords := (options.scheme table).records_normalize log
    change r ∈ (log.normalize (options.scheme table).table (options.scheme table).mode
      (options.scheme table).newOrderId).records at hr
    rw [hrecords] at hr
    obtain ⟨p, -, rfl⟩ := List.mem_map.mp hr
    have hout := hvalid.not_contains
    rw [← htype, ← haccepts.range_eq] at hout
    exact hout
  · obtain ⟨t, ht, htype, hquery⟩ := hnumber g hg
    obtain ⟨n, hn⟩ := Option.isSome_iff_exists.mp
      (AnalyticalRange.isSome_queryNumber.mpr (hspans t ht))
    rw [htype, hquery, hn, Option.getD_some]
  · obtain ⟨t, ht, -, hquery⟩ := hnumber g hg
    rw [hquery]
    exact hvalid.number_mem (hspans t ht)
  · have hlength : ((options.scheme table).groups log.records types).length = types.length :=
      List.length_map _
    change ((options.scheme table).groups log.records types).length ≤ _
    rw [hlength]
    exact hvalid.length_le htypes.ascending hspans

end Evaluation

/-- **What passes has exact positions**, and every evaluation with these settings keeps
NewOrders and queries apart. -/
theorem Config.hasExactPositions_of_validate {c c' : Config} (h : c.validate = .ok c') :
    c.HasExactPositions ∧
      ∀ (power : Float → Float → Float) (log : TimingLog) (options : EvaluationOptions)
        (e : Evaluation), options.config = c → Evaluation.ofLogBy power log options = .ok e →
          e.SeparatesTypes c := by
  refine ⟨(validate_eq_ok_iff.mp h).1.hasExactPositions, ?_⟩
  rintro power log options e rfl he
  exact Evaluation.separatesTypes he

/-- The greatest range that leaves a type out, the type of NewOrder being zero. -/
def Config.widest : Config := ⟨0, ⟨1, 4294967295⟩, 5.0⟩

/-- The range of all types but one has exact positions. -/
theorem Config.hasExactPositions_widest :
    Config.widest.validate = .ok Config.widest ∧ Config.widest.HasExactPositions ∧
      ∀ (power : Float → Float → Float) (log : TimingLog) (options : EvaluationOptions)
        (e : Evaluation), options.config = Config.widest →
          Evaluation.ofLogBy power log options = .ok e → e.SeparatesTypes Config.widest :=
  have h : Config.widest.validate = .ok Config.widest :=
    validate_eq_ok_iff.mpr ⟨⟨by decide, by decide, by decide +kernel⟩, rfl⟩
  ⟨h, hasExactPositions_of_validate h⟩

end MixedWorkload

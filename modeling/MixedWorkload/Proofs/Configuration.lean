import Mathlib
import MixedWorkload.Config.Basic
import MixedWorkload.Factors.Table
import MixedWorkload.Proofs.Binary64.Arithmetic

/-!
# Settings and factors that are accepted

What `MixedWorkload.Config.validate` and `MixedWorkload.FactorTable.resolve` make of
settings and of an override of the factors. Settings that pass are those given
(`MixedWorkload.Config.validate_eq_ok_iff`), a table that is accepted is for the range that
was asked for and has only acceptable factors (`MixedWorkload.FactorTable.resolve_eq_ok_iff`),
and whatever is refused is refused as a fault of the configuration.

Positions in a range are computed in the arithmetic of the type numbers. In valid settings
the range leaves out a type, that of NewOrder, so nothing wraps
(`MixedWorkload.Config.IsValid.toNat_queryNumber`).
-/

namespace MixedWorkload

/-! ### Positions in a range -/

namespace AnalyticalRange

variable {r : AnalyticalRange} {t : TransactionType}

theorem contains_iff : r.contains t = true ↔ r.lower ≤ t ∧ t ≤ r.upper :=
  decide_eq_true_iff

/-- **The position of a type of the range** is its distance from the least one. -/
theorem indexOf_eq (h : r.lower ≤ t ∧ t ≤ r.upper) :
    r.indexOf t = some (t.toNat - r.lower.toNat) := by
  rw [indexOf, if_pos (contains_iff.mpr h), UInt32.toNat_sub_of_le _ _ h.1]

/-- **The number of a type of the range** is its position counted from one, unless the range
is so wide that counting wraps. -/
theorem toNat_queryNumber (hwidth : r.upper.toNat - r.lower.toNat + 1 < 2 ^ 32)
    (h : r.lower ≤ t ∧ t ≤ r.upper) :
    ((r.queryNumber t).getD 0).toNat = t.toNat - r.lower.toNat + 1 := by
  have hle := UInt32.le_iff_toNat_le.mp h.2
  have hfits : t.toNat - r.lower.toNat < 2 ^ 32 := by omega
  rw [queryNumber, indexOf_eq h, Option.map_some, Option.getD_some, UInt32.toNat_add,
    UInt32.toNat_ofNat_of_lt' hfits, UInt32.toNat_one, Nat.mod_eq_of_lt (by omega)]

/-- Only the range of all types is that wide. -/
theorem width_lt_of_ne (h : r ≠ ⟨0, 4294967295⟩) :
    r.upper.toNat - r.lower.toNat + 1 < 2 ^ 32 := by
  have hupper := r.upper.toNat_lt
  by_contra hwide
  have hends : r.lower.toNat = (0 : UInt32).toNat ∧
      r.upper.toNat = (4294967295 : UInt32).toNat := by
    rw [UInt32.toNat_zero, show (4294967295 : UInt32).toNat = 4294967295 from rfl]
    omega
  obtain ⟨lower, upper⟩ := r
  obtain rfl := UInt32.toNat_inj.mp hends.1
  obtain rfl := UInt32.toNat_inj.mp hends.2
  exact h rfl

end AnalyticalRange

/-! ### Settings -/

namespace Config

theorem isPositive_iff {x : Float} : isPositive x = true ↔ x.isFinite = true ∧ 0.0 < x := by
  rw [isPositive, Bool.and_eq_true, Bool.not_eq_true', decide_eq_false_iff_not]
  exact and_congr_right fun hx => Binary64.not_le (Binary64.isNaN_of_isFinite hx) rfl

/-- **Settings that the library can rely on.** -/
structure IsValid (c : Config) : Prop where
  /-- The range does not end before it begins. -/
  lower_le_upper : c.range.lower ≤ c.range.upper
  /-- NewOrder is no analytical type. -/
  not_contains : c.range.contains c.newOrderId = false
  /-- The width of a bin is a positive finite number. -/
  isPositive : Config.isPositive c.binWidth = true

theorem fault?_eq_none_iff (c : Config) : c.fault? = none ↔ c.IsValid := by
  -- the checks are made in the order of the fields, and each failure refutes its field
  constructor
  · intro hnone
    unfold fault? at hnone
    split at hnone
    · cases hnone
    next hrange =>
    split at hnone
    · cases hnone
    next hcontains =>
    split at hnone
    · cases hnone
    next hwidth =>
    rw [Bool.not_eq_true', Bool.not_eq_false] at hwidth
    exact ⟨UInt32.not_lt.mp hrange, Bool.eq_false_of_not_eq_true hcontains, hwidth⟩
  · intro hv
    have hrange : ¬c.range.upper < c.range.lower := UInt32.not_lt.mpr hv.lower_le_upper
    simp only [fault?, if_neg hrange, hv.not_contains, hv.isPositive, Bool.not_true,
      Bool.false_eq_true, if_false]

/-- **Validation accepts the valid settings**, and passes them on as they are. -/
theorem validate_eq_ok_iff {c c' : Config} : c.validate = .ok c' ↔ c.IsValid ∧ c' = c := by
  rw [validate, ← fault?_eq_none_iff]
  cases c.fault? with
  | some fault => exact ⟨fun h => (nomatch h), fun h => (nomatch h.1)⟩
  | none =>
    constructor
    · intro h
      exact ⟨rfl, (Except.ok.inj h).symm⟩
    · rintro ⟨-, rfl⟩
      rfl

/-- What validation refuses is a fault of the configuration. -/
theorem validate_eq_error {c : Config} {e : Error} (h : c.validate = .error e) :
    ∃ fault, e = .config fault := by
  unfold validate at h
  split at h
  · exact ⟨_, (Except.error.inj h).symm⟩
  · cases h

namespace IsValid

variable {c : Config} (h : c.IsValid)

include h

/-- A valid range is not that of all types. -/
theorem width_lt : c.range.upper.toNat - c.range.lower.toNat + 1 < 2 ^ 32 := by
  have hout := h.not_contains
  have hu := c.range.upper.toNat_lt
  have hn := c.newOrderId.toNat_lt
  -- a range of all types would contain NewOrder, too
  simp only [AnalyticalRange.contains, UInt32.le_iff_toNat_le, decide_eq_false_iff_not] at hout
  omega

/-- **The number of queries** is the width of the range. -/
theorem queryCount_eq :
    c.range.queryCount = c.range.upper.toNat - c.range.lower.toNat + 1 := by
  have hwidth := h.width_lt
  rw [AnalyticalRange.queryCount, if_neg (UInt32.not_lt.mpr h.lower_le_upper), UInt32.toNat_add,
    UInt32.toNat_sub_of_le _ _ h.lower_le_upper, UInt32.toNat_one, Nat.mod_eq_of_lt hwidth]

/-- **The number of a query** counts the types of the range from one. -/
theorem toNat_queryNumber {t : TransactionType} (ht : c.range.lower ≤ t ∧ t ≤ c.range.upper) :
    ((c.range.queryNumber t).getD 0).toNat = t.toNat - c.range.lower.toNat + 1 :=
  AnalyticalRange.toNat_queryNumber h.width_lt ht

end IsValid

end Config

/-! ### Factors -/

namespace FactorTable

theorem firstFault?_eq_none_iff (query : ℕ) (xs : List Float) :
    firstFault? query xs = none ↔ ∀ x ∈ xs, isFactor x = true := by
  induction xs generalizing query with
  | nil => simp [firstFault?]
  | cons x xs ih =>
    rw [firstFault?, List.forall_mem_cons]
    split
    · next h => rw [ih, and_iff_right h]
    · next h => exact ⟨fun hs => absurd hs (Option.some_ne_none _), fun hs => absurd hs.1 h⟩

/-- **Accepted factors**: a table is made of the factors that were chosen if all of them are
acceptable. -/
theorem resolve_eq_ok_iff {override : FactorOverride} {range : AnalyticalRange}
    {table : FactorTable} :
    resolve override range = .ok table ↔
      choose range.queryCount override = .ok table.factors ∧ table.range = range ∧
        ∀ x ∈ table.factors, isFactor x = true := by
  rw [resolve]
  cases hc : choose range.queryCount override with
  | error e => exact ⟨fun h => (nomatch h), fun h => (nomatch h.1)⟩
  | ok factors =>
    simp only [bind, Except.bind]
    cases hf : firstFault? 1 factors with
    | none =>
      have hall := (firstFault?_eq_none_iff 1 factors).mp hf
      constructor
      · intro h
        obtain rfl : (⟨range, factors⟩ : FactorTable) = table := Except.ok.inj h
        exact ⟨rfl, rfl, hall⟩
      · rintro ⟨hfactors, rfl, -⟩
        obtain rfl : factors = table.factors := Except.ok.inj hfactors
        rfl
    | some fault =>
      constructor
      · intro h
        cases h
      · rintro ⟨hfactors, -, hall⟩
        obtain rfl : factors = table.factors := Except.ok.inj hfactors
        rw [(firstFault?_eq_none_iff 1 _).mpr hall] at hf
        exact absurd hf (Option.some_ne_none fault).symm

/-- The table of a range is for that range. -/
theorem range_of_resolve {override : FactorOverride} {range : AnalyticalRange}
    {table : FactorTable} (h : resolve override range = .ok table) : table.range = range :=
  (resolve_eq_ok_iff.mp h).2.1

/-- A list of acceptable factors, one for each query, makes a table. -/
theorem resolve_sequence {range : AnalyticalRange} {xs : List Float}
    (hlength : xs.length = range.queryCount) (h : ∀ x ∈ xs, isFactor x = true) :
    resolve (.sequence xs) range = .ok ⟨range, xs⟩ :=
  resolve_eq_ok_iff.mpr ⟨if_pos hlength, rfl, h⟩

theorem lookUp_eq_error {entries : List (UInt32 × Float)} {offset : ℕ} {e : Error}
    (h : lookUp entries offset = .error e) : ∃ fault, e = .config fault := by
  unfold lookUp at h
  split at h
  · cases h
  · exact ⟨_, (Except.error.inj h).symm⟩

theorem lookUpFrom_eq_error {entries : List (UInt32 × Float)} {offset queries : ℕ} {e : Error}
    (h : lookUpFrom entries offset queries = .error e) : ∃ fault, e = .config fault := by
  -- an error of the whole is one of the first look-up, or of the remaining ones
  induction queries generalizing offset with
  | zero => cases h
  | succ queries ih =>
    rw [lookUpFrom] at h
    cases hl : lookUp entries offset with
    | error e' =>
      rw [hl] at h
      obtain rfl : e' = e := Except.error.inj h
      exact lookUp_eq_error hl
    | ok factor =>
      rw [hl] at h
      cases hf : lookUpFrom entries (offset + 1) queries with
      | error e' =>
        simp only [bind, Except.bind, hf] at h
        obtain rfl : e' = e := Except.error.inj h
        exact ih hf
      | ok factors =>
        simp only [bind, Except.bind, hf] at h
        cases h

theorem choose_eq_error {queries : ℕ} {override : FactorOverride} {e : Error}
    (h : choose queries override = .error e) : ∃ fault, e = .config fault := by
  unfold choose at h
  split at h
  · split at h
    · cases h
    · exact ⟨_, (Except.error.inj h).symm⟩
  · split at h
    · cases h
    · exact ⟨_, (Except.error.inj h).symm⟩
  · split at h
    · exact ⟨_, (Except.error.inj h).symm⟩
    · exact lookUpFrom_eq_error h

/-- **Refused factors** are a fault of the configuration. -/
theorem resolve_eq_error {override : FactorOverride} {range : AnalyticalRange} {e : Error}
    (h : resolve override range = .error e) : ∃ fault, e = .config fault := by
  rw [resolve] at h
  cases hc : choose range.queryCount override with
  | error e' =>
    rw [hc] at h
    obtain rfl : e' = e := Except.error.inj h
    exact choose_eq_error hc
  | ok factors =>
    simp only [hc, bind, Except.bind] at h
    split at h
    · exact ⟨_, (Except.error.inj h).symm⟩
    · cases h

end FactorTable

end MixedWorkload

import MixedWorkload.Proofs.Grouping
import MixedWorkload.Proofs.Normalization

/-!
# The groups of a normalized log

Grouping summarizes the records of each type that occurs, in the order of the types.
`MixedWorkload.Scheme.ofLog_normalize` says what it makes of a normalized log: the groups
are those of the types of `MixedWorkload.Scheme.IsTypeList`, in this order, and the mean
latency of each is that of `MixedWorkload.Scheme.meanOf`. A log without an analytical
record has no groups at all (`MixedWorkload.Scheme.ofLog_normalize_eq_error`), so the list
of groups that the later stages are given is never empty.
-/

namespace MixedWorkload

/-! ### Counting by kinds -/

/-- **Counting by kinds counts everything once**, if there is a kind for everything. -/
theorem sum_countP_eq_length {α κ : Type*} [DecidableEq κ] (kind : α → κ) {kinds : List κ}
    (hnodup : kinds.Nodup) {xs : List α} (hin : ∀ x ∈ xs, kind x ∈ kinds) :
    (kinds.map fun k => xs.countP fun x => kind x == k).sum = xs.length := by
  have hcount (k : κ) : (xs.countP fun x => kind x == k) = Multiset.count k (xs.map kind) := by
    rw [Multiset.coe_count, List.count_eq_countP, List.countP_map]
    rfl
  have hmem : ∀ k ∈ ((xs.map kind : List κ) : Multiset κ), k ∈ kinds.toFinset := by
    intro k hk
    obtain ⟨x, hx, rfl⟩ := List.mem_map.mp (Multiset.mem_coe.mp hk)
    exact List.mem_toFinset.mpr (hin x hx)
  simp only [hcount]
  rw [← List.sum_toFinset _ hnodup, Multiset.sum_count_eq_card hmem, Multiset.coe_card,
    List.length_map]

/-! ### Extreme values -/

/-- An extreme value of a list is one of its members. -/
theorem extreme_mem {choose : Float → Float → Float} (hchoose : ∀ x y, choose x y ∈ [x, y])
    {xs : List Float} (hne : xs ≠ []) : extreme choose xs ∈ xs := by
  have hfoldl (x : Float) (ys : List Float) : ys.foldl choose x ∈ x :: ys := by
    induction ys generalizing x with
    | nil => exact List.mem_singleton_self x
    | cons y ys ih =>
      rw [List.foldl_cons]
      rcases List.mem_cons.mp (ih (choose x y)) with heq | hmem
      · rw [heq]
        exact List.mem_append_left ys (hchoose x y)
      · exact List.mem_cons_of_mem _ (List.mem_cons_of_mem _ hmem)
  obtain ⟨x, xs, rfl⟩ := List.exists_cons_of_ne_nil hne
  exact hfoldl x xs

theorem lesser_mem (x y : Float) : lesser x y ∈ [x, y] := by
  unfold lesser
  split <;> simp

theorem greater_mem (x y : Float) : greater x y ∈ [x, y] := by
  unfold greater
  split <;> simp

/-- What is no number gives way to the value after it. -/
theorem keep_of_isNaN {before : Float → Float → Prop} [DecidableRel before] {key : Float → ℤ}
    (hkey : Measures key before) {x : Float} (hx : x.isNaN = true) (y : Float) :
    keep before x y = y := by
  have hnot : decide (before x y) = false := by
    rw [decide_eq_false_iff_not, hkey, hx]
    exact fun h => Bool.false_ne_true h.1.symm
  rw [keep, hnot, Bool.or_false]
  split
  · next hy => exact Binary64.eq_of_isNaN hx hy
  · rfl

/-- **The extreme value of a list** is its first number in the order, if it has a number. -/
theorem isFirst_extreme {before : Float → Float → Prop} [DecidableRel before] {key : Float → ℤ}
    (hkey : Measures key before) {v : Float} {xs : List Float} (hv : v ∈ xs)
    (hn : v.isNaN = false) : IsFirst key (extreme (keep before) xs) xs := by
  obtain ⟨x, xs, rfl⟩ := List.exists_cons_of_ne_nil (List.ne_nil_of_mem hv)
  change IsFirst key (xs.foldl (keep before) x) (x :: xs)
  induction xs generalizing x with
  | nil =>
    rw [List.mem_singleton] at hv
    exact isFirst_foldl hkey (hv ▸ hn) []
  | cons y ys ih =>
    cases hx : x.isNaN with
    | false => exact isFirst_foldl hkey hx (y :: ys)
    | true =>
      have hys : v ∈ y :: ys := by
        rcases List.mem_cons.mp hv with rfl | hv
        · rw [hx] at hn
          cases hn
        · exact hv
      rw [List.foldl_cons, keep_of_isNaN hkey hx]
      exact (ih y hys).cons hx

/-! ### Grouping -/

namespace QueryGroups

section Records

variable {range : AnalyticalRange} {rs : List NormalizedRecord}

theorem mem_groups {g : QueryGroup} :
    g ∈ (ofRecords range rs).groups ↔
      ∃ t ∈ occurringTypes rs, QueryGroup.ofRecords range t (recordsOf t rs) = g :=
  List.mem_map

/-- **A type that occurs has records**, and its group is made of them. -/
theorem recordsOf_ne_nil {t : TransactionType} (h : t ∈ occurringTypes rs) :
    recordsOf t rs ≠ [] := by
  obtain ⟨r, hr, rfl⟩ := List.mem_map.mp (mem_occurringTypes.mp h)
  exact List.ne_nil_of_mem (List.mem_filter.mpr ⟨hr, beq_self_eq_true _⟩)

end Records

end QueryGroups

/-! ### The groups -/

namespace Scheme

variable (σ : Scheme) (rs : List TimingRecord)

/-- The analytical records without the counts. -/
theorem map_fst_queries :
    (σ.queries rs).map Prod.fst = rs.filter fun r => σ.IsAnalytical r.type := by
  have hcounted : (σ.counted rs).map Prod.fst = rs := by
    rw [counted, List.mapIdx_eq_zipIdx_map, List.map_map]
    exact List.zipIdx_map_fst 0 rs
  conv_rhs => rw [← hcounted]
  rw [List.filter_map]
  rfl

/-- The analytical records of one type, with their counts. -/
def queriesOf (t : TransactionType) : List (TimingRecord × ℕ) :=
  (σ.queries rs).filter fun p => p.1.type == t

theorem valuesOf_eq (t : TransactionType) :
    σ.valuesOf rs t = (σ.queriesOf rs t).map (σ.value rs) := rfl

/-- All records of an analytical type are analytical. -/
theorem length_queriesOf {t : TransactionType} (h : σ.IsAnalytical t) :
    (σ.queriesOf rs t).length = rs.countP fun r => r.type == t := by
  have hmap : (σ.queriesOf rs t).map Prod.fst = rs.filter fun r => r.type == t := by
    change ((σ.queries rs).filter ((fun r : TimingRecord => r.type == t) ∘ Prod.fst)).map
      Prod.fst = _
    rw [← List.filter_map, map_fst_queries, List.filter_filter]
    refine List.filter_congr fun r _ => ?_
    by_cases hr : r.type == t
    · rw [hr, Bool.true_and, eq_of_beq hr, decide_eq_true h]
    · rw [Bool.eq_false_of_not_eq_true hr, Bool.false_and]
  rw [← List.length_map (f := Prod.fst), hmap, List.countP_eq_length_filter]

/-- The group of one type. -/
def group (t : TransactionType) : QueryGroup :=
  QueryGroup.ofRecords σ.table.range t ((σ.queriesOf rs t).map (σ.normalized rs))

/-- The groups of a list of types. -/
def groups (types : List TransactionType) : QueryGroups :=
  ⟨types.map (σ.group rs), σ.workers rs⟩

theorem recordsOf_normalized (t : TransactionType) :
    QueryGroups.recordsOf t ((σ.queries rs).map (σ.normalized rs)) =
      (σ.queriesOf rs t).map (σ.normalized rs) := by
  rw [QueryGroups.recordsOf, List.filter_map]
  rfl

/-- **The mean latency of a group.** -/
theorem meanLatency_group {t : TransactionType} (h : σ.IsAnalytical t) :
    (σ.group rs t).meanLatency = σ.meanOf rs t := by
  have hvalues : ((σ.queriesOf rs t).map (σ.normalized rs)).map NormalizedRecord.latency =
      σ.valuesOf rs t := by
    rw [List.map_map, valuesOf_eq]
    exact List.map_congr_left fun p hp => σ.latency_normalized rs (List.mem_filter.mp hp).1
  have hlength : (σ.valuesOf rs t).length = rs.countP fun r => r.type == t := by
    rw [valuesOf_eq, List.length_map, length_queriesOf σ rs h]
  calc (σ.group rs t).meanLatency
      = mean (((σ.queriesOf rs t).map (σ.normalized rs)).map NormalizedRecord.latency) := rfl
    _ = σ.meanOf rs t := by rw [hvalues, mean, hlength, total, meanOf]

theorem countWorkers_normalized :
    countWorkers ((σ.queries rs).map (σ.normalized rs)) = σ.workers rs := by
  rw [countWorkers, length_eraseDups, List.map_map, workers, ← map_fst_queries, List.map_map]
  rfl

/-- The types of the analytical records are the list of types. -/
theorem isTypeList_occurringTypes :
    σ.IsTypeList rs (QueryGroups.occurringTypes ((σ.queries rs).map (σ.normalized rs))) := by
  refine ⟨QueryGroups.pairwise_occurringTypes _, fun t => ?_⟩
  have htypes : ((σ.queries rs).map (σ.normalized rs)).map (fun r => r.record.type) =
      (rs.filter fun r => σ.IsAnalytical r.type).map TimingRecord.type := by
    rw [← map_fst_queries, List.map_map, List.map_map]
    rfl
  rw [QueryGroups.mem_occurringTypes, htypes, List.mem_map]
  constructor
  · rintro ⟨r, hr, rfl⟩
    obtain ⟨hin, ha⟩ := List.mem_filter.mp hr
    exact ⟨of_decide_eq_true ha, r, hin, rfl⟩
  · rintro ⟨ha, r, hr, rfl⟩
    exact ⟨r, List.mem_filter.mpr ⟨hr, decide_eq_true ha⟩, rfl⟩

variable {rs}

theorem IsTypeList.eq_nil_iff {types : List TransactionType} (h : σ.IsTypeList rs types) :
    types = [] ↔ ∀ r ∈ rs, ¬σ.IsAnalytical r.type := by
  rw [List.eq_nil_iff_forall_not_mem]
  constructor
  · intro hnot r hr ha
    exact hnot r.type ((h.mem_iff _).mpr ⟨ha, r, hr, rfl⟩)
  · intro hnot t ht
    obtain ⟨ha, r, hr, rfl⟩ := (h.mem_iff t).mp ht
    exact hnot r hr ha

/-- **Grouping a normalized log**: one group for each type that occurs. -/
theorem ofLog_normalize {log : TimingLog} {types : List TransactionType}
    (h : σ.IsTypeList log.records types) (hne : types ≠ []) :
    QueryGroups.ofLog (log.normalize σ.table σ.mode σ.newOrderId) =
      .ok (σ.groups log.records types) := by
  have htypes : QueryGroups.occurringTypes
      ((σ.queries log.records).map (σ.normalized log.records)) = types :=
    (σ.isTypeList_occurringTypes log.records).unique h
  have hanalytical : (log.normalize σ.table σ.mode σ.newOrderId).analytical ≠ [] := by
    rw [analytical_normalize, Ne, ← QueryGroups.occurringTypes_eq_nil_iff, htypes]
    exact hne
  rw [QueryGroups.ofLog_eq_ok hanalytical, QueryGroups.ofRecords, analytical_normalize, htypes]
  simp only [recordsOf_normalized, countWorkers_normalized]
  rfl

/-- Without an analytical record there is nothing to group. -/
theorem ofLog_normalize_eq_error {log : TimingLog}
    (h : ∀ r ∈ log.records, ¬σ.IsAnalytical r.type) :
    QueryGroups.ofLog (log.normalize σ.table σ.mode σ.newOrderId) =
      .error (.insufficientData (.noAnalyticalQueries σ.table.range)) := by
  have htypes : QueryGroups.occurringTypes
      ((σ.queries log.records).map (σ.normalized log.records)) = [] :=
    (IsTypeList.eq_nil_iff σ (σ.isTypeList_occurringTypes log.records)).mpr h
  refine QueryGroups.ofLog_eq_error (QueryGroups.occurringTypes_eq_nil_iff.mp ?_)
  rw [analytical_normalize, htypes]

end Scheme

end MixedWorkload

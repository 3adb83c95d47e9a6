import MixedWorkload.Proofs.Groups

/-!
# The metrics of a normalized log

The stages after grouping: throughput, and the metrics that are made of the mean latencies.
`MixedWorkload.Scheme.throughput_normalize` and `MixedWorkload.Scheme.computeBy_normalize`
say that they come to the metrics of `MixedWorkload.Scheme.metrics`, unless the policy is
strict and there is a type that `MixedWorkload.Scheme.IsRefused`. The failure then names the
least type of this kind (`MixedWorkload.Scheme.computeBy_normalize_eq_error`), since groups
are in the order of their types.
-/

namespace MixedWorkload

open Binary64

/-! ### Throughput -/

theorem isRunTime_eq (x : Float) : isRunTime x = decide (0.0 < x) := by
  rw [isRunTime, Bool.eq_iff_iff, Bool.not_eq_true', Bool.or_eq_false_iff, decide_eq_true_iff,
    decide_eq_false_iff_not]
  constructor
  · rintro ⟨hn, hle⟩
    exact (not_le hn rfl).mp hle
  · intro hlt
    have hn := (lt_iff.mp hlt).2.1
    exact ⟨hn, (not_le hn rfl).mpr hlt⟩

theorem not_zero_lt_of_units {x : Float} (h : units x = 0) : ¬0.0 < x := by
  intro hlt
  have hunits := (lt_iff.mp hlt).2.2
  rw [units_zero] at hunits
  omega

/-- **The span of the starts** is the duration wherever it counts: they are equal, or
neither is positive. -/
theorem span_starts (rs : List TimingRecord) :
    span (rs.map TimingRecord.start) = Scheme.duration rs ∨
      ¬0.0 < span (rs.map TimingRecord.start) ∧ ¬0.0 < Scheme.duration rs := by
  unfold Scheme.duration
  cases hl : leastNumber? (rs.map TimingRecord.start) with
  | none =>
    refine Or.inr ⟨?_, show ¬(0.0 : Float) < 0.0 by decide⟩
    rw [span, least_of_leastNumber?_eq_none hl,
      greatest_of_greatestNumber?_eq_none (greatestNumber?_eq_none_iff.mpr hl)]
    decide
  | some first =>
    obtain ⟨last, hg⟩ : ∃ last, greatestNumber? (rs.map TimingRecord.start) = some last := by
      refine Option.ne_none_iff_exists'.mp fun hnone => ?_
      rw [greatestNumber?_eq_none_iff.mp hnone] at hl
      exact absurd hl (Option.some_ne_none first).symm
    obtain ⟨hfirst, hunits⟩ := least_of_leastNumber? hl
    obtain ⟨hlast, hunits'⟩ := greatest_of_greatestNumber? hg
    rw [hg]
    rcases sub_congr (isNaN_greatest _) hlast (isNaN_least _) hfirst hunits' hunits with h | h
    · exact Or.inl h
    · exact Or.inr ⟨not_zero_lt_of_units h.1, not_zero_lt_of_units h.2⟩

/-! ### Refused means -/

namespace Scheme

variable (σ : Scheme) (rs : List TimingRecord)

/-- The strict policy refuses a type if its mean latency is no number, or not positive. -/
def IsRefused (t : TransactionType) : Prop :=
  (σ.meanOf rs t).isNaN = true ∨ σ.meanOf rs t ≤ 0.0

instance : DecidablePred (σ.IsRefused rs) :=
  fun _ => inferInstanceAs (Decidable (_ ∨ _))

theorem not_isPositiveMean (t : TransactionType) :
    (!isPositiveMean (σ.meanOf rs t)) = decide (σ.IsRefused rs t) := by
  rw [isPositiveMean, Bool.not_not, Bool.eq_iff_iff, Bool.or_eq_true, decide_eq_true_iff,
    decide_eq_true_iff, IsRefused]

theorem throughput_normalize (log : TimingLog) :
    (log.normalize σ.table σ.mode σ.newOrderId).throughput = σ.throughput log.records := by
  have hstarts : (log.normalize σ.table σ.mode σ.newOrderId).starts =
      log.records.map TimingRecord.start := by
    conv_rhs => rw [← σ.map_record_normalize log]
    rw [NormalizedLog.starts, List.map_map]
    rfl
  have hcount : (log.normalize σ.table σ.mode σ.newOrderId).newOrders.length =
      log.records.countP fun r => r.type == σ.newOrderId := by
    conv_rhs => rw [← σ.map_record_normalize log]
    rw [NormalizedLog.newOrders, List.countP_map, List.countP_eq_length_filter]
    rfl
  simp only [NormalizedLog.throughput, hstarts, hcount, isRunTime_eq, decide_eq_true_eq,
    Scheme.throughput]
  -- without a positive duration there is no throughput, whatever the duration is
  rcases span_starts log.records with h | ⟨hspan, hduration⟩
  · rw [h]
  · rw [if_neg hspan, if_neg hduration]

/-! ### The metrics -/

variable {rs}

/-- The mean latencies of the groups. -/
theorem meanLatencies_groups {types : List TransactionType} (h : σ.IsTypeList rs types) :
    (σ.groups rs types).meanLatencies = types.map (σ.meanOf rs) := by
  rw [QueryGroups.meanLatencies, groups, List.map_map]
  exact List.map_congr_left fun t ht => σ.meanLatency_group rs ((h.mem_iff t).mp ht).1

theorem isEmpty_groups {types : List TransactionType} (hne : types ≠ []) :
    (σ.groups rs types).isEmpty = false := by
  rw [QueryGroups.isEmpty, groups, List.isEmpty_eq_false_iff]
  exact fun hmap => hne (List.map_eq_nil_iff.mp hmap)

theorem find?_map_congr {α β : Type*} (f : α → β) {p : β → Bool} {q : α → Bool} {xs : List α}
    (h : ∀ x ∈ xs, p (f x) = q x) : (xs.map f).find? p = (xs.find? q).map f := by
  induction xs with
  | nil => rfl
  | cons x xs ih =>
    rw [List.map_cons, List.find?_cons, List.find?_cons, h x List.mem_cons_self,
      ih fun y hy => h y (List.mem_cons_of_mem _ hy)]
    cases q x <;> rfl

/-- The group that the strict policy stops at. -/
theorem firstNonPositive?_groups {types : List TransactionType} (h : σ.IsTypeList rs types) :
    (σ.groups rs types).firstNonPositive? =
      (types.find? fun t => σ.IsRefused rs t).map (σ.group rs) :=
  find?_map_congr (σ.group rs) fun t ht => by
    rw [σ.meanLatency_group rs ((h.mem_iff t).mp ht).1, not_isPositiveMean]

/-- With a type that is refused there is a first one. -/
theorem exists_find?_isRefused {types : List TransactionType} {t : TransactionType}
    (ht : t ∈ types) (hrefused : σ.IsRefused rs t) :
    ∃ t', (types.find? fun t => σ.IsRefused rs t) = some t' :=
  Option.ne_none_iff_exists'.mp fun hnone =>
    List.find?_eq_none.mp hnone t ht (decide_eq_true hrefused)

/-- **The first refused type is the least one.** -/
theorem IsTypeList.find?_isRefused {types : List TransactionType} (h : σ.IsTypeList rs types)
    {t : TransactionType} (ht : (types.find? fun t => σ.IsRefused rs t) = some t) :
    t ∈ types ∧ σ.IsRefused rs t ∧ ∀ t' ∈ types, σ.IsRefused rs t' → t ≤ t' := by
  obtain ⟨hrefused, before, after, rfl, hnot⟩ := List.find?_eq_some_iff_append.mp ht
  refine ⟨List.mem_append_right _ List.mem_cons_self, of_decide_eq_true hrefused, ?_⟩
  intro t' ht' hrefused'
  rcases List.mem_append.mp ht' with hin | hin
  · -- a refused type before `t` would have been found in its place
    have hno := hnot t' hin
    rw [decide_eq_true hrefused'] at hno
    cases hno
  · rcases List.mem_cons.mp hin with rfl | hin
    · exact UInt32.le_refl t'
    · have hasc := (List.pairwise_append.mp h.ascending).2.1
      exact UInt32.le_of_lt ((List.pairwise_cons.mp hasc).1 t' hin)

variable {types : List TransactionType} (h : σ.IsTypeList rs types) (hne : types ≠ [])

include h hne

/-- **The geometric mean of the groups**, when the policy does not refuse it. -/
theorem geometricMeanBy_groups (power : Float → Float → Float) {policy : MeanPolicy}
    (hpolicy : policy = .strict → ∀ t ∈ types, ¬σ.IsRefused rs t) :
    geometricMeanBy power policy (σ.groups rs types) =
      .ok (power ((types.map (σ.meanOf rs)).foldl (· * ·) 1.0) (1.0 / types.length.toFloat)) := by
  have hlength : (σ.groups rs types).length = types.length := List.length_map _
  unfold geometricMeanBy
  rw [isEmpty_groups σ hne, meanLatencies_groups σ h, firstNonPositive?_groups σ h, hlength]
  cases policy with
  | permissive => rfl
  | strict =>
    have hfind : (types.find? fun t => σ.IsRefused rs t) = none :=
      List.find?_eq_none.mpr fun t ht hrefused =>
        hpolicy rfl t ht (of_decide_eq_true hrefused)
    rw [hfind]
    rfl

/-- **Refused means**: the strict policy names the group of the first refused type. -/
theorem geometricMeanBy_groups_eq_error (power : Float → Float → Float) {t : TransactionType}
    (ht : (types.find? fun t => σ.IsRefused rs t) = some t) :
    geometricMeanBy power .strict (σ.groups rs types) =
      .error (.domain (.meanLatency ((σ.table.range.queryNumber t).getD 0) t
        (σ.meanOf rs t))) := by
  have hmem := ((h.mem_iff t).mp (h.find?_isRefused σ ht).1).1
  unfold geometricMeanBy
  rw [isEmpty_groups σ hne, firstNonPositive?_groups σ h, ht, ← meanLatency_group σ rs hmem]
  rfl

/-- **The metrics of a normalized log** are those of its records. -/
theorem computeBy_normalize {log : TimingLog} (hrs : log.records = rs)
    (hcount : σ.table.range.queryCount =
      σ.table.range.upper.toNat - σ.table.range.lower.toNat + 1)
    (power : Float → Float → Float) {policy : MeanPolicy}
    (hpolicy : policy = .strict → ∀ t ∈ types, ¬σ.IsRefused rs t) :
    Metrics.computeBy power σ.table.range policy
        (log.normalize σ.table σ.mode σ.newOrderId) (σ.groups rs types) =
      .ok (σ.metrics rs power types) := by
  have hset : querySetTime (σ.groups rs types) = σ.setTime rs types := by
    rw [querySetTime, meanLatencies_groups σ h, setTime]
  have hhour : queriesPerHour (σ.setTime rs types) σ.table.range.queryCount =
      σ.perHour rs types := by
    rw [queriesPerHour, hcount, perHour]
    rfl
  simp only [Metrics.computeBy, geometricMeanBy_groups σ h hne power hpolicy, bind, Except.bind,
    hset, hhour, throughput_normalize, hrs]
  rfl

theorem computeBy_normalize_eq_error (log : NormalizedLog) (power : Float → Float → Float)
    {t : TransactionType} (ht : (types.find? fun t => σ.IsRefused rs t) = some t) :
    Metrics.computeBy power σ.table.range .strict log (σ.groups rs types) =
      .error (.domain (.meanLatency ((σ.table.range.queryNumber t).getD 0) t
        (σ.meanOf rs t))) := by
  simp only [Metrics.computeBy, geometricMeanBy_groups_eq_error σ h hne power ht, bind,
    Except.bind]

end Scheme

end MixedWorkload

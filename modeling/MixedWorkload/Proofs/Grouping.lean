import MixedWorkload.Proofs.Definition
import MixedWorkload.Proofs.Keys

/-!
# Grouping in one pass

The records of a log are grouped in one pass, in which records of different types come in any
order. What this comes to is easier to say the other way round: take the types that occur, sort
them, and summarize the records of each type by themselves. That is
`MixedWorkload.QueryGroups.ofRecords`, and the pass makes the same groups
(`MixedWorkload.QueryGroups.ofLog_eq_ok`).

Two invariants carry the proof, one for each level. An accumulator sums up the records of its type
that have been seen (`MixedWorkload.GroupAccumulator.Sums`), and the map of accumulators has one
for each type that has been seen (`MixedWorkload.Grouping.Covers`). A record is pushed into the
accumulator of its type and leaves the others alone, because it is no record of their types.
-/

namespace MixedWorkload

/-! ### Summaries -/

/-- The sum of a list in its order, starting from zero. -/
def total (xs : List Float) : Float :=
  xs.foldl (· + ·) 0.0

/-- The sum divided by the number of summands. -/
def mean (xs : List Float) : Float :=
  total xs / xs.length.toFloat

/-- The extreme value of a list that is not empty, by a choice between two. -/
def extreme (choose : Float → Float → Float) : List Float → Float
  | [] => 0.0
  | x :: xs => xs.foldl choose x

/-- How many different workers executed the records of a list. -/
def countWorkers (rs : List NormalizedRecord) : Nat :=
  (rs.map fun r => r.record.worker).eraseDups.length

/-- The summary of the records of one type. -/
def QueryGroup.ofRecords (range : AnalyticalRange) (type : TransactionType)
    (rs : List NormalizedRecord) : QueryGroup :=
  let latencies := rs.map NormalizedRecord.latency
  let starts := rs.map fun r => r.record.start
  { type
    queryNumber := (range.queryNumber type).getD 0
    count := rs.length
    meanLatency := mean latencies
    minLatency := extreme lesser latencies
    maxLatency := extreme greater latencies
    firstStart := extreme lesser starts
    lastStart := extreme greater starts
    workerCount := countWorkers rs }

namespace QueryGroups

/-- The types that occur in a list of records, in ascending order. -/
def occurringTypes (rs : List NormalizedRecord) : List TransactionType :=
  (rs.map fun r => r.record.type).eraseDups.mergeSort (· ≤ ·)

/-- The records of one type. -/
def recordsOf (type : TransactionType) (rs : List NormalizedRecord) : List NormalizedRecord :=
  rs.filter fun r => r.record.type == type

/-- **The groups of a list of records**, type by type. -/
def ofRecords (range : AnalyticalRange) (rs : List NormalizedRecord) : QueryGroups where
  groups := (occurringTypes rs).map fun t => QueryGroup.ofRecords range t (recordsOf t rs)
  distinctWorkers := countWorkers rs

end QueryGroups

section Append

variable {α : Type} (value : α → Float) (as : List α) (a : α)

theorem total_append : total ((as ++ [a]).map value) = total (as.map value) + value a := by
  rw [total, List.map_append, List.foldl_append]
  rfl

/-- **The extreme value with one more member**, which is the extreme one if it is the only one. -/
theorem extreme_append (choose : Float → Float → Float) :
    extreme choose ((as ++ [a]).map value) =
      if as.length = 0 then value a else choose (extreme choose (as.map value)) (value a) := by
  rw [List.map_append]
  cases as with
  | nil => rfl
  | cons b bs =>
    have hne : (b :: bs).length ≠ 0 := Nat.succ_ne_zero _
    rw [if_neg hne]
    exact List.foldl_append

end Append

/-! ### Counting without repetition -/

theorem nodup_eraseDups {α : Type*} [BEq α] [LawfulBEq α] (xs : List α) : xs.eraseDups.Nodup := by
  match xs with
  | [] => exact List.nodup_nil
  | x :: xs =>
    rw [List.eraseDups_cons, List.nodup_cons]
    refine ⟨fun hmem => ?_, nodup_eraseDups _⟩
    have hx := (List.mem_filter.mp (List.mem_eraseDups.mp hmem)).2
    rw [beq_self_eq_true] at hx
    cases hx
termination_by xs.length
decreasing_by exact Nat.lt_succ_of_le (List.length_filter_le _ _)

/-- **Counting the members of a list once each** is counting the set of them. -/
theorem length_eraseDups {α : Type*} [DecidableEq α] (xs : List α) :
    xs.eraseDups.length = xs.toFinset.card := by
  rw [← List.toFinset_card_of_nodup (nodup_eraseDups xs)]
  refine congrArg Finset.card (Finset.ext fun x => ?_)
  rw [List.mem_toFinset, List.mem_toFinset, List.mem_eraseDups]

/-- **The workers of a list of records**, each of them once. -/
structure ListsWorkers (workers : List WorkerId) (rs : List NormalizedRecord) : Prop where
  /-- None of them is there twice. -/
  nodup : workers.Nodup
  /-- They are those of the records. -/
  mem_iff : ∀ w, w ∈ workers ↔ w ∈ rs.map fun r => r.record.worker

namespace ListsWorkers

variable {workers : List WorkerId} {rs : List NormalizedRecord}

theorem nil : ListsWorkers [] [] :=
  ⟨List.nodup_nil, fun _ => Iff.rfl⟩

theorem insert (h : ListsWorkers workers rs) (r : NormalizedRecord) :
    ListsWorkers (workers.insert r.record.worker) (rs ++ [r]) where
  nodup := h.nodup.insert
  mem_iff w := by
    rw [List.mem_insert_iff, h.mem_iff, List.map_append, List.mem_append, List.map_singleton,
      List.mem_singleton, or_comm]

theorem length_eq (h : ListsWorkers workers rs) : workers.length = countWorkers rs := by
  rw [countWorkers, length_eraseDups, ← List.toFinset_card_of_nodup h.nodup]
  refine congrArg Finset.card (Finset.ext fun w => ?_)
  rw [List.mem_toFinset, List.mem_toFinset, h.mem_iff]

end ListsWorkers

/-! ### The records of one type -/

/-- **An accumulator sums up records** if it is what seeing them one after the other leaves. -/
structure GroupAccumulator.Sums (a : GroupAccumulator) (rs : List NormalizedRecord) : Prop where
  /-- It counts them. -/
  count_eq : a.count = rs.length
  /-- It has the sum of their latencies, -/
  latencySum_eq : a.latencySum = total (rs.map NormalizedRecord.latency)
  /-- the least of these -/
  minLatency_eq : a.minLatency = extreme lesser (rs.map NormalizedRecord.latency)
  /-- and the greatest of them, -/
  maxLatency_eq : a.maxLatency = extreme greater (rs.map NormalizedRecord.latency)
  /-- their first start -/
  firstStart_eq : a.firstStart = extreme lesser (rs.map fun r => r.record.start)
  /-- and their last one. -/
  lastStart_eq : a.lastStart = extreme greater (rs.map fun r => r.record.start)
  /-- It has their workers. -/
  workers : ListsWorkers a.workers rs

namespace GroupAccumulator

variable {a : GroupAccumulator} {rs : List NormalizedRecord}

theorem sums_empty : empty.Sums [] :=
  ⟨rfl, rfl, rfl, rfl, rfl, rfl, .nil⟩

/-- **One more record** of the type. -/
theorem Sums.push (h : a.Sums rs) (r : NormalizedRecord) :
    (a.push r.latency r.record.start r.record.worker).Sums (rs ++ [r]) where
  count_eq := by rw [GroupAccumulator.push, h.count_eq, List.length_append, List.length_singleton]
  latencySum_eq := by
    rw [total_append, ← h.latencySum_eq]
    rfl
  minLatency_eq := by
    rw [extreme_append, ← h.minLatency_eq, ← h.count_eq]
    rfl
  maxLatency_eq := by
    rw [extreme_append, ← h.maxLatency_eq, ← h.count_eq]
    rfl
  firstStart_eq := by
    rw [extreme_append, ← h.firstStart_eq, ← h.count_eq]
    rfl
  lastStart_eq := by
    rw [extreme_append, ← h.lastStart_eq, ← h.count_eq]
    rfl
  workers := h.workers.insert r

/-- **The group of an accumulator** is the summary of the records that it has seen. -/
theorem Sums.group_eq (h : a.Sums rs) (range : AnalyticalRange) (t : TransactionType) :
    a.group range t = QueryGroup.ofRecords range t rs := by
  rw [group, h.count_eq, h.latencySum_eq, h.minLatency_eq, h.maxLatency_eq, h.firstStart_eq,
    h.lastStart_eq, h.workers.length_eq, QueryGroup.ofRecords, mean, List.length_map]

end GroupAccumulator

/-! ### The types that occur -/

namespace QueryGroups

variable {rs : List NormalizedRecord} {t : TransactionType}

theorem mem_occurringTypes :
    t ∈ occurringTypes rs ↔ t ∈ rs.map fun r => r.record.type := by
  rw [occurringTypes, List.mem_mergeSort, List.mem_eraseDups]

/-- **The occurring types ascend**, each of them only once. -/
theorem pairwise_occurringTypes (rs : List NormalizedRecord) :
    (occurringTypes rs).Pairwise (· < ·) := by
  have hsorted : (occurringTypes rs).Pairwise fun a b => decide (a ≤ b) = true := by
    refine List.pairwise_mergeSort (fun a b c hab hbc => ?_) (fun a b => ?_) _
    · exact decide_eq_true (UInt32.le_trans (of_decide_eq_true hab) (of_decide_eq_true hbc))
    · rw [Bool.or_eq_true, decide_eq_true_iff, decide_eq_true_iff]
      exact UInt32.le_total a b
  have hnodup : (occurringTypes rs).Nodup :=
    (List.mergeSort_perm _ _).nodup_iff.mpr (nodup_eraseDups _)
  -- sorted in the weak sense and without repetition is sorted in the strict sense
  refine (hsorted.and hnodup).imp fun {a b} h => ?_
  exact UInt32.lt_of_le_of_ne (of_decide_eq_true h.1) h.2

theorem occurringTypes_eq_nil_iff : occurringTypes rs = [] ↔ rs = [] := by
  rw [List.eq_nil_iff_forall_not_mem]
  simp only [mem_occurringTypes]
  rw [← List.eq_nil_iff_forall_not_mem, List.map_eq_nil_iff]

/-- **A type that does not occur** has no records. -/
theorem recordsOf_eq_nil (h : t ∉ rs.map fun r => r.record.type) : recordsOf t rs = [] := by
  rw [recordsOf, List.filter_eq_nil_iff]
  intro r hr hsame
  exact h (List.mem_map.mpr ⟨r, hr, eq_of_beq hsame⟩)

/-- One more record is one more record of its type, -/
theorem recordsOf_append_self (rs : List NormalizedRecord) (r : NormalizedRecord) :
    recordsOf r.record.type (rs ++ [r]) = recordsOf r.record.type rs ++ [r] := by
  rw [recordsOf, List.filter_append, List.filter_singleton, beq_self_eq_true]
  rfl

/-- and none of another type. -/
theorem recordsOf_append_of_ne {r : NormalizedRecord} (h : t ≠ r.record.type) :
    recordsOf t (rs ++ [r]) = recordsOf t rs := by
  rw [recordsOf, List.filter_append, List.filter_singleton, beq_eq_false_iff_ne.mpr h.symm]
  exact List.append_nil _

end QueryGroups

/-! ### The pass -/

open QueryGroups

/-- **A grouping covers records** if it has one accumulator for each of their types, in ascending
order, which sums up the records of this type. -/
structure Grouping.Covers (g : Grouping) (rs : List NormalizedRecord) : Prop where
  /-- The types ascend. -/
  ascending : g.byType.Pairwise fun a b => numberBefore a.1 b.1 = true
  /-- They are those of the records. -/
  mem_types : ∀ t, t ∈ g.byType.map Prod.fst ↔ t ∈ rs.map fun r => r.record.type
  /-- Each accumulator sums up the records of its type. -/
  sums : ∀ entry ∈ g.byType, entry.2.Sums (recordsOf entry.1 rs)
  /-- The workers are those of the records. -/
  workers : ListsWorkers g.workers rs

namespace Grouping

variable {g : Grouping} {rs : List NormalizedRecord}

/-- **What has been seen of a type**, whether it has occurred or not. -/
theorem Covers.sums_lookup (h : g.Covers rs) (t : TransactionType) :
    ((g.byType.lookup t).getD .empty).Sums (recordsOf t rs) := by
  cases hfound : g.byType.lookup t with
  | none =>
    have hnot : t ∉ g.byType.map Prod.fst := by
      intro hmem
      obtain ⟨entry, hentry, rfl⟩ := List.mem_map.mp hmem
      exact absurd (List.lookup_eq_none_iff.mp hfound entry hentry) (by simp)
    rw [recordsOf_eq_nil (mt (h.mem_types t).mpr hnot)]
    exact GroupAccumulator.sums_empty
  | some a =>
    obtain ⟨before, after, hentries, -⟩ := List.lookup_eq_some_iff.mp hfound
    exact h.sums (t, a) (hentries ▸ List.mem_append_right _ List.mem_cons_self)

/-- **One more record**: the accumulator of its type sums it up as well, and for the other types
nothing has changed. -/
theorem Covers.push (h : g.Covers rs) (r : NormalizedRecord) : (g.push r).Covers (rs ++ [r]) where
  ascending := pairwise_insertKeyed ordersKeys_numberBefore h.ascending _ _
  mem_types t := by
    rw [List.map_append, List.mem_append, List.map_singleton, List.mem_singleton, ← h.mem_types,
      List.mem_map, List.mem_map]
    simp only [Grouping.push, mem_insertKeyed_iff ordersKeys_numberBefore h.ascending]
    constructor
    · rintro ⟨entry, rfl | ⟨hentry, -⟩, rfl⟩
      · exact Or.inr rfl
      · exact Or.inl ⟨entry, hentry, rfl⟩
    · by_cases ht : t = r.record.type
      · exact fun _ => ⟨_, Or.inl rfl, ht.symm⟩
      · rintro (⟨entry, hentry, rfl⟩ | hsame)
        · exact ⟨entry, Or.inr ⟨hentry, ht⟩, rfl⟩
        · exact absurd hsame ht
  sums entry hentry := by
    rcases (mem_insertKeyed_iff ordersKeys_numberBefore h.ascending).mp hentry with
      rfl | ⟨hentry, hne⟩
    · rw [recordsOf_append_self]
      exact (h.sums_lookup _).push r
    · rw [recordsOf_append_of_ne hne]
      exact h.sums entry hentry
  workers := h.workers.insert r

/-- **The whole pass** covers all records. -/
theorem covers_foldl (rs : List NormalizedRecord) :
    (rs.foldl Grouping.push ⟨[], []⟩).Covers rs := by
  induction rs using List.reverseRecOn with
  | nil => exact ⟨.nil, fun _ => Iff.rfl, fun _ h => absurd h List.not_mem_nil, .nil⟩
  | append_singleton rs r ih =>
    rw [List.foldl_append]
    exact ih.push r

/-- The types of a grouping are those that occur. -/
theorem Covers.map_fst_eq (h : g.Covers rs) : g.byType.map Prod.fst = occurringTypes rs := by
  refine eq_of_ascending ?_ (pairwise_occurringTypes rs) fun t => ?_
  · exact List.pairwise_map.mpr (h.ascending.imp of_decide_eq_true)
  · rw [h.mem_types, mem_occurringTypes]

/-- **The groups of a grouping** are those of the types that occur. -/
theorem Covers.groups_eq (h : g.Covers rs) (range : AnalyticalRange) :
    (g.byType.map fun entry => entry.2.group range entry.1) =
      (occurringTypes rs).map fun t => QueryGroup.ofRecords range t (recordsOf t rs) := by
  rw [← h.map_fst_eq, List.map_map]
  exact List.map_congr_left fun entry hentry => (h.sums entry hentry).group_eq range entry.1

end Grouping

/-! ### The groups of a log -/

namespace QueryGroups

variable {log : NormalizedLog}

theorem isEmpty_byType_iff :
    (log.analytical.foldl Grouping.push ⟨[], []⟩).byType.isEmpty = true ↔ log.analytical = [] := by
  rw [List.isEmpty_iff, ← List.map_eq_nil_iff (f := Prod.fst),
    (Grouping.covers_foldl log.analytical).map_fst_eq, occurringTypes_eq_nil_iff]

/-- **Grouping succeeds** if there is an analytical record, -/
theorem ofLog_eq_ok (h : log.analytical ≠ []) :
    ofLog log = .ok (ofRecords log.range log.analytical) := by
  have hcovers := Grouping.covers_foldl log.analytical
  rw [ofLog, if_neg (mt isEmpty_byType_iff.mp h), hcovers.groups_eq, hcovers.workers.length_eq,
    ofRecords]

/-- and fails if there is none. -/
theorem ofLog_eq_error (h : log.analytical = []) :
    ofLog log = .error (.insufficientData (.noAnalyticalQueries log.range)) := by
  rw [ofLog, if_pos (isEmpty_byType_iff.mpr h)]

end QueryGroups

end MixedWorkload

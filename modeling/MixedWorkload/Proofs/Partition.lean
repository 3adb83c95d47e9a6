import MixedWorkload.Proofs.Groups
import MixedWorkload.Report.Plot

/-!
# Groups partition the queries

Grouping takes the analytical records of a normalized log apart by their types, and nothing
gets lost on the way: every record counts in the group of its type and in no other, and what
a group says of its records is what one would read off the list of them
(`MixedWorkload.QueryGroup.Summarizes`). `MixedWorkload.QueryGroups.Partitions` lists this for
the groups beside the records, and `MixedWorkload.NormalizedLog.partitions_ofLog` says that
grouping comes to it whenever there is a record to group.

Workers are the one thing that is not divided by the types. The same worker may execute many
queries, so the workers of the groups may be more than those of the log when added up, but
never fewer.
-/

namespace MixedWorkload

open Binary64

/-- **A group summarizes a list of records.** -/
structure QueryGroup.Summarizes (g : QueryGroup) (rs : List NormalizedRecord) : Prop where
  /-- The count is that of the records. -/
  count_eq : g.count = rs.length
  /-- There is a record. -/
  one_le_count : 1 ≤ g.count
  /-- The mean latency is the sum in the order of the records, divided by their count. -/
  meanLatency_eq : g.meanLatency =
    (rs.map NormalizedRecord.latency).foldl (· + ·) 0.0 / g.count.toFloat
  /-- The least latency is that of a record, and none is less. -/
  minLatency : IsLeastOf g.minLatency (rs.map NormalizedRecord.latency)
  /-- The greatest latency is that of a record, and none is greater. -/
  maxLatency : IsGreatestOf g.maxLatency (rs.map NormalizedRecord.latency)
  /-- The first start is that of a record, and none is earlier. -/
  firstStart : IsLeastOf g.firstStart (rs.map fun r => r.record.start)
  /-- The last start is that of a record, and none is later. -/
  lastStart : IsGreatestOf g.lastStart (rs.map fun r => r.record.start)
  /-- Workers are counted once each. -/
  workerCount_eq : g.workerCount = (rs.map fun r => r.record.worker).toFinset.card

/-- **Groups partition a list of records** by their types, for a range of these types. -/
structure QueryGroups.Partitions (q : QueryGroups) (range : AnalyticalRange)
    (rs : List NormalizedRecord) : Prop where
  /-- The types of the groups ascend. -/
  ascending : (q.groups.map QueryGroup.type).Pairwise (· < ·)
  /-- A type that occurs has one group. -/
  existsUnique_group : ∀ r ∈ rs, ∃! g, g ∈ q.groups ∧ g.type = r.record.type
  /-- A type that does not occur has none. -/
  occurs : ∀ g ∈ q.groups, ∃ r ∈ rs, r.record.type = g.type
  /-- A group has the number of its type, counted from one. -/
  queryNumber_eq : ∀ g ∈ q.groups, range.lower ≤ g.type ∧ g.type ≤ range.upper →
    g.queryNumber.toNat = g.type.toNat - range.lower.toNat + 1
  /-- A group summarizes the records of its type. -/
  summarizes : ∀ g ∈ q.groups, g.Summarizes (rs.filter fun r => r.record.type == g.type)
  /-- All records are counted. -/
  sum_count : (q.groups.map QueryGroup.count).sum = rs.length
  /-- The workers of all records are counted once each. -/
  distinctWorkers_eq : q.distinctWorkers = (rs.map fun r => r.record.worker).toFinset.card
  /-- No group has more workers than all of them. -/
  workerCount_le : ∀ g ∈ q.groups, g.workerCount ≤ q.distinctWorkers
  /-- All of them have no more workers than the groups together. -/
  distinctWorkers_le : q.distinctWorkers ≤ (q.groups.map QueryGroup.workerCount).sum
  /-- The plotted series has a point for each group. -/
  latencySeries : List.Forall₂ (fun g point =>
      point.queryNumber = g.queryNumber ∧ point.type = g.type ∧
        point.meanLatency = g.meanLatency)
    q.groups q.latencySeries

/-! ### One group -/

section Group

variable {range : AnalyticalRange} {t : TransactionType} {rs : List NormalizedRecord}

/-- **The least value of a list of numbers** is what the group of their records has. -/
theorem isLeastOf_extreme {xs : List Float} (hne : xs ≠ []) (h : ∀ x ∈ xs, x.isNaN = false) :
    IsLeastOf (extreme lesser xs) xs := by
  obtain ⟨x, hx⟩ := List.exists_mem_of_ne_nil xs hne
  exact (isFirst_extreme measures_lt hx (h x hx)).isLeastOf h

theorem isGreatestOf_extreme {xs : List Float} (hne : xs ≠ []) (h : ∀ x ∈ xs, x.isNaN = false) :
    IsGreatestOf (extreme greater xs) xs := by
  obtain ⟨x, hx⟩ := List.exists_mem_of_ne_nil xs hne
  exact (isFirst_extreme measures_gt hx (h x hx)).isGreatestOf h

/-- The workers of a list of records, as they are counted. -/
theorem countWorkers_eq_card (rs : List NormalizedRecord) :
    countWorkers rs = (rs.map fun r => r.record.worker).toFinset.card :=
  length_eraseDups _

/-- **The group of some records summarizes them**, if their latencies and starts are numbers. -/
theorem summarizes_ofRecords (range : AnalyticalRange) (t : TransactionType) (hne : rs ≠ [])
    (hlatency : ∀ r ∈ rs, r.latency.isNaN = false)
    (hstart : ∀ r ∈ rs, r.record.start.isNaN = false) :
    (QueryGroup.ofRecords range t rs).Summarizes rs := by
  have hlatencies : ∀ x ∈ rs.map NormalizedRecord.latency, x.isNaN = false :=
    List.forall_mem_map.mpr hlatency
  have hstarts : ∀ x ∈ rs.map (fun r => r.record.start), x.isNaN = false :=
    List.forall_mem_map.mpr hstart
  have hmap {α : Type} (f : NormalizedRecord → α) : rs.map f ≠ [] :=
    fun h => hne (List.map_eq_nil_iff.mp h)
  have hmean : (rs.map NormalizedRecord.latency).length = rs.length := List.length_map _
  exact {
    count_eq := rfl
    one_le_count := List.length_pos_iff.mpr hne
    meanLatency_eq := by
      change total _ / (rs.map NormalizedRecord.latency).length.toFloat = _
      rw [hmean]
      rfl
    minLatency := isLeastOf_extreme (hmap _) hlatencies
    maxLatency := isGreatestOf_extreme (hmap _) hlatencies
    firstStart := isLeastOf_extreme (hmap _) hstarts
    lastStart := isGreatestOf_extreme (hmap _) hstarts
    workerCount_eq := countWorkers_eq_card rs }

end Group

/-! ### All groups -/

namespace QueryGroups

variable {range : AnalyticalRange} {rs : List NormalizedRecord}

/-- The types of the groups are those that occur. -/
theorem map_type_groups : (ofRecords range rs).groups.map QueryGroup.type = occurringTypes rs := by
  rw [ofRecords, List.map_map]
  exact List.map_id _

/-- **The counts of the groups** add up to the number of records. -/
theorem sum_count_groups :
    ((ofRecords range rs).groups.map QueryGroup.count).sum = rs.length := by
  have hnodup : (occurringTypes rs).Nodup := (pairwise_occurringTypes rs).imp UInt32.ne_of_lt
  rw [← sum_countP_eq_length (fun r : NormalizedRecord => r.record.type) hnodup fun r hr =>
    mem_occurringTypes.mpr (List.mem_map_of_mem hr)]
  rw [ofRecords, List.map_map]
  refine congrArg List.sum (List.map_congr_left fun t _ => ?_)
  exact List.countP_eq_length_filter.symm

/-- The workers of a group are among those of all records. -/
theorem workerCount_le {g : QueryGroup} (hg : g ∈ (ofRecords range rs).groups) :
    g.workerCount ≤ (ofRecords range rs).distinctWorkers := by
  obtain ⟨t, -, rfl⟩ := mem_groups.mp hg
  change countWorkers (recordsOf t rs) ≤ countWorkers rs
  rw [countWorkers_eq_card, countWorkers_eq_card]
  refine Finset.card_le_card fun w hw => ?_
  rw [List.mem_toFinset] at hw ⊢
  exact List.map_subset _ (List.filter_subset_self rs) hw

/-- **Every worker is in a group.** -/
theorem distinctWorkers_le : (ofRecords range rs).distinctWorkers ≤
    ((ofRecords range rs).groups.map QueryGroup.workerCount).sum := by
  have hnodup : (occurringTypes rs).Nodup := (pairwise_occurringTypes rs).imp UInt32.ne_of_lt
  have hgroups : (ofRecords range rs).groups.map QueryGroup.workerCount =
      (occurringTypes rs).map fun t =>
        ((recordsOf t rs).map fun r => r.record.worker).toFinset.card := by
    rw [ofRecords, List.map_map]
    exact List.map_congr_left fun t _ => countWorkers_eq_card _
  change countWorkers rs ≤ _
  rw [hgroups, countWorkers_eq_card, ← List.sum_toFinset _ hnodup]
  refine le_trans (Finset.card_le_card fun w hw => ?_) Finset.card_biUnion_le
  obtain ⟨r, hr, rfl⟩ := List.mem_map.mp (List.mem_toFinset.mp hw)
  refine Finset.mem_biUnion.mpr ⟨r.record.type, ?_, ?_⟩
  · exact List.mem_toFinset.mpr (mem_occurringTypes.mpr (List.mem_map_of_mem hr))
  · exact List.mem_toFinset.mpr
      (List.mem_map_of_mem (List.mem_filter.mpr ⟨hr, beq_self_eq_true _⟩))

/-- **The groups of a list of records partition it**, if latencies and starts are numbers. -/
theorem partitions_ofRecords (hrange : range ≠ ⟨0, 4294967295⟩)
    (hlatency : ∀ r ∈ rs, r.latency.isNaN = false)
    (hstart : ∀ r ∈ rs, r.record.start.isNaN = false) :
    (ofRecords range rs).Partitions range rs where
  ascending := by
    rw [map_type_groups]
    exact pairwise_occurringTypes rs
  existsUnique_group r hr := by
    have ht : r.record.type ∈ occurringTypes rs :=
      mem_occurringTypes.mpr (List.mem_map_of_mem hr)
    refine ⟨_, ⟨mem_groups.mpr ⟨_, ht, rfl⟩, rfl⟩, ?_⟩
    rintro g ⟨hg, htype⟩
    obtain ⟨t, -, rfl⟩ := mem_groups.mp hg
    obtain rfl : t = r.record.type := htype
    rfl
  occurs g hg := by
    obtain ⟨t, ht, rfl⟩ := mem_groups.mp hg
    exact List.mem_map.mp (mem_occurringTypes.mp ht)
  queryNumber_eq g hg hin := by
    obtain ⟨t, -, rfl⟩ := mem_groups.mp hg
    exact AnalyticalRange.toNat_queryNumber (AnalyticalRange.width_lt_of_ne hrange) hin
  summarizes g hg := by
    obtain ⟨t, ht, rfl⟩ := mem_groups.mp hg
    exact summarizes_ofRecords range t (recordsOf_ne_nil ht)
      (fun r hr => hlatency r (List.mem_of_mem_filter hr))
      fun r hr => hstart r (List.mem_of_mem_filter hr)
  sum_count := sum_count_groups
  distinctWorkers_eq := countWorkers_eq_card rs
  workerCount_le _ hg := workerCount_le hg
  distinctWorkers_le := distinctWorkers_le
  latencySeries := by
    rw [latencySeries, List.forall₂_map_right_iff]
    exact List.forall₂_same.mpr fun g _ => ⟨rfl, rfl, rfl⟩

end QueryGroups

/-- **Grouping partitions the analytical records** of a normalized log whose latencies and starts
are numbers, and fails if and only if there are none. -/
theorem NormalizedLog.partitions_ofLog (log : NormalizedLog)
    (hrange : log.range ≠ ⟨0, 4294967295⟩)
    (hlatency : ∀ r ∈ log.analytical, r.latency.isNaN = false)
    (hstart : ∀ r ∈ log.analytical, r.record.start.isNaN = false) :
    (QueryGroups.ofLog log = .error (.insufficientData (.noAnalyticalQueries log.range)) ↔
        log.analytical = []) ∧
      (log.analytical ≠ [] → ∃ q, QueryGroups.ofLog log = .ok q ∧
        q.Partitions log.range log.analytical) := by
  refine ⟨⟨fun h => ?_, QueryGroups.ofLog_eq_error⟩, fun hne => ?_⟩
  · by_contra hne
    rw [QueryGroups.ofLog_eq_ok hne] at h
    cases h
  · exact ⟨_, QueryGroups.ofLog_eq_ok hne,
      QueryGroups.partitions_ofRecords hrange hlatency hstart⟩

/-- Two queries executed in turns by two workers, one of whom executes both. -/
def interleavedLog : NormalizedLog :=
  (⟨[⟨9, 0.0, 1.5, "a", 0⟩, ⟨7, 0.5, 0.25, "b", 0⟩, ⟨2, 1.0, 0.1, "c", 0⟩, ⟨9, 1.5, 0.5, "b", 0⟩,
    ⟨7, 2.0, 3.0, "b", 0⟩]⟩ : TimingLog).normalize .reference .subtractive 2

/-- The groups of the two queries partition their executions. -/
theorem partitions_interleavedLog :
    interleavedLog.range ≠ ⟨0, 4294967295⟩ ∧
      (∀ r ∈ interleavedLog.analytical, r.latency.isNaN = false) ∧
      (∀ r ∈ interleavedLog.analytical, r.record.start.isNaN = false) ∧
      interleavedLog.analytical ≠ [] ∧
      ∃ q, QueryGroups.ofLog interleavedLog = .ok q ∧
        q.Partitions interleavedLog.range interleavedLog.analytical := by
  have hrange : interleavedLog.range ≠ ⟨0, 4294967295⟩ := by decide +kernel
  have hlatency : ∀ r ∈ interleavedLog.analytical, r.latency.isNaN = false := by decide +kernel
  have hstart : ∀ r ∈ interleavedLog.analytical, r.record.start.isNaN = false := by
    decide +kernel
  have hne : interleavedLog.analytical ≠ [] := by
    rw [← List.length_pos_iff]
    decide +kernel
  exact ⟨hrange, hlatency, hstart, hne,
    (interleavedLog.partitions_ofLog hrange hlatency hstart).2 hne⟩

end MixedWorkload

import MixedWorkload.Proofs.Noninterference
import MixedWorkload.Proofs.Partition

/-!
# The order between two NewOrders

The order of a log matters only through its NewOrders. Between two of them every record is
corrected by the same count, so that records may change places there without any effect on what
normalization makes of each: `MixedWorkload.TimingLog.reorders_normalize`. Lifting does not see
the order either, since it looks for the least latency, and a list has the same least number
in any order.

Groups are made of the same records then, and what they say agrees as far as it does not depend
on the order in which numbers are added. Extremes are the same numbers, but of a positive and a
negative zero the one that stands last is found, so `MixedWorkload.SameNumber` leaves the sign of
a zero open.
-/

namespace MixedWorkload

open Binary64

/-! ### Numerical equality -/

/-- **Numerically equal**: the same number, whatever the sign of a zero. What is no number is
the same as what is none either. -/
def SameNumber (x y : Float) : Prop :=
  (x == y) = true ∨ x.isNaN = true ∧ y.isNaN = true

theorem beq_of_units_eq {x y : Float} (hx : x.isNaN = false) (hy : y.isNaN = false)
    (h : units x = units y) : (x == y) = true := by
  rw [beq_iff_toRat hx hy, toRat, toRat, h]

theorem SameNumber.beq {x y : Float} (h : SameNumber x y) (hx : x.isNaN = false) :
    (x == y) = true := by
  rcases h with h | ⟨hnan, -⟩
  · exact h
  · rw [hx] at hnan
    cases hnan

/-- **The extreme value of a list in any order** is the same number. -/
theorem sameNumber_extreme {before : Float → Float → Prop} [DecidableRel before]
    {key : Float → ℤ} (hkey : Measures key before) (hunits : ∀ x y, key x = key y → units x = units y)
    {xs ys : List Float} (h : xs.Perm ys) (hne : xs ≠ []) :
    SameNumber (extreme (keep before) xs) (extreme (keep before) ys) := by
  by_cases hall : ∀ v ∈ xs, v.isNaN = true
  · have hmem (x y : Float) : keep before x y ∈ [x, y] := by
      unfold keep
      split <;> simp
    have hne' : ys ≠ [] := fun hnil => hne (h.trans (List.Perm.of_eq hnil)).eq_nil
    exact Or.inr ⟨hall _ (extreme_mem hmem hne),
      hall _ (h.mem_iff.mpr (extreme_mem hmem hne'))⟩
  · obtain ⟨v, hv, hn⟩ : ∃ v ∈ xs, v.isNaN = false := by simpa using hall
    have hx := isFirst_extreme hkey hv hn
    have hy := isFirst_extreme hkey (h.mem_iff.mp hv) hn
    exact Or.inl (beq_of_units_eq hx.isNumber hy.isNumber
      (hunits _ _ ((hx.perm h).key_eq hy)))

/-! ### The same records in another order -/

/-- **Groups that agree** in all that does not depend on the order of their records. -/
structure QueryGroup.AgreesWith (g g' : QueryGroup) : Prop where
  /-- They are of the same type, -/
  type_eq : g.type = g'.type
  /-- which is the same query. -/
  queryNumber_eq : g.queryNumber = g'.queryNumber
  /-- It was executed as often -/
  count_eq : g.count = g'.count
  /-- by as many workers. -/
  workerCount_eq : g.workerCount = g'.workerCount
  /-- The least latencies are the same number, -/
  minLatency : SameNumber g.minLatency g'.minLatency
  /-- and so are the greatest. -/
  maxLatency : SameNumber g.maxLatency g'.maxLatency
  /-- The first starts are equal, -/
  firstStart : (g.firstStart == g'.firstStart) = true
  /-- and so are the last. -/
  lastStart : (g.lastStart == g'.lastStart) = true

/-- **Grouping ends alike**: with the same failure, or with groups that agree, one by one, and
have as many workers together. -/
inductive QueryGroups.EndAlike : Except Error QueryGroups → Except Error QueryGroups → Prop
  /-- There is nothing to group in either. -/
  | error (fault : Error) : EndAlike (.error fault) (.error fault)
  /-- There are groups, of the same types. -/
  | ok {q q' : QueryGroups} (hgroups : List.Forall₂ QueryGroup.AgreesWith q.groups q'.groups)
      (hworkers : q.distinctWorkers = q'.distinctWorkers) : EndAlike (.ok q) (.ok q')

section Perm

variable {rs rs' : List NormalizedRecord} (h : rs.Perm rs')

include h

theorem countWorkers_of_perm : countWorkers rs = countWorkers rs' := by
  rw [countWorkers_eq_card, countWorkers_eq_card,
    List.toFinset_eq_of_perm _ _ (h.map fun r => r.record.worker)]

theorem occurringTypes_of_perm :
    QueryGroups.occurringTypes rs = QueryGroups.occurringTypes rs' := by
  refine eq_of_ascending (QueryGroups.pairwise_occurringTypes rs)
    (QueryGroups.pairwise_occurringTypes rs') fun t => ?_
  rw [QueryGroups.mem_occurringTypes, QueryGroups.mem_occurringTypes,
    (h.map fun r => r.record.type).mem_iff]

/-- **The group of reordered records** agrees with that of the records, if their starts are
numbers. -/
theorem agreesWith_of_perm (range : AnalyticalRange) (t : TransactionType) (hne : rs ≠ [])
    (hstart : ∀ r ∈ rs, r.record.start.isNaN = false) :
    (QueryGroup.ofRecords range t rs).AgreesWith (QueryGroup.ofRecords range t rs') := by
  have hlatencies := h.map NormalizedRecord.latency
  have hstarts := h.map fun r => r.record.start
  have hmap {α : Type} (f : NormalizedRecord → α) : rs.map f ≠ [] :=
    fun hnil => hne (List.map_eq_nil_iff.mp hnil)
  have hnumber : ∀ x ∈ rs.map (fun r => r.record.start), x.isNaN = false :=
    List.forall_mem_map.mpr hstart
  have hlt : ∀ x y, units x = units y → units x = units y := fun _ _ => id
  have hgt : ∀ x y, -units x = -units y → units x = units y := fun _ _ => neg_inj.mp
  exact {
    type_eq := rfl
    queryNumber_eq := rfl
    count_eq := h.length_eq
    workerCount_eq := countWorkers_of_perm h
    minLatency := sameNumber_extreme measures_lt hlt hlatencies (hmap _)
    maxLatency := sameNumber_extreme measures_gt hgt hlatencies (hmap _)
    firstStart := (sameNumber_extreme measures_lt hlt hstarts (hmap _)).beq
      (hnumber _ (extreme_mem lesser_mem (hmap _)))
    lastStart := (sameNumber_extreme measures_gt hgt hstarts (hmap _)).beq
      (hnumber _ (extreme_mem greater_mem (hmap _))) }

/-- **Lifting does not see the order**: it does the same to each record. -/
theorem exists_liftNegative_eq_map : ∃ lift : NormalizedRecord → NormalizedRecord,
    (∀ r, (lift r).record = r.record) ∧ (liftNegative rs).1 = rs.map lift ∧
      (liftNegative rs').1 = rs'.map lift ∧ (liftNegative rs).2 = (liftNegative rs').2 := by
  have hunits : units (leastLatency rs) = units (leastLatency rs') :=
    units_least_of_perm ((h.filter _).map _)
  have hnumber (rs : List NormalizedRecord) : (leastLatency rs).isNaN = false := isNaN_least _
  have htest (rs : List NormalizedRecord) :
      ((leastLatency rs).isNaN || decide (leastLatency rs ≥ 0.0)) = true ↔
        0 ≤ units (leastLatency rs) := by
    rw [hnumber rs, Bool.false_or, decide_eq_true_iff, ge_iff_le, le_iff, units_zero]
    exact ⟨fun hle => hle.2.2, fun hle => ⟨rfl, hnumber rs, hle⟩⟩
  by_cases hlow : 0 ≤ units (leastLatency rs)
  · refine ⟨id, fun _ => rfl, ?_⟩
    rw [liftNegative, if_pos ((htest rs).mpr hlow), liftNegative,
      if_pos ((htest rs').mpr (hunits ▸ hlow)), List.map_id, List.map_id]
    exact ⟨rfl, rfl, rfl⟩
  · -- a negative number is no zero, so that both lists are lifted by the same double
    have heq : leastLatency rs = leastLatency rs' := eq_of_units_eq hunits (by omega)
    refine ⟨fun r => if r.analytical then { r with latency := r.latency - leastLatency rs } else r,
      fun r => ?_, ?_⟩
    · show (if _ then _ else r : NormalizedRecord).record = r.record
      split <;> rfl
    · rw [liftNegative, if_neg (mt (htest rs).mp hlow), liftNegative,
        if_neg (mt (htest rs').mp (hunits ▸ hlow)), ← heq]
      exact ⟨rfl, rfl, rfl⟩

end Perm

/-- **Grouping reordered records** ends alike. -/
theorem QueryGroups.endAlike_of_perm {n n' : NormalizedLog} (hrange : n.range = n'.range)
    (h : n.analytical.Perm n'.analytical)
    (hstart : ∀ r ∈ n.analytical, r.record.start.isNaN = false) :
    EndAlike (ofLog n) (ofLog n') := by
  by_cases hne : n.analytical = []
  · rw [ofLog_eq_error hne, ofLog_eq_error (hne ▸ h).symm.eq_nil, hrange]
    exact .error _
  · have hne' : n'.analytical ≠ [] := fun hnil => hne (hnil ▸ h).eq_nil
    rw [ofLog_eq_ok hne, ofLog_eq_ok hne', ← hrange]
    refine .ok ?_ (countWorkers_of_perm h)
    rw [ofRecords, ofRecords, ← occurringTypes_of_perm h, List.forall₂_map_left_iff,
      List.forall₂_map_right_iff, List.forall₂_same]
    exact fun t ht => agreesWith_of_perm (h.filter _) n.range t (recordsOf_ne_nil ht)
      fun r hr => hstart r (List.mem_of_mem_filter hr)

/-! ### A part without NewOrders -/

section Walk

variable (table : FactorTable) (mode : NormalizationMode) {newOrderId : TransactionType}

/-- **Between two NewOrders the count stays the same.** -/
theorem annotate_of_forall_ne (k : ℕ) {rs : List TimingRecord}
    (h : ∀ r ∈ rs, r.type ≠ newOrderId) :
    annotate table mode newOrderId k rs = rs.map (normalizeRecord table mode k) := by
  induction rs with
  | nil => rfl
  | cons r rs ih =>
    rw [annotate, if_neg (h r List.mem_cons_self), List.map_cons,
      ih fun s hs => h s (List.mem_cons_of_mem r hs)]

/-- The three parts of a walk. -/
theorem annotate_append_append (front back : List TimingRecord) {middle : List TimingRecord}
    (h : ∀ r ∈ middle, r.type ≠ newOrderId) :
    annotate table mode newOrderId 0 (front ++ middle ++ back) =
      annotate table mode newOrderId 0 front ++
        middle.map (normalizeRecord table mode (front.countP fun r => r.type = newOrderId)) ++
        annotate table mode newOrderId (front.countP fun r => r.type = newOrderId) back := by
  have hnone : (middle.countP fun r => r.type = newOrderId) = 0 :=
    List.countP_eq_zero.mpr fun r hr => by simpa using h r hr
  rw [annotate_append, annotate_append, List.countP_append, hnone, Nat.zero_add, Nat.zero_add,
    Nat.add_zero, annotate_of_forall_ne table mode _ h]

theorem map_record_annotate (k : ℕ) (rs : List TimingRecord) :
    (annotate table mode newOrderId k rs).map NormalizedRecord.record = rs := by
  induction rs generalizing k with
  | nil => rfl
  | cons r rs ih => rw [annotate, List.map_cons, ih, normalizeRecord]

end Walk

/-- **Two normalized logs that differ in the order of a middle part.** -/
structure NormalizedLog.Reorders (n n' : NormalizedLog)
    (front middle middle' back : List TimingRecord) : Prop where
  /-- The records before and behind it are normalized to the same in both, and in the middle a
  record is normalized to the same in whichever place it stands. -/
  records : ∃ (fronts backs : List NormalizedRecord) (normalized : TimingRecord → NormalizedRecord),
    fronts.map NormalizedRecord.record = front ∧ backs.map NormalizedRecord.record = back ∧
      (∀ r, (normalized r).record = r) ∧
      n.records = fronts ++ middle.map normalized ++ backs ∧
      n'.records = fronts ++ middle'.map normalized ++ backs
  /-- The same was taken off all queries. -/
  correction_eq : n.correction = n'.correction
  /-- The groups of the queries agree, or there are none. -/
  groups : (∀ r ∈ front ++ middle ++ back, r.start.isNaN = false) →
    QueryGroups.EndAlike (QueryGroups.ofLog n) (QueryGroups.ofLog n')

namespace TimingLog

variable (table : FactorTable) (mode : NormalizationMode) {newOrderId : TransactionType}
  (front back : List TimingRecord) {middle middle' : List TimingRecord}

/-- Parts in another order are normalized by the same function of what the walk has made of
them. -/
theorem exists_normalize_eq_map (log log' : TimingLog)
    (h : (annotate table mode newOrderId 0 log.records).Perm
      (annotate table mode newOrderId 0 log'.records)) :
    ∃ lift : NormalizedRecord → NormalizedRecord, (∀ r, (lift r).record = r.record) ∧
      (log.normalize table mode newOrderId).records =
        (annotate table mode newOrderId 0 log.records).map lift ∧
      (log'.normalize table mode newOrderId).records =
        (annotate table mode newOrderId 0 log'.records).map lift ∧
      (log.normalize table mode newOrderId).correction =
        (log'.normalize table mode newOrderId).correction := by
  rcases mode with _ | s
  · exact exists_liftNegative_eq_map h
  · exact ⟨id, fun _ => rfl, (List.map_id _).symm, (List.map_id _).symm, rfl⟩

/-- **Reordering between two NewOrders** changes nothing but the order. -/
theorem reorders_normalize (hperm : middle.Perm middle')
    (hnone : ∀ r ∈ middle, r.type ≠ newOrderId) :
    (normalize ⟨front ++ middle ++ back⟩ table mode newOrderId).Reorders
      (normalize ⟨front ++ middle' ++ back⟩ table mode newOrderId) front middle middle' back := by
  have hnone' : ∀ r ∈ middle', r.type ≠ newOrderId := fun r hr => hnone r (hperm.mem_iff.mpr hr)
  have hwalk := annotate_append_append table mode front back hnone
  have hwalk' := annotate_append_append table mode front back hnone'
  set k := front.countP fun r => r.type = newOrderId
  have hannotated : (annotate table mode newOrderId 0 (front ++ middle ++ back)).Perm
      (annotate table mode newOrderId 0 (front ++ middle' ++ back)) := by
    rw [hwalk, hwalk']
    exact ((hperm.map _).append_left _).append_right _
  obtain ⟨lift, hlift, hrecords, hrecords', hcorrection⟩ :=
    exists_normalize_eq_map table mode ⟨front ++ middle ++ back⟩ ⟨front ++ middle' ++ back⟩
      hannotated
  have hrecord : NormalizedRecord.record ∘ lift = NormalizedRecord.record := funext hlift
  have hpart (k : ℕ) (rs : List TimingRecord) :
      ((annotate table mode newOrderId k rs).map lift).map NormalizedRecord.record = rs := by
    rw [List.map_map, hrecord, map_record_annotate]
  refine ⟨⟨(annotate table mode newOrderId 0 front).map lift,
    (annotate table mode newOrderId k back).map lift, lift ∘ normalizeRecord table mode k,
    hpart 0 front, hpart k back, fun r => hlift _, ?_, ?_⟩, hcorrection, fun hstart => ?_⟩
  · rw [hrecords, hwalk, List.map_append, List.map_append, List.map_map]
  · rw [hrecords', hwalk', List.map_append, List.map_append, List.map_map]
  · have hanalytical := (hannotated.map lift).filter NormalizedRecord.analytical
    rw [← hrecords, ← hrecords'] at hanalytical
    refine QueryGroups.endAlike_of_perm rfl hanalytical fun r hr => hstart _ ?_
    have hmem := List.mem_map_of_mem (f := NormalizedRecord.record) (List.mem_of_mem_filter hr)
    rwa [Scheme.map_record_normalize ⟨table, mode, newOrderId⟩] at hmem

/-- A query that is lifted from below zero. -/
def liftedQuery : TimingRecord := ⟨7, 1.0, 0.25, "a", 0⟩

/-- Another query by the same worker. -/
def slowQuery : TimingRecord := ⟨8, 2.0, 3.0, "a", 1⟩

/-- What is above the two queries, a NewOrder. -/
def firstRecords : List TimingRecord := [⟨2, 0.0, 0.1, "a", 0⟩]

/-- What is below them, another NewOrder and one more query. -/
def lastRecords : List TimingRecord := [⟨2, 3.0, 0.1, "a", 1⟩, ⟨7, 4.0, 1.0, "b", 1⟩]

/-- The log with given records between the two NewOrders, normalized. -/
def normalizedAround (middle : List TimingRecord) : NormalizedLog :=
  normalize ⟨firstRecords ++ middle ++ lastRecords⟩ ⟨⟨7, 8⟩, [0.5, 0.25]⟩ .subtractive 2

/-- The two queries between two NewOrders may change places. -/
theorem reorders_twoQueries :
    [liftedQuery, slowQuery].Perm [slowQuery, liftedQuery] ∧
      (∀ r ∈ [liftedQuery, slowQuery], r.type ≠ 2) ∧
      (normalizedAround [liftedQuery, slowQuery]).Reorders
        (normalizedAround [slowQuery, liftedQuery])
        firstRecords [liftedQuery, slowQuery] [slowQuery, liftedQuery] lastRecords ∧
      QueryGroups.EndAlike (QueryGroups.ofLog (normalizedAround [liftedQuery, slowQuery]))
        (QueryGroups.ofLog (normalizedAround [slowQuery, liftedQuery])) := by
  have hperm : [liftedQuery, slowQuery].Perm [slowQuery, liftedQuery] := .swap _ _ []
  have hnone : ∀ r ∈ [liftedQuery, slowQuery], r.type ≠ 2 := by decide +kernel
  have hstart : ∀ r ∈ firstRecords ++ [liftedQuery, slowQuery] ++ lastRecords,
      r.start.isNaN = false := by decide +kernel
  have hreorders := reorders_normalize ⟨⟨7, 8⟩, [0.5, 0.25]⟩ .subtractive firstRecords lastRecords
    hperm hnone
  exact ⟨hperm, hnone, hreorders, hreorders.groups hstart⟩

end TimingLog

end MixedWorkload

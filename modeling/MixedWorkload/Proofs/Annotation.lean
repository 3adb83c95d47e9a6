import MixedWorkload.Proofs.Noninterference

/-!
# What normalization keeps

Normalization adds to a log and takes nothing away. Every record is still there, in its
place and as it was; what is not a query keeps its latency, even when all queries are
lifted; and the count that goes with a record is the number of NewOrders at or above it,
the record itself included. `MixedWorkload.NormalizedLog.Annotates` lists this for a
normalized log beside the log it comes from.

Nothing is asked of the type of NewOrder, which may be one of the analytical types if the
settings were never checked. Lifting looks at the whole log, so what the subtractive mode
makes of a record can depend on records below it. The divisive mode never looks ahead:
more records at the end of a log leave what stands above them as it was
(`MixedWorkload.TimingLog.records_normalize_append`).
-/

namespace MixedWorkload

/-- **A normalized log annotates a log** for a range and a type that counts as NewOrder. -/
structure NormalizedLog.Annotates (n : NormalizedLog) (log : TimingLog)
    (range : AnalyticalRange) (newOrderId : TransactionType) : Prop where
  /-- The records are those of the log. -/
  map_record_eq : n.records.map NormalizedRecord.record = log.records
  /-- A record is counted with the NewOrders at its place and above. -/
  newOrders_eq : ∀ (i : ℕ) (h : i < n.records.length),
    n.records[i].newOrders = (log.records.take (i + 1)).countP fun r => r.type == newOrderId
  /-- Counts never decrease. -/
  newOrders_le : ∀ (i j : ℕ) (hi : i < n.records.length) (hj : j < n.records.length), i ≤ j →
    n.records[i].newOrders ≤ n.records[j].newOrders
  /-- They grow by one at most from a record to the next. -/
  newOrders_succ_le : ∀ (i : ℕ) (h : i + 1 < n.records.length),
    n.records[i + 1].newOrders ≤ n.records[i].newOrders + 1
  /-- The last of them is the count of the log. -/
  newOrders_last : ∀ r ∈ n.records.getLast?, r.newOrders = log.countOf newOrderId
  /-- The analytical records are those whose type is in the range. -/
  analytical_iff : ∀ r ∈ n.records, r.analytical = true ↔ range.Spans r.record.type
  /-- The others keep their latency. -/
  latency_eq : ∀ r ∈ n.records, r.analytical = false → r.latency = r.record.latency

/-! ### Counts -/

namespace Scheme

variable (σ : Scheme) (rs : List TimingRecord)

/-- More of a list holds no fewer NewOrders. -/
theorem newOrdersThrough_le {i j : ℕ} (h : i ≤ j) :
    σ.newOrdersThrough rs i ≤ σ.newOrdersThrough rs j :=
  (List.take_sublist_take_left (Nat.succ_le_succ h)).countP_le

/-- One record more holds one NewOrder more at most. -/
theorem newOrdersThrough_succ_le (i : ℕ) :
    σ.newOrdersThrough rs (i + 1) ≤ σ.newOrdersThrough rs i + 1 := by
  rw [newOrdersThrough, newOrdersThrough, List.take_add_one (i := i + 1), List.countP_append]
  exact Nat.add_le_add_left (List.countP_le_length.trans Option.length_toList_le) _

/-- At its last place a list has all of its NewOrders. -/
theorem newOrdersThrough_last {i : ℕ} (h : rs.length ≤ i + 1) :
    σ.newOrdersThrough rs i = rs.countP fun r => r.type == σ.newOrderId := by
  rw [newOrdersThrough, List.take_of_length_le h]

/-- **A record of the normalized log**, by its place. -/
theorem getElem_records_normalize (log : TimingLog) {i : ℕ}
    (h : i < (log.normalize σ.table σ.mode σ.newOrderId).records.length)
    (hlog : i < log.records.length) :
    (log.normalize σ.table σ.mode σ.newOrderId).records[i] =
      σ.normalized log.records (log.records[i], σ.newOrdersThrough log.records i) := by
  simp only [records_normalize, counted, List.getElem_map, List.getElem_mapIdx]

end Scheme

/-! ### A whole log -/

namespace TimingLog

variable (log : TimingLog) (table : FactorTable) (mode : NormalizationMode)
  (newOrderId : TransactionType)

/-- **The divisive mode never looks ahead**: what it makes of the front of a log is what it
makes of the front alone. -/
theorem records_normalize_append (s : ScaleFactor) (front back : List TimingRecord) :
    ((⟨front ++ back⟩ : TimingLog).normalize table (.divisive s) newOrderId).records.take
        front.length =
      ((⟨front⟩ : TimingLog).normalize table (.divisive s) newOrderId).records := by
  have hlength : (annotate table (.divisive s) newOrderId 0 front).length = front.length := by
    rw [Scheme.annotate_eq_map ⟨table, .divisive s, newOrderId⟩, List.length_map, Scheme.counted,
      List.length_mapIdx]
  change (annotate table (.divisive s) newOrderId 0 (front ++ back)).take front.length =
    annotate table (.divisive s) newOrderId 0 front
  rw [annotate_append, ← hlength, List.take_left]

/-- **Normalization annotates a log**, whatever the factors, the mode and the type of
NewOrder. In the divisive mode it does so from the top down, and corrects nothing. -/
theorem annotates_normalize :
    (log.normalize table mode newOrderId).Annotates log table.range newOrderId ∧
      ∀ (s : ScaleFactor) (front back : List TimingRecord),
        let whole := (⟨front ++ back⟩ : TimingLog).normalize table (.divisive s) newOrderId
        let part := (⟨front⟩ : TimingLog).normalize table (.divisive s) newOrderId
        whole.records.take front.length = part.records ∧
          whole.correction = 0.0 ∧ part.correction = 0.0 := by
  refine ⟨?_, fun s front back => ⟨records_normalize_append table newOrderId s front back, rfl, rfl⟩⟩
  have hrecord := Scheme.map_record_normalize ⟨table, mode, newOrderId⟩ log
  have hlength : (log.normalize table mode newOrderId).records.length = log.records.length := by
    conv_rhs => rw [← hrecord]
    exact (List.length_map _).symm
  have hcount : ∀ (i : ℕ) (h : i < (log.normalize table mode newOrderId).records.length),
      (log.normalize table mode newOrderId).records[i].newOrders =
        Scheme.newOrdersThrough ⟨table, mode, newOrderId⟩ log.records i := by
    intro i h
    exact congrArg NormalizedRecord.newOrders
      (Scheme.getElem_records_normalize ⟨table, mode, newOrderId⟩ log h (hlength ▸ h))
  have hmem : ∀ r ∈ (log.normalize table mode newOrderId).records, ∃ p,
      r = Scheme.normalized ⟨table, mode, newOrderId⟩ log.records p := by
    intro r hr
    have hrecords := Scheme.records_normalize ⟨table, mode, newOrderId⟩ log
    rw [hrecords] at hr
    obtain ⟨p, -, rfl⟩ := List.mem_map.mp hr
    exact ⟨p, rfl⟩
  refine ⟨hrecord, hcount, fun i j hi hj hle => ?_, fun i h => ?_, fun r hr => ?_,
    fun r hr => ?_, fun r hr hout => ?_⟩
  · rw [hcount i hi, hcount j hj]
    exact Scheme.newOrdersThrough_le _ _ hle
  · rw [hcount (i + 1) h, hcount i (Nat.lt_of_succ_lt h)]
    exact Scheme.newOrdersThrough_succ_le _ _ i
  · -- the last record, if there is one, stands at the last place
    rw [List.getLast?_eq_getElem?, Option.mem_def, List.getElem?_eq_some_iff] at hr
    obtain ⟨h, rfl⟩ := hr
    rw [hcount _ h, Scheme.newOrdersThrough_last]
    · rfl
    · omega
  · obtain ⟨p, rfl⟩ := hmem r hr
    exact decide_eq_true_iff
  · obtain ⟨p, rfl⟩ := hmem r hr
    exact if_neg (of_decide_eq_false hout)

end TimingLog

end MixedWorkload

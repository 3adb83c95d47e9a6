import MixedWorkload.Proofs.Evaluation
import MixedWorkload.Proofs.Log.Faults
import MixedWorkload.Proofs.Overflow
import MixedWorkload.Proofs.Report.Words
import MixedWorkload.Proofs.Roots

/-!
# When the results of an evaluation are finite

The reader of logs lets no number in that is not finite, and factors and scale factors are
finite as well. Still a result can leave the finite numbers: by an overflow, or because a
negative number has no root. There is no other way, which is
`MixedWorkload.Evaluation.isFinite_iff_noOverflow`; and both happen, as
`MixedWorkload.Evaluation.exists_not_isFinite` shows. A query set time of zero is left aside:
queries per hour are then an hour over zero.

Finite metrics vouch for the reports (`MixedWorkload.Evaluation.IsFinite`). A sum of means that
is finite was made of finite means, these of finite values, and so there is nothing that a report
would have to put a word for, except the starts of queries, which no metric depends on.

The power function is that of the mathematical library, and what is needed of it is
`MixedWorkload.IsPower`.
-/

namespace MixedWorkload

open Binary64

/-! ### The metrics -/

namespace Scheme

variable {σ : Scheme} {rs : List TimingRecord} {types : List TransactionType}

/-- There are no more types than records. -/
theorem IsTypeList.length_le (h : σ.IsTypeList rs types) : types.length ≤ rs.length := by
  have hnodup : types.Nodup := h.ascending.imp UInt32.ne_of_lt
  have hsub : types ⊆ rs.map TimingRecord.type := by
    intro t ht
    obtain ⟨r, hr, rfl⟩ := ((h.mem_iff t).mp ht).2
    exact List.mem_map_of_mem hr
  exact (hnodup.subperm hsub).length_le.trans_eq (List.length_map _)

/-- **When the metrics are finite**: nothing overflows, and the product that a root is taken of
is not negative, unless the root is the first. -/
theorem isFinite_metrics_iff {power : Float → Float → Float} (hpower : IsPower power)
    (h : σ.IsFiniteInput rs) (htypes : σ.IsTypeList rs types) (hne : types ≠ [])
    (hzero : (σ.setTime rs types == 0.0) = false) :
    (∀ x ∈ (σ.metrics rs power types).numbers, x.isFinite = true) ↔
      σ.NoOverflow rs types ∧ (0.0 ≤ σ.meanProduct rs types ∨ types.length = 1) := by
  have hroot := hpower.isFinite_iff (x := σ.meanProduct rs types)
    (List.length_pos_of_ne_nil hne) (h.isFinite_toFloat htypes.length_le)
  rw [h.noOverflow_iff htypes hzero]
  simp only [Metrics.numbers, List.forall_mem_cons]
  constructor
  · rintro ⟨hthroughput, hmean, hset, hhour, heffective, -⟩
    obtain ⟨hproduct, hsign⟩ := hroot.mp hmean
    exact ⟨⟨hthroughput, hproduct, hset, hhour, heffective⟩, hsign⟩
  · rintro ⟨⟨hthroughput, hproduct, hset, hhour, heffective⟩, hsign⟩
    exact ⟨hthroughput, hroot.mpr ⟨hproduct, hsign⟩, hset, hhour, heffective,
      List.forall_mem_nil _⟩

/-! ### What else is reported -/

/-- **The doubles of a group are finite** if the values, the mean and the starts are. -/
theorem isFinite_group {t : TransactionType} (ht : σ.Occurs rs t)
    (hvalues : ∀ p ∈ σ.queries rs, (σ.value rs p).isFinite = true)
    (hstarts : ∀ p ∈ σ.queries rs, p.1.start.isFinite = true)
    (hmean : (σ.meanOf rs t).isFinite = true) :
    ∀ x ∈ (σ.group rs t).numbers, x.isFinite = true := by
  have hne : σ.queriesOf rs t ≠ [] := by
    obtain ⟨ha, r, hr, rfl⟩ := ht
    rw [← List.length_pos_iff_ne_nil, length_queriesOf σ rs ha]
    exact List.countP_pos_iff.mpr ⟨r, hr, beq_self_eq_true _⟩
  -- an extreme value is the number that some record of the group has
  have hextreme (choose : Float → Float → Float) (hchoose : ∀ x y, choose x y ∈ [x, y])
      (f : NormalizedRecord → Float)
      (hf : ∀ p ∈ σ.queries rs, (f (σ.normalized rs p)).isFinite = true) :
      (extreme choose (((σ.queriesOf rs t).map (σ.normalized rs)).map f)).isFinite = true := by
    have hmap : ((σ.queriesOf rs t).map (σ.normalized rs)).map f ≠ [] := by simpa using hne
    obtain ⟨r, hr, heq⟩ := List.mem_map.mp (extreme_mem hchoose hmap)
    obtain ⟨p, hp, rfl⟩ := List.mem_map.mp hr
    rw [← heq]
    exact hf p (List.mem_of_mem_filter hp)
  have hlatency : ∀ p ∈ σ.queries rs, (σ.normalized rs p).latency.isFinite = true := by
    intro p hp
    rw [σ.latency_normalized rs hp]
    exact hvalues p hp
  rw [← σ.meanLatency_group rs ht.1] at hmean
  simp only [QueryGroup.numbers, List.forall_mem_cons]
  exact ⟨hmean, hextreme lesser lesser_mem _ hlatency, hextreme greater greater_mem _ hlatency,
    hextreme lesser lesser_mem (fun r => r.record.start) hstarts,
    hextreme greater greater_mem (fun r => r.record.start) hstarts,
    List.forall_mem_nil _⟩

/-- **The amount that latencies are raised by** is finite if the rescaled latencies are. -/
theorem isFinite_correction (log : TimingLog)
    (h : ∀ p ∈ σ.queries log.records, (σ.rescaled p).isFinite = true) :
    (log.normalize σ.table σ.mode σ.newOrderId).correction.isFinite = true := by
  rw [correction_normalize]
  cases hs : σ.shift? log.records with
  | none => rfl
  | some low =>
    obtain ⟨p, hp, rfl⟩ := List.mem_map.mp (mem_of_shift? hs)
    exact (isFinite_neg _).trans (h p hp)

end Scheme

/-! ### What is read is finite -/

namespace TimingLog

theorem isFinite_of_readRow {cells : List String} {row : TimingRecord}
    (h : readRow cells = .ok row) : row.latency.isFinite = true := by
  unfold readRow at h
  split at h
  · obtain ⟨type, -, h⟩ := exists_of_bind_eq_ok h
    obtain ⟨start, -, h⟩ := exists_of_bind_eq_ok h
    obtain ⟨latency, hlatency, h⟩ := exists_of_bind_eq_ok h
    obtain ⟨phase, -, h⟩ := exists_of_bind_eq_ok h
    cases h
    exact isFinite_of_readFinite? (readCell_eq_ok hlatency)
  · cases h

theorem isFinite_of_readRecord {index : ℕ} {record : Csv.Record} {row : TimingRecord}
    (h : readRecord index record = .ok row) : row.latency.isFinite = true := by
  unfold readRecord at h
  split at h
  · cases h
  · next cells _ =>
    cases hrow : readRow cells with
    | error fault =>
      rw [hrow] at h
      cases h
    | ok row' =>
      rw [hrow] at h
      obtain rfl : row' = row := Except.ok.inj h
      exact isFinite_of_readRow hrow

theorem isFinite_of_readRecordsFrom {index : ℕ} {records : List Csv.Record}
    {rows : List TimingRecord} (h : readRecordsFrom index records = .ok rows) :
    ∀ row ∈ rows, row.latency.isFinite = true := by
  induction records generalizing index rows with
  | nil =>
    cases h
    exact List.forall_mem_nil _
  | cons record records ih =>
    obtain ⟨row, rest, hrow, hrest, rfl⟩ := exists_of_readRecordsFrom_cons h
    exact List.forall_mem_cons.mpr ⟨isFinite_of_readRecord hrow, ih hrest⟩

/-- **The latencies of a log that was read** are finite, in seconds as in microseconds. -/
theorem isFinite_of_read {file : List UInt8} {log : TimingLog} (h : read file = .ok log) :
    ∀ r ∈ log.records, r.latency.isFinite = true := by
  obtain ⟨rows, hrows, rfl⟩ := read_eq_ok_iff.mp h
  obtain ⟨hmillion, hmillion_eq⟩ : microsecondsPerSecond.isFinite = true ∧
      toRat microsecondsPerSecond = 1000000 :=
    (rounds_toFloat 1000000).toRat_natCast (by norm_num)
  intro r hr
  obtain ⟨row, hrow, rfl⟩ := List.mem_map.mp hr
  have hlatency := isFinite_of_readRecordsFrom hrows row hrow
  change (row.latency / microsecondsPerSecond).isFinite = true
  rw [isFinite_div_iff_of_ne_zero (isNaN_of_isFinite hmillion) (by rw [hmillion_eq]; norm_num)]
  refine ⟨hlatency, fun _ => (fits_toRat hlatency).of_abs_le ?_⟩
  rw [hmillion_eq, abs_div]
  exact div_le_self (abs_nonneg _) (by norm_num)

end TimingLog

/-- **A log that was read and options that are accepted** make a finite input. -/
theorem EvaluationOptions.Accepts.isFiniteInput {options : EvaluationOptions} {table : FactorTable}
    (h : options.Accepts table) {file : List UInt8} {log : TimingLog}
    (hread : TimingLog.read file = .ok log) (hlength : log.length < 2 ^ 64) :
    (options.scheme table).IsFiniteInput log.records := by
  have hmade : (options.scheme table).table.IsMade := .resolve h.resolve_eq
  have hfactor (t : TransactionType) :=
    FactorTable.isFactor_iff.mp (Scheme.isFactor_factor hmade.isFactor t)
  have hfits := isFinite_toFloat_iff.mp (isFinite_toFloat_of_lt hlength)
  have hwidth := h.isValid.width_lt
  rw [← h.range_eq] at hwidth
  exact ⟨TimingLog.isFinite_of_read hread, fun t => (hfactor t).1, fun t => (hfactor t).2, hfits,
    hwidth⟩

/-! ### Finite results -/

namespace Evaluation

/-- **Finite results**: no word for what is not finite gets into the reports. -/
structure IsFinite (e : Evaluation) : Prop where
  /-- The five metrics are finite. -/
  metrics : ∀ x ∈ e.metrics.numbers, x.isFinite = true
  /-- The text report has no word for anything else. -/
  report : ∀ w ∈ [Decimal.notANumberText, Decimal.infinityText], ¬w.toList <:+: e.report.toList
  /-- Nothing is missing from the metrics in the report for machines. -/
  metricsJson : ¬Report.missing <:+: ((Report.metricsJson e.metrics).render .indented 1).toList
  /-- Nothing is missing from all of that report, if the starts of the queries are finite and
  the source is known. The two texts that are passed through may not have the word either. -/
  jsonReport : (∀ r ∈ e.log.analytical, r.record.start.isFinite = true) →
    ∀ generatedAt source, ¬Report.missing <:+: (Json.quoted generatedAt).toList →
      ¬Report.missing <:+: (Json.quoted source).toList →
        ¬Report.missing <:+: (e.jsonReport generatedAt (some source)).toList

/-- The words of the text report are not in its labels. -/
theorem not_infix_report {m : Metrics} (hm : ∀ x ∈ m.numbers, x.isFinite = true)
    (includeEffective : Bool) : ∀ w ∈ [Decimal.notANumberText, Decimal.infinityText],
      ¬w.toList <:+: (Report.text m includeEffective).toList := by
  have hnan : IsStandIn ['N', 'a', 'N'] := ⟨⟨'N', by decide, by decide⟩, by simp⟩
  have hinf : IsStandIn ['i', 'n', 'f'] := ⟨⟨'i', by decide, by decide⟩, by simp⟩
  rw [List.forall_mem_cons, List.forall_mem_singleton]
  exact ⟨Report.not_infix_text hnan (by decide) hm includeEffective,
    Report.not_infix_text hinf (by decide) hm includeEffective⟩

variable {power : Float → Float → Float} {file : List UInt8} {log : TimingLog}
  {options : EvaluationOptions}

/-- **With finite metrics everything else is finite.** -/
theorem isFinite_result {table : FactorTable} {types : List TransactionType}
    (h : (options.scheme table).IsFiniteInput log.records)
    (htypes : (options.scheme table).IsTypeList log.records types)
    (hmetrics : ∀ x ∈ (result power log options table types).metrics.numbers, x.isFinite = true) :
    (result power log options table types).IsFinite where
  metrics := hmetrics
  report := not_infix_report hmetrics _
  metricsJson := (Report.metricsJson_avoids hmetrics).not_infix_render Report.isStandIn_missing 1
  jsonReport := by
    intro hstarts generatedAt source hgenerated hsource
    refine Json.Avoids.not_infix_render Report.isStandIn_missing ?_ 0
    have hset : ((options.scheme table).setTime log.records types).isFinite = true :=
      hmetrics _ (by simp [Metrics.numbers, result, Scheme.metrics])
    -- a finite sum of means vouches for the means, and they for the values
    have hmeans := ((isFinite_sum_iff _ _).mp hset).2.1
    have hvalues := ((h.isFinite_means_iff htypes).mp hmeans).1
    rw [List.forall_mem_map] at hmeans
    have hrescaled : ∀ p ∈ (options.scheme table).queries log.records,
        ((options.scheme table).rescaled p).isFinite = true :=
      fun p hp => (h.isFinite_rescaled_iff hp).mpr ((h.isFinite_value_iff.mp hvalues).1 p hp)
    have hcorrection := Scheme.isFinite_correction log hrescaled
    have hstart : ∀ p ∈ (options.scheme table).queries log.records, p.1.start.isFinite = true := by
      intro p hp
      refine hstarts ((options.scheme table).normalized log.records p) ?_
      change _ ∈ (log.normalize (options.scheme table).table (options.scheme table).mode
        (options.scheme table).newOrderId).analytical
      rw [Scheme.analytical_normalize]
      exact List.mem_map_of_mem hp
    refine Report.json_avoids hgenerated hsource hcorrection ?_ hmetrics
    change ∀ g ∈ types.map ((options.scheme table).group log.records), _
    rw [List.forall_mem_map]
    exact fun t ht => Scheme.isFinite_group ((htypes.mem_iff_occurs t).mp ht) hvalues hstart
      (hmeans t ht)

/-- **When the results are finite**: a log that was read has finite numbers, and its evaluation
comes to finite results if and only if no operation overflows, and the product of the means is
not negative, where it can be. It cannot be negative in the subtractive mode or under the strict
policy, and the first root of a negative product is finite as well. Nothing is said about a
query set time of zero. -/
theorem isFinite_iff_noOverflow (hpower : IsPower power) (hread : TimingLog.read file = .ok log)
    (hlength : log.length < 2 ^ 64) {e : Evaluation} (h : ofLogBy power log options = .ok e)
    (hzero : (e.metrics.querySetTime == 0.0) = false) :
    ∃ table types, FactorTable.resolve options.factors options.config.range = .ok table ∧
      (options.scheme table).IsTypeList log.records types ∧
      (e.IsFinite ↔ (options.scheme table).NoOverflow log.records types ∧
        (options.policy = .permissive → options.scaleFactor ≠ none →
          0.0 ≤ (options.scheme table).meanProduct log.records types ∨ types.length = 1)) := by
  obtain ⟨table, types, haccepts, htypes, hne, hpolicy, rfl⟩ := eq_result_of_ofLogBy h
  have hinput := haccepts.isFiniteInput hread hlength
  have hmetrics := Scheme.isFinite_metrics_iff hpower hinput htypes hne hzero
  refine ⟨table, types, haccepts.resolve_eq, htypes, ?_⟩
  constructor
  · intro hfinite
    obtain ⟨hno, hsign⟩ := hmetrics.mp hfinite.metrics
    exact ⟨hno, fun _ _ => hsign⟩
  · rintro ⟨hno, hsign⟩
    refine isFinite_result hinput htypes (hmetrics.mpr ⟨hno, ?_⟩)
    by_cases hfree : options.policy = .permissive ∧ options.scaleFactor ≠ none
    · exact hsign hfree.1 hfree.2
    · -- otherwise no factor is negative
      refine Or.inl (hinput.zero_le_meanProduct htypes ?_ hno)
      cases hp : options.policy with
      | strict => exact Or.inr (hpolicy hp)
      | permissive =>
        have hnone : options.scaleFactor = none := by
          by_contra hsome
          exact hfree ⟨hp, hsome⟩
        refine Or.inl ?_
        rw [EvaluationOptions.scheme, EvaluationOptions.mode, hnone]
        rfl

/-- The bytes of a text of ASCII characters. -/
def asciiBytes (s : String) : List UInt8 :=
  s.toList.map fun c => UInt8.ofNat c.toNat

/-- A power function that knows first powers, and which doubles have no root. -/
def firstPower (x y : Float) : Float :=
  if x.isFinite = true ∧ x < 0.0 ∧ y < 1.0 then 0.0 / 0.0 else x

theorem isPower_firstPower : IsPower firstPower where
  one x := if_neg fun h => absurd h.2.2 (by decide +kernel)
  isFinite_root := by
    intro x y hx hnonneg _ _
    rw [firstPower, if_neg fun h => (not_lt (isNaN_of_isFinite hx) rfl).mpr hnonneg h.2.1]
    exact hx
  isNaN_root := by
    intro x y hx hneg _ hlt
    rw [firstPower, if_pos ⟨hx, hneg, hlt⟩]
    rfl
  not_isFinite_root := by
    intro x y hx _
    rw [firstPower, if_neg fun h => absurd (hx.symm.trans h.1) Bool.false_ne_true]
    exact hx

/-- A NewOrder and the one query of its range, as a file. -/
def smallFile : List UInt8 :=
  asciiBytes "type,start,latency,worker,phase\n2,0,500000,a,0\n7,1,2000000,b,0\n"

/-- A file whose evaluation has finite results. -/
theorem isFinite_smallFile :
    TimingLog.read smallFile = .ok smallLog ∧ smallLog.length < 2 ^ 64 ∧ IsPower firstPower ∧
    ∃ e, ofLogBy firstPower smallLog smallOptions = .ok e ∧
      (e.metrics.querySetTime == 0.0) = false ∧ e.IsFinite ∧
      ∃ table types,
        FactorTable.resolve smallOptions.factors smallOptions.config.range = .ok table ∧
        (smallOptions.scheme table).IsTypeList smallLog.records types ∧
        (e.IsFinite ↔ (smallOptions.scheme table).NoOverflow smallLog.records types ∧
          (smallOptions.policy = .permissive → smallOptions.scaleFactor ≠ none →
            0.0 ≤ (smallOptions.scheme table).meanProduct smallLog.records types ∨
              types.length = 1)) :=
  have hread : TimingLog.read smallFile = .ok smallLog := rfl
  have hlength : smallLog.length < 2 ^ 64 := by decide
  have h : ofLogBy firstPower smallLog smallOptions = .ok _ :=
    ofLogBy_eq_ok smallOptions_accepts smallLog_isTypeList (List.cons_ne_nil _ _)
      fun hstrict => (nomatch hstrict)
  have hzero : ((result firstPower smallLog smallOptions ⟨⟨7, 7⟩, [0.25]⟩
      [7]).metrics.querySetTime == 0.0) = false := by decide +kernel
  have hfinite : (result firstPower smallLog smallOptions ⟨⟨7, 7⟩, [0.25]⟩ [7]).IsFinite :=
    isFinite_result (smallOptions_accepts.isFiniteInput hread hlength) smallLog_isTypeList
      (by decide +kernel)
  ⟨hread, hlength, isPower_firstPower, _, h, hzero, hfinite,
    isFinite_iff_noOverflow isPower_firstPower hread hlength h hzero⟩

/-! ### Results that are not finite -/

/-- One query. -/
def oneFile : List UInt8 :=
  asciiBytes "type,start,latency,worker,phase\n7,0,1000000,a,0\n"

/-- A database that is hardly there. -/
def tinyOptions : EvaluationOptions :=
  ⟨⟨2, ⟨7, 7⟩, 5.0⟩, .sequence [0.0], some ⟨1e-309, by decide +kernel⟩, .permissive⟩

/-- A query that takes no time. -/
def zeroFile : List UInt8 :=
  asciiBytes "type,start,latency,worker,phase\n7,0,0,a,0\n"

/-- Two queries, one of which takes less than no time. -/
def negativeFile : List UInt8 :=
  asciiBytes "type,start,latency,worker,phase\n7,0,-1000000,a,0\n8,0,2000000,a,0\n"

/-- A range of two queries, whose latencies are taken as they are. -/
def pairOptions : EvaluationOptions :=
  ⟨⟨2, ⟨7, 8⟩, 5.0⟩, .sequence [0.0, 0.0], some ⟨1.0, by decide +kernel⟩, .permissive⟩

theorem tinyOptions_accepts : tinyOptions.Accepts ⟨⟨7, 7⟩, [0.0]⟩ where
  isValid := ⟨by decide, by decide, by decide +kernel⟩
  resolve_eq := FactorTable.resolve_sequence rfl (by decide +kernel)

theorem pairOptions_accepts : pairOptions.Accepts ⟨⟨7, 8⟩, [0.0, 0.0]⟩ where
  isValid := ⟨by decide, by decide, by decide +kernel⟩
  resolve_eq := FactorTable.resolve_sequence rfl (by decide +kernel)

/-- The list of types, where all records are queries. -/
theorem isTypeList_of_forall {σ : Scheme} {rs : List TimingRecord} {types : List TransactionType}
    (hasc : types.Pairwise (· < ·)) (hrs : ∀ r ∈ rs, σ.IsAnalytical r.type)
    (hmem : ∀ t ∈ types, ∃ r ∈ rs, r.type = t) (hall : ∀ r ∈ rs, r.type ∈ types) :
    σ.IsTypeList rs types := by
  refine ⟨hasc, fun t => ⟨fun ht => ?_, ?_⟩⟩
  · obtain ⟨r, hr, rfl⟩ := hmem t ht
    exact ⟨hrs r hr, r, hr, rfl⟩
  · rintro ⟨-, r, hr, rfl⟩
    exact hall r hr

/-- A latency that is divided by a tiny scale factor overflows. -/
theorem ofLog_oneFile : ∃ log e, TimingLog.read oneFile = .ok log ∧ ofLog log tinyOptions = .ok e ∧
    e.metrics.querySetTime.isFinite = false := by
  have htypes : (tinyOptions.scheme ⟨⟨7, 7⟩, [0.0]⟩).IsTypeList [⟨7, 0.0, 1.0, "a", 0⟩] [7] :=
    isTypeList_of_forall (by decide) (by decide) (by simp) (by decide)
  exact ⟨⟨[⟨7, 0.0, 1.0, "a", 0⟩]⟩, _, rfl,
    ofLogBy_eq_ok tinyOptions_accepts htypes (List.cons_ne_nil _ _)
      fun hstrict => (nomatch hstrict), by decide +kernel⟩

/-- An hour is divided by a query set time of zero. -/
theorem ofLog_zeroFile : ∃ log e, TimingLog.read zeroFile = .ok log ∧
    ofLog log smallOptions = .ok e ∧ e.metrics.queriesPerHour.isFinite = false := by
  have htypes : (smallOptions.scheme ⟨⟨7, 7⟩, [0.25]⟩).IsTypeList [⟨7, 0.0, 0.0, "a", 0⟩] [7] :=
    isTypeList_of_forall (by decide) (by decide) (by simp) (by decide)
  exact ⟨⟨[⟨7, 0.0, 0.0, "a", 0⟩]⟩, _, rfl,
    ofLogBy_eq_ok smallOptions_accepts htypes (List.cons_ne_nil _ _)
      fun hstrict => (nomatch hstrict), by decide +kernel⟩

/-- A negative product has no square root. -/
theorem ofLogBy_negativeFile {power : Float → Float → Float} (hpower : IsPower power) :
    ∃ log e, TimingLog.read negativeFile = .ok log ∧ ofLogBy power log pairOptions = .ok e ∧
      e.metrics.geometricMeanLatency.isNaN = true := by
  have htypes : (pairOptions.scheme ⟨⟨7, 8⟩, [0.0, 0.0]⟩).IsTypeList
      [⟨7, 0.0, -1.0, "a", 0⟩, ⟨8, 0.0, 2.0, "a", 0⟩] [7, 8] :=
    isTypeList_of_forall (by decide) (by decide) (by simp) (by decide)
  have hroot : (power (-2.0) (1.0 / (2 : ℕ).toFloat)).isNaN = true :=
    hpower.isNaN_root rfl (by decide +kernel) (by decide +kernel) (by decide +kernel)
  have hproduct : (pairOptions.scheme ⟨⟨7, 8⟩, [0.0, 0.0]⟩).meanProduct
      [⟨7, 0.0, -1.0, "a", 0⟩, ⟨8, 0.0, 2.0, "a", 0⟩] [7, 8] = -2.0 := by decide +kernel
  rw [← hproduct] at hroot
  exact ⟨⟨[⟨7, 0.0, -1.0, "a", 0⟩, ⟨8, 0.0, 2.0, "a", 0⟩]⟩, _, by rfl,
    ofLogBy_eq_ok pairOptions_accepts htypes (List.cons_ne_nil _ _)
      fun hstrict => (nomatch hstrict), hroot⟩

/-- **Results that are not finite**: a latency over a tiny scale factor, an hour over a query set
time of zero, and the root of a negative product. -/
theorem exists_not_isFinite :
    (∃ log e, TimingLog.read oneFile = .ok log ∧ ofLog log tinyOptions = .ok e ∧
      e.metrics.querySetTime.isFinite = false) ∧
    (∃ log e, TimingLog.read zeroFile = .ok log ∧ ofLog log smallOptions = .ok e ∧
      e.metrics.queriesPerHour.isFinite = false) ∧
    ∀ power, IsPower power →
      ∃ log e, TimingLog.read negativeFile = .ok log ∧ ofLogBy power log pairOptions = .ok e ∧
        e.metrics.geometricMeanLatency.isNaN = true :=
  ⟨ofLog_oneFile, ofLog_zeroFile, fun _ => ofLogBy_negativeFile⟩

end Evaluation

end MixedWorkload

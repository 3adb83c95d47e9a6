import Mathlib.Logic.Relation
import MixedWorkload.Proofs.Evaluation
import MixedWorkload.Proofs.Positions
import MixedWorkload.Throughput

/-!
# Records that do not matter

The metrics of queries are about the analytical records and about how many NewOrders stand
above each of them. A record that is neither (`MixedWorkload.Config.IsBystander`) says
nothing about that, wherever it stands, and a NewOrder says nothing if no query follows it.
Such records may be put into a log and taken out of it, in any order and any number:
`MixedWorkload.Evaluation.noninterference` says that the evaluation fails in the same way or
has the same queries, groups and metrics of queries. The throughput over time is about
NewOrders only, so that bystanders do not change it either.

Everything derived from a log sees it through its analytical records before lifting
(`MixedWorkload.TimingLog.unliftedQueries`), and one record more or less that does not
matter leaves these as they are. The rest follows by induction on the insertions and
deletions.
-/

namespace MixedWorkload

/-! ### Which records do not matter -/

namespace Config

variable (c : Config)

/-- **A bystander** is neither a NewOrder nor a query. -/
structure IsBystander (r : TimingRecord) : Prop where
  /-- It is no NewOrder. -/
  not_newOrder : r.type ≠ c.newOrderId
  /-- It is no query. -/
  not_spans : ¬c.range.Spans r.type

/-- A list with one more bystander, at any place. -/
inductive AddsBystander : List TimingRecord → List TimingRecord → Prop
  | insert (front back : List TimingRecord) {r : TimingRecord} (h : c.IsBystander r) :
    AddsBystander (front ++ back) (front ++ r :: back)

/-- **A list with one more record that does not matter**: a bystander at any place, or a
NewOrder that no query follows. -/
inductive AddsIrrelevant : List TimingRecord → List TimingRecord → Prop
  | bystander {rs rs' : List TimingRecord} (h : c.AddsBystander rs rs') : AddsIrrelevant rs rs'
  | trailing (front back : List TimingRecord) {r : TimingRecord} (h : r.type = c.newOrderId)
      (hback : ∀ s ∈ back, ¬c.range.Spans s.type) :
    AddsIrrelevant (front ++ back) (front ++ r :: back)

end Config

/-- What two lists have in common that are joined by steps, forwards and backwards, none of
which changes it. -/
theorem eq_of_eqvGen {α β : Type} {step : α → α → Prop} (f : α → β)
    (h : ∀ x y, step x y → f x = f y) {x y : α} (hjoined : Relation.EqvGen step x y) :
    f x = f y := by
  induction hjoined with
  | rel x y hstep => exact h x y hstep
  | refl => rfl
  | symm _ _ _ ih => exact ih.symm
  | trans _ _ _ _ _ ih ih' => exact ih.trans ih'

/-! ### The queries before lifting -/

section Walk

variable (table : FactorTable) (mode : NormalizationMode) (newOrderId : TransactionType)

theorem annotate_append (k : ℕ) (front back : List TimingRecord) :
    annotate table mode newOrderId k (front ++ back) =
      annotate table mode newOrderId k front ++
        annotate table mode newOrderId (k + front.countP fun r => r.type = newOrderId) back := by
  induction front generalizing k with
  | nil => rfl
  | cons r front ih =>
    have hcount : (if r.type = newOrderId then k + 1 else k) +
        (front.countP fun r => r.type = newOrderId) =
          k + ((r :: front).countP fun r => r.type = newOrderId) := by
      simp only [List.countP_cons, decide_eq_true_eq]
      split <;> omega
    rw [List.cons_append, annotate, ih, hcount, annotate, List.cons_append]

theorem analytical_normalizeRecord (k : ℕ) (r : TimingRecord) :
    (normalizeRecord table mode k r).analytical = table.range.contains r.type := rfl

/-- The analytical records of a list before lifting, from a given number of NewOrders on. -/
def queriesFrom (k : ℕ) (rs : List TimingRecord) : List NormalizedRecord :=
  (annotate table mode newOrderId k rs).filter NormalizedRecord.analytical

theorem queriesFrom_append (k : ℕ) (front back : List TimingRecord) :
    queriesFrom table mode newOrderId k (front ++ back) =
      queriesFrom table mode newOrderId k front ++
        queriesFrom table mode newOrderId
          (k + front.countP fun r => r.type = newOrderId) back := by
  rw [queriesFrom, annotate_append, List.filter_append]
  rfl

variable {table mode newOrderId}

/-- A record that is no query leaves only its mark on the count. -/
theorem queriesFrom_cons {k : ℕ} {r : TimingRecord} (rs : List TimingRecord)
    (h : ¬table.range.Spans r.type) :
    queriesFrom table mode newOrderId k (r :: rs) =
      queriesFrom table mode newOrderId (if r.type = newOrderId then k + 1 else k) rs := by
  have hout : table.range.contains r.type = false := by
    rwa [← Bool.not_eq_true, AnalyticalRange.contains_iff]
  rw [queriesFrom, annotate, List.filter_cons_of_neg]
  · rfl
  · rw [analytical_normalizeRecord, hout]
    exact Bool.false_ne_true

/-- Where no query follows, the count does not matter. -/
theorem queriesFrom_eq_nil {rs : List TimingRecord} (h : ∀ r ∈ rs, ¬table.range.Spans r.type)
    (k : ℕ) : queriesFrom table mode newOrderId k rs = [] := by
  induction rs generalizing k with
  | nil => rfl
  | cons r rs ih =>
    rw [queriesFrom_cons rs (h r List.mem_cons_self)]
    exact ih (fun s hs => h s (List.mem_cons_of_mem r hs)) _

end Walk

namespace TimingLog

variable {c : Config} (table : FactorTable) (mode : NormalizationMode)

/-- **The queries of a list before lifting**, each with the NewOrders up to it. -/
def unliftedQueries (newOrderId : TransactionType) (rs : List TimingRecord) :
    List NormalizedRecord :=
  queriesFrom table mode newOrderId 0 rs

variable {table mode}

/-- **One record that does not matter**, more or less, leaves the queries as they are. -/
theorem unliftedQueries_addsIrrelevant (hvalid : c.IsValid) (hrange : table.range = c.range)
    {rs rs' : List TimingRecord} (h : c.AddsIrrelevant rs rs') :
    unliftedQueries table mode c.newOrderId rs = unliftedQueries table mode c.newOrderId rs' := by
  rw [unliftedQueries, unliftedQueries]
  cases h with
  | bystander h =>
    obtain ⟨front, back, h⟩ := h
    have hout := h.not_spans
    rw [← hrange] at hout
    rw [queriesFrom_append, queriesFrom_append, queriesFrom_cons back hout,
      if_neg h.not_newOrder]
  | trailing front back h hback =>
    -- the queries end with the front in both lists
    have hout := hvalid.not_contains
    rw [← h, ← hrange, ← Bool.not_eq_true, AnalyticalRange.contains_iff] at hout
    rw [← hrange] at hback
    rw [queriesFrom_append, queriesFrom_append, queriesFrom_cons back hout,
      queriesFrom_eq_nil hback, queriesFrom_eq_nil hback]

end TimingLog

/-! ### What is seen through the queries -/

section Lifting

variable (rs : List NormalizedRecord)

theorem leastLatency_filter :
    leastLatency (rs.filter NormalizedRecord.analytical) = leastLatency rs := by
  rw [leastLatency, List.filter_filter]
  simp only [Bool.and_self]
  rfl

theorem filter_liftAll (amount : Float) :
    (liftAll amount rs).filter NormalizedRecord.analytical =
      liftAll amount (rs.filter NormalizedRecord.analytical) := by
  rw [liftAll, liftAll, List.filter_map]
  congr 2
  funext r
  rw [Function.comp_apply]
  split <;> rfl

/-- **Lifting the queries of a list** is lifting the list and taking its queries. -/
theorem liftNegative_filter :
    liftNegative (rs.filter NormalizedRecord.analytical) =
      ((liftNegative rs).1.filter NormalizedRecord.analytical, (liftNegative rs).2) := by
  rw [liftNegative, leastLatency_filter, liftNegative]
  split
  · rfl
  · rw [filter_liftAll]

end Lifting

namespace TimingLog

variable {table : FactorTable} {mode : NormalizationMode} {newOrderId : TransactionType}
  {log log' : TimingLog}

/-- **The same queries before lifting** are the same queries after it, and are lifted by the
same amount. -/
theorem normalize_congr
    (h : unliftedQueries table mode newOrderId log.records =
      unliftedQueries table mode newOrderId log'.records) :
    (log.normalize table mode newOrderId).analytical =
        (log'.normalize table mode newOrderId).analytical ∧
      (log.normalize table mode newOrderId).correction =
        (log'.normalize table mode newOrderId).correction := by
  cases mode with
  | divisive s => exact ⟨h, rfl⟩
  | subtractive =>
    have hlift := congrArg liftNegative h
    rw [unliftedQueries, queriesFrom, unliftedQueries, queriesFrom, liftNegative_filter,
      liftNegative_filter, Prod.mk.injEq] at hlift
    exact hlift

/-- **The NewOrder starts of a normalized log** are those of the log. -/
theorem newOrderStarts_normalize :
    (log.normalize table mode newOrderId).newOrderStarts =
      (log.records.filter fun r => r.type == newOrderId).map fun r => greater r.start 0.0 := by
  have hrecords := Scheme.map_record_normalize ⟨table, mode, newOrderId⟩ log
  have hid : (log.normalize table mode newOrderId).newOrderId = newOrderId := rfl
  rw [NormalizedLog.newOrderStarts, NormalizedLog.newOrders, hid, ← hrecords, List.filter_map,
    List.map_map]
  rfl

end TimingLog

/-- The groups of a normalized log are those of its analytical records. -/
theorem QueryGroups.ofLog_congr {log log' : NormalizedLog} (h : log.analytical = log'.analytical)
    (hrange : log.range = log'.range) : ofLog log = ofLog log' := by
  rw [ofLog, ofLog, h, hrange]

/-! ### Evaluations -/

namespace Evaluation

/-- **The same queries**: the analytical records, their correction, the groups and the
metrics of queries agree. -/
structure SameQueries (e e' : Evaluation) : Prop where
  /-- The analytical records, each with its NewOrders and its latency. -/
  analytical_eq : e.log.analytical = e'.log.analytical
  /-- The amount by which they were raised. -/
  correction_eq : e.log.correction = e'.log.correction
  /-- The groups, with all they say. -/
  groups_eq : e.groups = e'.groups
  /-- The geometric mean of the latencies. -/
  geometricMeanLatency_eq : e.metrics.geometricMeanLatency = e'.metrics.geometricMeanLatency
  /-- The time of one execution of every query. -/
  querySetTime_eq : e.metrics.querySetTime = e'.metrics.querySetTime
  /-- The queries per hour of one worker. -/
  queriesPerHour_eq : e.metrics.queriesPerHour = e'.metrics.queriesPerHour
  /-- The queries per hour of all workers. -/
  effectiveQueriesPerHour_eq :
    e.metrics.effectiveQueriesPerHour = e'.metrics.effectiveQueriesPerHour

/-- The same throughput over time, in bins of any width, or the same failure. -/
def SameThroughput (e e' : Evaluation) : Prop :=
  ∀ width, e.log.throughputSeries width = e'.log.throughputSeries width

/-- **Two evaluations end alike**: with the same failure, or both with a result, and the
results are related. -/
inductive EndAlike (related : Evaluation → Evaluation → Prop) :
    Except Error Evaluation → Except Error Evaluation → Prop
  /-- Both fail. -/
  | error (fault : Error) : EndAlike related (.error fault) (.error fault)
  /-- Both succeed. -/
  | ok {e e' : Evaluation} (h : related e e') : EndAlike related (.ok e) (.ok e')

variable {power : Float → Float → Float} {options : EvaluationOptions}

/-- **Logs with the same queries before lifting** are evaluated alike. -/
theorem endAlike_of_unliftedQueries {table : FactorTable} {log log' : TimingLog}
    (haccepts : options.Accepts table)
    (h : TimingLog.unliftedQueries table options.mode options.config.newOrderId log.records =
      TimingLog.unliftedQueries table options.mode options.config.newOrderId log'.records) :
    EndAlike SameQueries (ofLogBy power log options) (ofLogBy power log' options) := by
  obtain ⟨hanalytical, hcorrection⟩ := TimingLog.normalize_congr h
  have hgroups := QueryGroups.ofLog_congr hanalytical rfl
  simp only [ofLogBy_of_accepts haccepts, bind, Except.bind, hgroups]
  -- the stages after grouping differ in the throughput only
  cases QueryGroups.ofLog (log'.normalize table options.mode options.config.newOrderId) with
  | error fault => exact .error fault
  | ok q =>
    simp only [Metrics.computeBy, bind, Except.bind]
    cases geometricMeanBy power options.policy q with
    | error fault => exact .error fault
    | ok mean => exact .ok ⟨hanalytical, hcorrection, rfl, rfl, rfl, rfl, rfl⟩

/-- Settings or factors that are refused are refused for every log. -/
theorem eq_error_or_accepts (power : Float → Float → Float) (options : EvaluationOptions) :
    (∃ fault, ∀ log, ofLogBy power log options = .error fault) ∨
      ∃ table, options.Accepts table := by
  cases hv : options.config.validate with
  | error fault => exact .inl ⟨fault, fun log => ofLogBy_eq_invalid hv⟩
  | ok c =>
    have hvalid := (Config.validate_eq_ok_iff.mp hv).1
    cases hr : FactorTable.resolve options.factors options.config.range with
    | error fault => exact .inl ⟨fault, fun log => ofLogBy_eq_refusedFactors hvalid hr⟩
    | ok table => exact .inr ⟨table, hvalid, hr⟩

/-- Another relation between the results, where there are results. -/
theorem EndAlike.imp {related related' : Evaluation → Evaluation → Prop}
    {x x' : Except Error Evaluation} (h : EndAlike related x x')
    (himp : ∀ e e', x = .ok e → x' = .ok e' → related e e' → related' e e') :
    EndAlike related' x x' := by
  cases h with
  | error fault => exact .error fault
  | ok h => exact .ok (himp _ _ rfl rfl h)

/-- The NewOrder starts of an evaluation are those of its log. -/
theorem newOrderStarts_of_ofLogBy {log : TimingLog} {e : Evaluation}
    (h : ofLogBy power log options = .ok e) :
    e.log.newOrderStarts = (log.records.filter fun r => r.type == options.config.newOrderId).map
      fun r => greater r.start 0.0 := by
  obtain ⟨table, types, -, -, -, -, rfl⟩ := eq_result_of_ofLogBy h
  exact TimingLog.newOrderStarts_normalize

/-- One bystander, more or less, leaves the NewOrders as they are. -/
theorem filter_newOrder_addsBystander {c : Config} {rs rs' : List TimingRecord}
    (h : c.AddsBystander rs rs') :
    (rs.filter fun r => r.type == c.newOrderId) = rs'.filter fun r => r.type == c.newOrderId := by
  obtain ⟨front, back, h⟩ := h
  rw [List.filter_append, List.filter_append, List.filter_cons_of_neg]
  rw [beq_iff_eq]
  exact h.not_newOrder

/-- **Records that do not matter do not interfere**: logs that differ in bystanders, and in
NewOrders that no query follows, are evaluated to the same queries or fail in the same way.
If they differ in bystanders only, the throughput over time is the same as well. -/
theorem noninterference (power : Float → Float → Float) (options : EvaluationOptions)
    {rs rs' : List TimingRecord}
    (h : Relation.EqvGen options.config.AddsIrrelevant rs rs') :
    EndAlike SameQueries (ofLogBy power ⟨rs⟩ options) (ofLogBy power ⟨rs'⟩ options) ∧
      (Relation.EqvGen options.config.AddsBystander rs rs' →
        EndAlike SameThroughput (ofLogBy power ⟨rs⟩ options) (ofLogBy power ⟨rs'⟩ options)) := by
  have hqueries : EndAlike SameQueries (ofLogBy power ⟨rs⟩ options)
      (ofLogBy power ⟨rs'⟩ options) := by
    rcases eq_error_or_accepts power options with ⟨fault, hfault⟩ | ⟨table, haccepts⟩
    · rw [hfault, hfault]
      exact .error fault
    · refine endAlike_of_unliftedQueries haccepts (eq_of_eqvGen _ (fun _ _ hstep => ?_) h)
      exact TimingLog.unliftedQueries_addsIrrelevant haccepts.isValid haccepts.range_eq hstep
  refine ⟨hqueries, fun hbystanders => hqueries.imp fun e e' he he' _ width => ?_⟩
  have hstarts : e.log.newOrderStarts = e'.log.newOrderStarts := by
    rw [newOrderStarts_of_ofLogBy he, newOrderStarts_of_ofLogBy he',
      eq_of_eqvGen _ (fun _ _ hstep => filter_newOrder_addsBystander hstep) hbystanders]
  rw [NormalizedLog.throughputSeries, NormalizedLog.throughputSeries, hstarts]

/-- The small log with a transaction of another type before its query. -/
def interspersedLog : TimingLog :=
  ⟨[⟨2, 0.0, 0.5, "a", 0⟩, ⟨3, 0.5, 0.5, "a", 0⟩, ⟨7, 1.0, 2.0, "b", 0⟩]⟩

/-- A transaction of another type does not interfere with the small log. -/
theorem noninterference_smallLog :
    Relation.EqvGen smallOptions.config.AddsIrrelevant smallLog.records
        interspersedLog.records ∧
      EndAlike SameQueries (ofLogBy Float.pow ⟨smallLog.records⟩ smallOptions)
        (ofLogBy Float.pow ⟨interspersedLog.records⟩ smallOptions) ∧
      EndAlike SameThroughput (ofLogBy Float.pow ⟨smallLog.records⟩ smallOptions)
        (ofLogBy Float.pow ⟨interspersedLog.records⟩ smallOptions) := by
  have hstep : smallOptions.config.AddsBystander smallLog.records interspersedLog.records :=
    .insert [⟨2, 0.0, 0.5, "a", 0⟩] [⟨7, 1.0, 2.0, "b", 0⟩]
      ⟨by decide, fun h => absurd h.1 (by decide)⟩
  have hjoined : Relation.EqvGen smallOptions.config.AddsIrrelevant smallLog.records
      interspersedLog.records := .rel _ _ (.bystander hstep)
  obtain ⟨hqueries, hthroughput⟩ := noninterference Float.pow smallOptions hjoined
  exact ⟨hjoined, hqueries, hthroughput (.rel _ _ hstep)⟩

end Evaluation

end MixedWorkload

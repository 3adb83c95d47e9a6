import Mathlib.Data.List.Forall2
import MixedWorkload.Proofs.Noninterference
import MixedWorkload.Proofs.Results

/-!
# What latencies do not depend on

Latencies are corrected by counting records, so that when a transaction started, in which
phase, and who executed it say nothing about them. Two logs whose records agree in their
types and latencies, one by one, and whose workers are the same ones under other names
(`MixedWorkload.TimingRecord.Renames`) are evaluated to the same latencies, groups and
metrics of queries, or fail in the same way: `MixedWorkload.Evaluation.endAlike_of_renames`.
Workers are counted, and a renaming that is injective on the workers of the log does not
change how many there are. Only the first and the last start of a group, and what else is
about times, may differ, and that is the same as well once the starts agree.

The two logs are followed through the stages side by side. Each stage turns lists of
corresponding records into lists of corresponding records; what is computed from such lists
without looking at names is then the same for both.
-/

namespace MixedWorkload

/-! ### Corresponding records -/

/-- **A record under another name**: of the same type and latency, and by the worker that
goes by the new name. Its start and its phase may be any. -/
structure TimingRecord.Renames (rename : WorkerId → WorkerId) (r r' : TimingRecord) :
    Prop where
  /-- What was executed is the same. -/
  type_eq : r.type = r'.type
  /-- It took as long. -/
  latency_eq : r.latency = r'.latency
  /-- Who executed it has another name. -/
  worker_eq : rename r.worker = r'.worker

/-- Two normalized records with the same results, of records that correspond. -/
structure NormalizedRecord.Carries (R : TimingRecord → TimingRecord → Prop)
    (n n' : NormalizedRecord) : Prop where
  /-- The records correspond. -/
  record : R n.record n'.record
  /-- The counts are the same. -/
  newOrders_eq : n.newOrders = n'.newOrders
  /-- So are the corrected latencies. -/
  latency_eq : n.latency = n'.latency
  /-- Both are analytical, or neither. -/
  analytical_eq : n.analytical = n'.analytical

/-- What corresponding members of two lists have in common, the lists have in common. -/
theorem map_eq_of_forall₂ {α β γ : Type*} {R : α → β → Prop} {f : α → γ} {g : β → γ}
    {xs : List α} {ys : List β} (h : List.Forall₂ R xs ys) (hfg : ∀ x y, R x y → f x = g y) :
    xs.map f = ys.map g := by
  induction h with
  | nil => rfl
  | cons hxy _ ih => rw [List.map_cons, List.map_cons, hfg _ _ hxy, ih]

/-- Corresponding members that also have the same values correspond in a stronger sense. -/
theorem forall₂_and_of_map_eq {α β γ : Type*} {R : α → β → Prop} {f : α → γ} {g : β → γ}
    {xs : List α} {ys : List β} (h : List.Forall₂ R xs ys) (hmap : xs.map f = ys.map g) :
    List.Forall₂ (fun x y => R x y ∧ f x = g y) xs ys := by
  induction h with
  | nil => exact .nil
  | cons hxy _ ih =>
    rw [List.map_cons, List.map_cons, List.cons.injEq] at hmap
    exact .cons ⟨hxy, hmap.1⟩ (ih hmap.2)

/-! ### Normalization -/

section Normalization

variable {R : TimingRecord → TimingRecord → Prop} {rename : WorkerId → WorkerId}
  (hR : ∀ r r', R r r' → r.Renames rename r')

section Pass

variable (table : FactorTable) (mode : NormalizationMode) (newOrderId : TransactionType)

include hR in
/-- **Corresponding records are annotated alike**, after the same number of NewOrders. -/
theorem forall₂_annotate (k : ℕ) {rs rs' : List TimingRecord} (h : List.Forall₂ R rs rs') :
    List.Forall₂ (NormalizedRecord.Carries R) (annotate table mode newOrderId k rs)
      (annotate table mode newOrderId k rs') := by
  induction h generalizing k with
  | nil => exact .nil
  | cons hr _ ih =>
    have hrenames := hR _ _ hr
    rw [annotate, annotate, hrenames.type_eq]
    refine .cons ⟨hr, rfl, ?_, ?_⟩ (ih _)
    · rw [normalizeRecord, normalizeRecord, hrenames.type_eq, hrenames.latency_eq]
    · rw [normalizeRecord, normalizeRecord, hrenames.type_eq]

end Pass

variable {ns ns' : List NormalizedRecord} (h : List.Forall₂ (NormalizedRecord.Carries R) ns ns')

include h

theorem forall₂_filter_analytical :
    List.Forall₂ (NormalizedRecord.Carries R) (ns.filter NormalizedRecord.analytical)
      (ns'.filter NormalizedRecord.analytical) :=
  List.rel_filter (fun _ _ hn => iff_of_eq (congrArg (· = true) hn.analytical_eq)) h

theorem map_latency_eq : ns.map NormalizedRecord.latency = ns'.map NormalizedRecord.latency :=
  map_eq_of_forall₂ h fun _ _ hn => hn.latency_eq

theorem forall₂_liftAll (amount : Float) :
    List.Forall₂ (NormalizedRecord.Carries R) (liftAll amount ns) (liftAll amount ns') := by
  rw [liftAll, liftAll, List.forall₂_map_left_iff, List.forall₂_map_right_iff]
  refine h.imp fun n n' hn => ?_
  rw [hn.analytical_eq]
  split
  · exact ⟨hn.record, hn.newOrders_eq, congrArg (· - amount) hn.latency_eq, rfl⟩
  · exact hn

/-- **Corresponding records are lifted alike**, by the same amount. -/
theorem forall₂_liftNegative :
    List.Forall₂ (NormalizedRecord.Carries R) (liftNegative ns).1 (liftNegative ns').1 ∧
      (liftNegative ns).2 = (liftNegative ns').2 := by
  have hleast : leastLatency ns = leastLatency ns' := by
    rw [leastLatency, leastLatency, map_latency_eq (forall₂_filter_analytical h)]
  rw [liftNegative, liftNegative, hleast]
  split
  · exact ⟨h, rfl⟩
  · exact ⟨forall₂_liftAll h _, rfl⟩

omit h
include hR

/-- **Corresponding logs are normalized alike**, with the same correction. -/
theorem TimingLog.forall₂_normalize (table : FactorTable) (mode : NormalizationMode)
    (newOrderId : TransactionType) {rs rs' : List TimingRecord} (h : List.Forall₂ R rs rs') :
    List.Forall₂ (NormalizedRecord.Carries R) (normalize ⟨rs⟩ table mode newOrderId).records
        (normalize ⟨rs'⟩ table mode newOrderId).records ∧
      (normalize ⟨rs⟩ table mode newOrderId).correction =
        (normalize ⟨rs'⟩ table mode newOrderId).correction := by
  have hannotated := forall₂_annotate hR table mode newOrderId 0 h
  cases mode with
  | subtractive => exact forall₂_liftNegative hannotated
  | divisive s => exact ⟨hannotated, rfl⟩

end Normalization

/-! ### Groups -/

/-- A group without what it says about times. -/
def QueryGroup.withoutStarts (g : QueryGroup) : QueryGroup :=
  { g with firstStart := 0.0, lastStart := 0.0 }

/-- Groups without what they say about times. -/
def QueryGroups.withoutStarts (q : QueryGroups) : QueryGroups :=
  { q with groups := q.groups.map QueryGroup.withoutStarts }

/-- The workers of a list of records. -/
def workersOf (ns : List NormalizedRecord) : Set WorkerId :=
  {w | ∃ n ∈ ns, n.record.worker = w}

theorem workersOf_mono {ns ns' : List NormalizedRecord} (h : ns ⊆ ns') :
    workersOf ns ⊆ workersOf ns' := by
  rintro w ⟨n, hn, rfl⟩
  exact ⟨n, h hn, rfl⟩

section Grouping

variable {R : TimingRecord → TimingRecord → Prop} {rename : WorkerId → WorkerId}
  (hR : ∀ r r', R r r' → r.Renames rename r') {ns ns' : List NormalizedRecord}
  (h : List.Forall₂ (NormalizedRecord.Carries R) ns ns')
  (hinj : Set.InjOn rename (workersOf ns))

include hR h

theorem occurringTypes_congr : QueryGroups.occurringTypes ns = QueryGroups.occurringTypes ns' := by
  have htypes : ns.map (fun n => n.record.type) = ns'.map fun n => n.record.type :=
    map_eq_of_forall₂ h fun _ _ hn => (hR _ _ hn.record).type_eq
  rw [QueryGroups.occurringTypes, QueryGroups.occurringTypes, htypes]

theorem forall₂_recordsOf (t : TransactionType) :
    List.Forall₂ (NormalizedRecord.Carries R) (QueryGroups.recordsOf t ns)
      (QueryGroups.recordsOf t ns') := by
  refine List.rel_filter (fun n n' hn => ?_) h
  exact iff_of_eq (congrArg (fun type => (type == t) = true) (hR _ _ hn.record).type_eq)

include hinj

/-- **A renaming does not change the number of workers**, if no two of them get one name. -/
theorem countWorkers_congr : countWorkers ns = countWorkers ns' := by
  have hworkers : (ns.map fun n => n.record.worker).map rename =
      ns'.map fun n => n.record.worker := by
    rw [List.map_map]
    exact map_eq_of_forall₂ h fun _ _ hn => (hR _ _ hn.record).worker_eq
  have himage : (ns'.map fun n => n.record.worker).toFinset =
      (ns.map fun n => n.record.worker).toFinset.image rename := by
    rw [← hworkers]
    ext w
    simp only [List.mem_toFinset, List.mem_map, Finset.mem_image]
  rw [countWorkers, countWorkers, length_eraseDups, length_eraseDups, himage,
    Finset.card_image_of_injOn]
  refine hinj.mono fun w hw => ?_
  exact List.mem_map.mp (List.mem_toFinset.mp hw)

/-- **The summaries of corresponding records** differ in times only. -/
theorem withoutStarts_ofRecords (range : AnalyticalRange) (t : TransactionType) :
    (QueryGroup.ofRecords range t ns).withoutStarts =
      (QueryGroup.ofRecords range t ns').withoutStarts := by
  simp only [QueryGroup.ofRecords, QueryGroup.withoutStarts, map_latency_eq h, h.length_eq,
    countWorkers_congr hR h hinj]

/-- Not even in these, if they started at the same times. -/
theorem ofRecords_congr (range : AnalyticalRange) (t : TransactionType)
    (hstarts : ns.map (fun n => n.record.start) = ns'.map fun n => n.record.start) :
    QueryGroup.ofRecords range t ns = QueryGroup.ofRecords range t ns' := by
  simp only [QueryGroup.ofRecords, map_latency_eq h, h.length_eq, hstarts,
    countWorkers_congr hR h hinj]

end Grouping

namespace QueryGroups

/-- **Grouping alike**: logs with the same types and as many workers have groups that look
the same in a form in which the summaries of each type do. -/
theorem map_ofLog_congr (form : QueryGroup → QueryGroup) {log log' : NormalizedLog}
    (hrange : log.range = log'.range)
    (htypes : occurringTypes log.analytical = occurringTypes log'.analytical)
    (hworkers : countWorkers log.analytical = countWorkers log'.analytical)
    (hgroups : ∀ t, form (QueryGroup.ofRecords log.range t (recordsOf t log.analytical)) =
      form (QueryGroup.ofRecords log.range t (recordsOf t log'.analytical))) :
    (ofLog log).map (fun q => { q with groups := q.groups.map form }) =
      (ofLog log').map fun q => { q with groups := q.groups.map form } := by
  by_cases hnone : log.analytical = []
  · have hnone' : log'.analytical = [] := by
      rwa [← occurringTypes_eq_nil_iff, ← htypes, occurringTypes_eq_nil_iff]
    rw [ofLog_eq_error hnone, ofLog_eq_error hnone', hrange]
  · have hsome' : log'.analytical ≠ [] := by
      rwa [Ne, ← occurringTypes_eq_nil_iff, ← htypes, occurringTypes_eq_nil_iff]
    rw [ofLog_eq_ok hnone, ofLog_eq_ok hsome', ofRecords, ofRecords, ← htypes, ← hworkers,
      ← hrange]
    simp only [Except.map, List.map_map]
    have hmap : form ∘ (fun t => QueryGroup.ofRecords log.range t (recordsOf t log.analytical)) =
        form ∘ fun t => QueryGroup.ofRecords log.range t (recordsOf t log'.analytical) :=
      funext hgroups
    rw [hmap]

end QueryGroups

section Grouping

variable {R : TimingRecord → TimingRecord → Prop} {rename : WorkerId → WorkerId}
  (hR : ∀ r r', R r r' → r.Renames rename r') {log log' : NormalizedLog}
  (h : List.Forall₂ (NormalizedRecord.Carries R) log.analytical log'.analytical)
  (hinj : Set.InjOn rename (workersOf log.analytical)) (hrange : log.range = log'.range)

include hR h hinj hrange

/-- **Corresponding logs have groups that differ in times only.** -/
theorem withoutStarts_ofLog :
    (QueryGroups.ofLog log).map QueryGroups.withoutStarts =
      (QueryGroups.ofLog log').map QueryGroups.withoutStarts := by
  refine QueryGroups.map_ofLog_congr QueryGroup.withoutStarts hrange (occurringTypes_congr hR h)
    (countWorkers_congr hR h hinj) fun t => ?_
  refine withoutStarts_ofRecords hR (forall₂_recordsOf hR h t) (hinj.mono ?_) log.range t
  exact workersOf_mono List.filter_sublist.subset

/-- **Corresponding logs with the same starts have the same groups.** -/
theorem ofLog_eq_of_starts (hstarts : ∀ r r', R r r' → r.start = r'.start) :
    QueryGroups.ofLog log = QueryGroups.ofLog log' := by
  have hmap := QueryGroups.map_ofLog_congr id hrange (occurringTypes_congr hR h)
    (countWorkers_congr hR h hinj) fun t => by
      refine ofRecords_congr hR (forall₂_recordsOf hR h t) (hinj.mono ?_) log.range t ?_
      · exact workersOf_mono List.filter_sublist.subset
      · exact map_eq_of_forall₂ (forall₂_recordsOf hR h t) fun _ _ hn => hstarts _ _ hn.record
  have hid : (fun q : QueryGroups => { q with groups := q.groups.map id }) = id :=
    funext fun q => by rw [List.map_id, id]
  rwa [hid, Except.map_id] at hmap

end Grouping

/-! ### Metrics -/

section Metrics

variable (power : Float → Float → Float) (policy : MeanPolicy) (q : QueryGroups)

theorem distinctWorkers_withoutStarts :
    q.withoutStarts.distinctWorkers = q.distinctWorkers := rfl

theorem meanLatencies_withoutStarts : q.withoutStarts.meanLatencies = q.meanLatencies := by
  rw [QueryGroups.meanLatencies, QueryGroups.withoutStarts, List.map_map]
  rfl

/-- **The geometric mean does not look at times**, nor does its failure. -/
theorem geometricMeanBy_withoutStarts :
    geometricMeanBy power policy q.withoutStarts = geometricMeanBy power policy q := by
  have hfirst : q.withoutStarts.firstNonPositive? =
      q.firstNonPositive?.map QueryGroup.withoutStarts :=
    Scheme.find?_map_congr QueryGroup.withoutStarts fun _ _ => rfl
  have hlength : q.withoutStarts.length = q.length := List.length_map _
  have hempty : q.withoutStarts.isEmpty = q.isEmpty := List.isEmpty_map
  unfold geometricMeanBy
  rw [hempty, hlength, meanLatencies_withoutStarts, hfirst]
  cases policy with
  | permissive => rfl
  | strict => cases q.firstNonPositive? <;> rfl

end Metrics

/-! ### Evaluations -/

namespace Evaluation

/-- **The same latencies**: two evaluations agree on all that is about counts and latencies,
for every record, every group and the whole log. -/
structure SameLatencies (e e' : Evaluation) : Prop where
  /-- The amount by which analytical latencies were raised. -/
  correction_eq : e.log.correction = e'.log.correction
  /-- The NewOrders up to each record, and its corrected latency. -/
  records_eq : e.log.records.map (fun n => (n.newOrders, n.latency)) =
    e'.log.records.map fun n => (n.newOrders, n.latency)
  /-- The groups, but for their first and last starts. -/
  groups_eq : e.groups.withoutStarts = e'.groups.withoutStarts
  /-- The geometric mean of the latencies. -/
  geometricMeanLatency_eq : e.metrics.geometricMeanLatency = e'.metrics.geometricMeanLatency
  /-- The time of one execution of every query. -/
  querySetTime_eq : e.metrics.querySetTime = e'.metrics.querySetTime
  /-- The queries per hour of one worker. -/
  queriesPerHour_eq : e.metrics.queriesPerHour = e'.metrics.queriesPerHour
  /-- The queries per hour of all workers. -/
  effectiveQueriesPerHour_eq :
    e.metrics.effectiveQueriesPerHour = e'.metrics.effectiveQueriesPerHour

/-- **The same series**: what is about times agrees as well. -/
structure SameSeries (e e' : Evaluation) : Prop where
  /-- NewOrders per minute. -/
  transactionalThroughput_eq :
    e.metrics.transactionalThroughput = e'.metrics.transactionalThroughput
  /-- The groups, with their first and last starts. -/
  groups_eq : e.groups = e'.groups
  /-- The series for plotting, or the failure to build them. -/
  plotData_eq : e.plotData = e'.plotData

section Renaming

variable {power : Float → Float → Float} {options : EvaluationOptions}
  {rename : WorkerId → WorkerId} {rs rs' : List TimingRecord}

/-- The workers of the queries are workers of the log. -/
theorem workersOf_analytical (table : FactorTable) (mode : NormalizationMode)
    (newOrderId : TransactionType) (log : TimingLog) :
    workersOf (log.normalize table mode newOrderId).analytical ⊆
      {w | ∃ r ∈ log.records, r.worker = w} := by
  rintro w ⟨n, hn, rfl⟩
  have hrecords := Scheme.map_record_normalize ⟨table, mode, newOrderId⟩ log
  refine ⟨n.record, ?_, rfl⟩
  rw [← hrecords]
  exact List.mem_map_of_mem (List.mem_filter.mp hn).1

/-- What an accepted evaluation has made of its log. -/
theorem log_of_ofLogBy {table : FactorTable} (haccepts : options.Accepts table)
    {log : TimingLog} {e : Evaluation} (h : ofLogBy power log options = .ok e) :
    e.log = log.normalize table options.mode options.config.newOrderId ∧
      QueryGroups.ofLog e.log = .ok e.groups ∧
      e.metrics.transactionalThroughput = (options.scheme table).throughput log.records ∧
      e.binWidth = options.config.binWidth := by
  obtain ⟨table', types, haccepts', htypes, hne, -, rfl⟩ := eq_result_of_ofLogBy h
  obtain rfl : table' = table :=
    Except.ok.inj (haccepts'.resolve_eq.symm.trans haccepts.resolve_eq)
  exact ⟨rfl, (options.scheme table').ofLog_normalize htypes hne, rfl, rfl⟩

variable (hinj : Set.InjOn rename {w | ∃ r ∈ rs, r.worker = w})

include hinj

/-- **Renamed logs have the same latencies**, once the options are accepted. -/
theorem sameLatencies_of_renames {table : FactorTable} (haccepts : options.Accepts table)
    (h : List.Forall₂ (TimingRecord.Renames rename) rs rs') :
    EndAlike SameLatencies (ofLogBy power ⟨rs⟩ options) (ofLogBy power ⟨rs'⟩ options) := by
  have hR : ∀ r r', TimingRecord.Renames rename r r' → r.Renames rename r' := fun _ _ h => h
  obtain ⟨hrecords, hcorrection⟩ := TimingLog.forall₂_normalize hR table options.mode
    options.config.newOrderId h
  have hgroups := withoutStarts_ofLog hR (forall₂_filter_analytical hrecords)
    (hinj.mono (workersOf_analytical _ _ _ ⟨rs⟩)) rfl
  simp only [ofLogBy_of_accepts haccepts, bind, Except.bind]
  rcases cases_of_map_eq hgroups with ⟨fault, hq, hq'⟩ | ⟨q, q', hq, hq', hsame⟩
  · rw [hq, hq']
    exact .error fault
  · -- only the starts tell the groups apart, and the metrics of queries do not look at them
    have hmeans : q.meanLatencies = q'.meanLatencies := by
      rw [← meanLatencies_withoutStarts q, hsame, meanLatencies_withoutStarts]
    have hmean : geometricMeanBy power options.policy q =
        geometricMeanBy power options.policy q' := by
      rw [← geometricMeanBy_withoutStarts, hsame, geometricMeanBy_withoutStarts]
    have hworkers : q.distinctWorkers = q'.distinctWorkers := by
      rw [← distinctWorkers_withoutStarts q, hsame, distinctWorkers_withoutStarts]
    simp only [hq, hq', Metrics.computeBy, bind, Except.bind, hmean, querySetTime, hmeans,
      hworkers]
    cases geometricMeanBy power options.policy q' with
    | error fault => exact .error fault
    | ok mean =>
      refine .ok ⟨hcorrection, ?_, hsame, rfl, rfl, rfl, rfl⟩
      exact map_eq_of_forall₂ hrecords fun _ _ hn => Prod.ext hn.newOrders_eq hn.latency_eq

/-- **Renamed logs with the same starts have the same series.** -/
theorem sameSeries_of_renames {table : FactorTable} (haccepts : options.Accepts table)
    (h : List.Forall₂ (TimingRecord.Renames rename) rs rs')
    (hstarts : rs.map TimingRecord.start = rs'.map TimingRecord.start) {e e' : Evaluation}
    (he : ofLogBy power ⟨rs⟩ options = .ok e) (he' : ofLogBy power ⟨rs'⟩ options = .ok e') :
    SameSeries e e' := by
  have hboth := forall₂_and_of_map_eq h hstarts
  have hR : ∀ r r', (TimingRecord.Renames rename r r' ∧ r.start = r'.start) →
      r.Renames rename r' := fun _ _ h => h.1
  obtain ⟨hlog, hgroups, hthroughput, hwidth⟩ := log_of_ofLogBy haccepts he
  obtain ⟨hlog', hgroups', hthroughput', hwidth'⟩ := log_of_ofLogBy haccepts he'
  have hq : e.groups = e'.groups := by
    have hrecords := (TimingLog.forall₂_normalize hR table options.mode
      options.config.newOrderId hboth).1
    have hofLog := ofLog_eq_of_starts hR (forall₂_filter_analytical hrecords)
      (hinj.mono (workersOf_analytical _ _ _ ⟨rs⟩)) rfl fun _ _ h => h.2
    rw [← hlog, ← hlog', hgroups, hgroups'] at hofLog
    exact Except.ok.inj hofLog
  have hnewOrders : (rs.filter fun r => r.type == options.config.newOrderId).map
        (fun r => greater r.start 0.0) =
      (rs'.filter fun r => r.type == options.config.newOrderId).map
        fun r => greater r.start 0.0 := by
    refine map_eq_of_forall₂ (List.rel_filter (fun r r' hr => ?_) hboth)
      fun _ _ hr => congrArg (greater · 0.0) hr.2
    exact iff_of_eq (congrArg (fun type => (type == options.config.newOrderId) = true)
      hr.1.type_eq)
  have hcount : rs.countP (fun r => r.type == options.config.newOrderId) =
      rs'.countP fun r => r.type == options.config.newOrderId := by
    have hlength := congrArg List.length hnewOrders
    rwa [List.length_map, List.length_map, ← List.countP_eq_length_filter,
      ← List.countP_eq_length_filter] at hlength
  have hduration : Scheme.duration rs = Scheme.duration rs' := by
    rw [Scheme.duration, Scheme.duration, hstarts]
  refine ⟨?_, hq, ?_⟩
  · rw [hthroughput, hthroughput', Scheme.throughput, Scheme.throughput, hduration]
    exact congrArg (fun n : ℕ => if 0.0 < Scheme.duration rs' then
      n.toFloat / Scheme.duration rs' * 60.0 else 0.0) hcount
  · have hseries : e.log.newOrderStarts = e'.log.newOrderStarts := by
      rw [newOrderStarts_of_ofLogBy he, newOrderStarts_of_ofLogBy he']
      exact hnewOrders
    rw [plotData, plotData, PlotData.build, PlotData.build, NormalizedLog.throughputSeries,
      NormalizedLog.throughputSeries, hseries, hq, hwidth, hwidth']

end Renaming

/-- **Latencies do not depend on times, phases or names**: logs with the same types and
latencies, record by record, whose workers have other names but remain apart, are evaluated
to the same latencies or fail in the same way. If they also agree in their starts, they have
the same throughput, groups and series for plotting. -/
theorem endAlike_of_renames (power : Float → Float → Float) (options : EvaluationOptions)
    {rename : WorkerId → WorkerId} {rs rs' : List TimingRecord}
    (h : List.Forall₂ (TimingRecord.Renames rename) rs rs')
    (hinj : Set.InjOn rename {w | ∃ r ∈ rs, r.worker = w}) :
    EndAlike SameLatencies (ofLogBy power ⟨rs⟩ options) (ofLogBy power ⟨rs'⟩ options) ∧
      (rs.map TimingRecord.start = rs'.map TimingRecord.start →
        EndAlike SameSeries (ofLogBy power ⟨rs⟩ options) (ofLogBy power ⟨rs'⟩ options)) := by
  rcases eq_error_or_accepts power options with ⟨fault, hfault⟩ | ⟨table, haccepts⟩
  · rw [hfault, hfault]
    exact ⟨.error fault, fun _ => .error fault⟩
  · have hlatencies : EndAlike SameLatencies (ofLogBy power ⟨rs⟩ options)
        (ofLogBy power ⟨rs'⟩ options) := sameLatencies_of_renames hinj haccepts h
    refine ⟨hlatencies, fun hstarts => hlatencies.imp fun e e' he he' _ => ?_⟩
    exact sameSeries_of_renames hinj haccepts h hstarts he he'

/-- The small log with the names of its workers exchanged, in another phase and with other
starts. -/
def swappedLog (first second : Float) : TimingLog :=
  ⟨[⟨2, first, 0.5, "b", 1⟩, ⟨7, second, 2.0, "a", 1⟩]⟩

/-- Exchanging the two names. -/
def swapNames (w : WorkerId) : WorkerId :=
  if w = "a" then "b" else "a"

/-- The small log with its names exchanged has the same latencies when it runs backwards in
time, and the same series when it runs as before. -/
theorem endAlike_swappedLog :
    Set.InjOn swapNames {w | ∃ r ∈ smallLog.records, r.worker = w} ∧
      List.Forall₂ (TimingRecord.Renames swapNames) smallLog.records
        (swappedLog 1.0 0.0).records ∧
      EndAlike SameLatencies (ofLogBy Float.pow ⟨smallLog.records⟩ smallOptions)
        (ofLogBy Float.pow ⟨(swappedLog 1.0 0.0).records⟩ smallOptions) ∧
      EndAlike SameSeries (ofLogBy Float.pow ⟨smallLog.records⟩ smallOptions)
        (ofLogBy Float.pow ⟨(swappedLog 0.0 1.0).records⟩ smallOptions) := by
  have hinj : Set.InjOn swapNames {w | ∃ r ∈ smallLog.records, r.worker = w} := by
    rintro w ⟨r, hr, rfl⟩ w' ⟨r', hr', rfl⟩
    simp only [smallLog, List.mem_cons, List.not_mem_nil, or_false] at hr hr'
    rcases hr with rfl | rfl <;> rcases hr' with rfl | rfl <;> decide
  have hnames : swapNames "a" = "b" ∧ swapNames "b" = "a" := by decide
  have hrenames : ∀ first second, List.Forall₂ (TimingRecord.Renames swapNames)
      smallLog.records (swappedLog first second).records := fun _ _ =>
    .cons ⟨rfl, rfl, hnames.1⟩ (.cons ⟨rfl, rfl, hnames.2⟩ .nil)
  exact ⟨hinj, hrenames 1.0 0.0,
    (endAlike_of_renames Float.pow smallOptions (hrenames 1.0 0.0) hinj).1,
    (endAlike_of_renames Float.pow smallOptions (hrenames 0.0 1.0) hinj).2 rfl⟩

end Evaluation

end MixedWorkload

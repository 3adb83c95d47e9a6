import MixedWorkload.Evaluation
import MixedWorkload.Proofs.Configuration
import MixedWorkload.Proofs.Metrics

/-!
# What an evaluation comes to

An evaluation has five ways to end, and which one it is can be read off the settings, the
factors and the list of records. `MixedWorkload.Evaluation.Outcome` lists them, each with
its condition and its result, and `MixedWorkload.Evaluation.outcome_ofLogBy` says that there
is no other. The conditions exclude each other, so the list turns into exact conditions for
every kind of failure (`MixedWorkload.Evaluation.failsExactly`).

If the evaluation succeeds, its metrics are those that `MixedWorkload.Scheme.metrics`
defines from the records (`MixedWorkload.Evaluation.metrics_ofLogBy`).

Everything here holds for any power function, that of the machine being one of them.
-/

namespace MixedWorkload

/-! ### What an evaluation starts from -/

namespace Scheme

variable (σ : Scheme) (rs : List TimingRecord)

/-- A type occurs if it is analytical and some record has it. -/
def Occurs (t : TransactionType) : Prop :=
  σ.IsAnalytical t ∧ ∃ r ∈ rs, r.type = t

variable {σ rs}

theorem IsTypeList.mem_iff_occurs {types : List TransactionType} (h : σ.IsTypeList rs types)
    (t : TransactionType) : t ∈ types ↔ σ.Occurs rs t :=
  h.mem_iff t

/-- Every list of records has its list of types. -/
theorem exists_isTypeList (σ : Scheme) (rs : List TimingRecord) :
    ∃ types, σ.IsTypeList rs types :=
  ⟨_, σ.isTypeList_occurringTypes rs⟩

end Scheme

namespace EvaluationOptions

variable (options : EvaluationOptions) (table : FactorTable)

/-- The settings are valid and the factors make a table. -/
structure Accepts : Prop where
  /-- The settings pass. -/
  isValid : options.config.IsValid
  /-- The factors are accepted for the range of the settings. -/
  resolve_eq : FactorTable.resolve options.factors options.config.range = .ok table

/-- What the metrics of a log depend on, once the factors are known. -/
def scheme : Scheme :=
  ⟨table, options.mode, options.config.newOrderId⟩

variable {options table}

theorem Accepts.range_eq (h : options.Accepts table) : table.range = options.config.range :=
  FactorTable.range_of_resolve h.resolve_eq

end EvaluationOptions

namespace Evaluation

/-! ### The five outcomes -/

section Outcome

variable (power : Float → Float → Float) (log : TimingLog) (options : EvaluationOptions)

/-- The evaluation of a log whose analytical types are known. -/
def result (table : FactorTable) (types : List TransactionType) : Evaluation where
  log := log.normalize table options.mode options.config.newOrderId
  groups := (options.scheme table).groups log.records types
  metrics := (options.scheme table).metrics log.records power types
  phaseBoundaries := log.phaseBoundaries
  binWidth := options.config.binWidth

/-- **The ways an evaluation ends.** -/
inductive Outcome : Except Error Evaluation → Prop
  /-- The settings are not valid. -/
  | invalid {e : Error} (h : options.config.validate = .error e) : Outcome (.error e)
  /-- The factors are refused. -/
  | refusedFactors {e : Error} (hvalid : options.config.IsValid)
      (h : FactorTable.resolve options.factors options.config.range = .error e) :
      Outcome (.error e)
  /-- No record is analytical. -/
  | noQueries {table : FactorTable} (h : options.Accepts table)
      (hno : ∀ t, ¬(options.scheme table).Occurs log.records t) :
      Outcome (.error (.insufficientData (.noAnalyticalQueries options.config.range)))
  /-- The policy is strict, and there is a least type with a mean that it refuses. -/
  | refusedMean {table : FactorTable} {t : TransactionType} (h : options.Accepts table)
      (hstrict : options.policy = .strict) (hoccurs : (options.scheme table).Occurs log.records t)
      (hrefused : (options.scheme table).IsRefused log.records t)
      (hleast : ∀ t', (options.scheme table).Occurs log.records t' →
        (options.scheme table).IsRefused log.records t' → t ≤ t') :
      Outcome (.error (.domain (.meanLatency ((options.config.range.queryNumber t).getD 0) t
        ((options.scheme table).meanOf log.records t))))
  /-- There are types, and no mean is refused. -/
  | ok {table : FactorTable} {types : List TransactionType} (h : options.Accepts table)
      (htypes : (options.scheme table).IsTypeList log.records types) (hne : types ≠ [])
      (hpolicy : options.policy = .strict →
        ∀ t ∈ types, ¬(options.scheme table).IsRefused log.records t) :
      Outcome (.ok (result power log options table types))

variable {power log options}

/-- Once the settings and the factors are accepted, the log decides. -/
theorem ofLogBy_of_accepts {table : FactorTable} (h : options.Accepts table) :
    ofLogBy power log options = (do
      let normalized := log.normalize table options.mode options.config.newOrderId
      let groups ← QueryGroups.ofLog normalized
      let metrics ← Metrics.computeBy power table.range options.policy normalized groups
      return ⟨normalized, groups, metrics, log.phaseBoundaries, options.config.binWidth⟩) := by
  have hvalidate : options.config.validate = .ok options.config :=
    Config.validate_eq_ok_iff.mpr ⟨h.isValid, rfl⟩
  rw [ofLogBy, hvalidate, h.range_eq]
  simp only [bind, Except.bind, h.resolve_eq]

/-- **The evaluation succeeds** if there are types and the policy lets their means pass. -/
theorem ofLogBy_eq_ok {table : FactorTable} {types : List TransactionType}
    (h : options.Accepts table) (htypes : (options.scheme table).IsTypeList log.records types)
    (hne : types ≠ [])
    (hpolicy : options.policy = .strict →
      ∀ t ∈ types, ¬(options.scheme table).IsRefused log.records t) :
    ofLogBy power log options = .ok (result power log options table types) := by
  have hgroups := (options.scheme table).ofLog_normalize htypes hne
  have hcount : table.range.queryCount =
      table.range.upper.toNat - table.range.lower.toNat + 1 := by
    rw [h.range_eq]
    exact h.isValid.queryCount_eq
  have hmetrics := (options.scheme table).computeBy_normalize htypes hne rfl hcount power hpolicy
  simp only [EvaluationOptions.scheme] at hgroups hmetrics
  simp only [ofLogBy_of_accepts h, hgroups, hmetrics, bind, Except.bind]
  rfl

theorem ofLogBy_eq_noQueries {table : FactorTable} (h : options.Accepts table)
    (hno : ∀ t, ¬(options.scheme table).Occurs log.records t) :
    ofLogBy power log options =
      .error (.insufficientData (.noAnalyticalQueries options.config.range)) := by
  have hnone : ∀ r ∈ log.records, ¬(options.scheme table).IsAnalytical r.type :=
    fun r hr ha => hno r.type ⟨ha, r, hr, rfl⟩
  have hgroups := (options.scheme table).ofLog_normalize_eq_error hnone
  simp only [EvaluationOptions.scheme] at hgroups
  simp only [ofLogBy_of_accepts h, hgroups, bind, Except.bind, h.range_eq]

/-- **A refused mean** ends the evaluation under the strict policy. -/
theorem ofLogBy_eq_refusedMean {table : FactorTable} {types : List TransactionType}
    (h : options.Accepts table) (htypes : (options.scheme table).IsTypeList log.records types)
    (hstrict : options.policy = .strict) {t : TransactionType}
    (ht : (types.find? fun t => (options.scheme table).IsRefused log.records t) = some t) :
    ofLogBy power log options =
      .error (.domain (.meanLatency ((options.config.range.queryNumber t).getD 0) t
        ((options.scheme table).meanOf log.records t))) := by
  have hne : types ≠ [] := List.ne_nil_of_mem (List.mem_of_find?_eq_some ht)
  have hgroups := (options.scheme table).ofLog_normalize htypes hne
  have hmetrics := (options.scheme table).computeBy_normalize_eq_error htypes hne
    (log.normalize table options.mode options.config.newOrderId) power ht
  simp only [EvaluationOptions.scheme, h.range_eq] at hgroups hmetrics
  simp only [ofLogBy_of_accepts h, hstrict, hgroups, hmetrics, bind, Except.bind, h.range_eq]
  rfl

theorem ofLogBy_eq_invalid {e : Error} (h : options.config.validate = .error e) :
    ofLogBy power log options = .error e := by
  rw [ofLogBy, h]
  rfl

theorem ofLogBy_eq_refusedFactors {e : Error} (hvalid : options.config.IsValid)
    (h : FactorTable.resolve options.factors options.config.range = .error e) :
    ofLogBy power log options = .error e := by
  rw [ofLogBy, Config.validate_eq_ok_iff.mpr ⟨hvalid, rfl⟩]
  simp only [bind, Except.bind, h]

variable (power log options)

/-- **Every evaluation ends in one of the five ways.** -/
theorem outcome_ofLogBy :
    Outcome power log options (ofLogBy power log options) := by
  cases hv : options.config.validate with
  | error e =>
    rw [ofLogBy_eq_invalid hv]
    exact .invalid hv
  | ok c =>
    have hvalid := (Config.validate_eq_ok_iff.mp hv).1
    cases hr : FactorTable.resolve options.factors options.config.range with
    | error e =>
      rw [ofLogBy_eq_refusedFactors hvalid hr]
      exact .refusedFactors hvalid hr
    | ok table =>
      have haccepts : options.Accepts table := ⟨hvalid, hr⟩
      obtain ⟨types, htypes⟩ := (options.scheme table).exists_isTypeList log.records
      by_cases hne : types = []
      · have hno : ∀ t, ¬(options.scheme table).Occurs log.records t := by
          intro t ht
          rw [← htypes.mem_iff_occurs, hne] at ht
          exact absurd ht List.not_mem_nil
        rw [ofLogBy_eq_noQueries haccepts hno]
        exact .noQueries haccepts hno
      by_cases hpolicy : options.policy = .strict →
          ∀ t ∈ types, ¬(options.scheme table).IsRefused log.records t
      · rw [ofLogBy_eq_ok haccepts htypes hne hpolicy]
        exact .ok haccepts htypes hne hpolicy
      · -- the strict policy refuses some mean, and stops at the first
        rw [Classical.not_imp] at hpolicy
        obtain ⟨hstrict, hnot⟩ := hpolicy
        rw [not_forall] at hnot
        obtain ⟨t', hnot⟩ := hnot
        rw [Classical.not_imp, not_not] at hnot
        obtain ⟨t, ht⟩ := Scheme.exists_find?_isRefused _ hnot.1 hnot.2
        obtain ⟨hmem, hrefused, hleast⟩ := htypes.find?_isRefused _ ht
        rw [ofLogBy_eq_refusedMean haccepts htypes hstrict ht]
        exact .refusedMean haccepts hstrict ((htypes.mem_iff_occurs t).mp hmem) hrefused
          fun t' ht' => hleast t' ((htypes.mem_iff_occurs t').mpr ht')

end Outcome

/-! ### The metrics of an evaluation -/

section Metrics

variable {power : Float → Float → Float} {log : TimingLog} {options : EvaluationOptions}

/-- An evaluation that succeeds is the result for the types that occur. -/
theorem eq_result_of_ofLogBy {e : Evaluation} (h : ofLogBy power log options = .ok e) :
    ∃ table types, options.Accepts table ∧ (options.scheme table).IsTypeList log.records types ∧
      types ≠ [] ∧
      (options.policy = .strict →
        ∀ t ∈ types, ¬(options.scheme table).IsRefused log.records t) ∧
      e = result power log options table types := by
  have hout := outcome_ofLogBy power log options
  rw [h] at hout
  cases hout with
  | ok haccepts htypes hne hpolicy => exact ⟨_, _, haccepts, htypes, hne, hpolicy, rfl⟩

/-- **The metrics of an evaluation** are those that its records define. -/
theorem metrics_ofLogBy {e : Evaluation} (h : ofLogBy power log options = .ok e) :
    ∃ table types,
      FactorTable.resolve options.factors options.config.range = .ok table ∧
      (options.scheme table).IsTypeList log.records types ∧
      e.metrics = (options.scheme table).metrics log.records power types := by
  obtain ⟨table, types, haccepts, htypes, -, -, rfl⟩ := eq_result_of_ofLogBy h
  exact ⟨table, types, haccepts.resolve_eq, htypes, rfl⟩

end Metrics

/-- A NewOrder and the one query of its range. -/
def smallLog : TimingLog :=
  ⟨[⟨2, 0.0, 0.5, "a", 0⟩, ⟨7, 1.0, 2.0, "b", 0⟩]⟩

/-- One query, with a factor of its own. -/
def smallOptions : EvaluationOptions :=
  ⟨⟨2, ⟨7, 7⟩, 5.0⟩, .sequence [0.25], none, .permissive⟩

theorem smallOptions_accepts : smallOptions.Accepts ⟨⟨7, 7⟩, [0.25]⟩ where
  isValid := ⟨by decide, by decide, by decide +kernel⟩
  resolve_eq := FactorTable.resolve_sequence rfl (by decide +kernel)

theorem smallLog_isTypeList :
    (smallOptions.scheme ⟨⟨7, 7⟩, [0.25]⟩).IsTypeList smallLog.records [7] := by
  refine ⟨List.pairwise_singleton _ _, fun t => ?_⟩
  rw [List.mem_singleton]
  constructor
  · rintro rfl
    exact ⟨by decide, ⟨7, 1.0, 2.0, "b", 0⟩, List.mem_cons_of_mem _ List.mem_cons_self, rfl⟩
  · rintro ⟨⟨hge, hle⟩, -⟩
    exact UInt32.le_antisymm hle hge

/-- A log whose evaluation succeeds. -/
theorem metrics_smallLog :
    ∃ e, ofLogBy Float.pow smallLog smallOptions = .ok e ∧ ∃ table types,
      FactorTable.resolve smallOptions.factors smallOptions.config.range = .ok table ∧
      (smallOptions.scheme table).IsTypeList smallLog.records types ∧
      e.metrics = (smallOptions.scheme table).metrics smallLog.records Float.pow types :=
  have h : ofLogBy Float.pow smallLog smallOptions = .ok _ :=
    ofLogBy_eq_ok smallOptions_accepts smallLog_isTypeList (List.cons_ne_nil _ _)
      fun hstrict => (nomatch hstrict)
  ⟨_, h, metrics_ofLogBy h⟩

/-! ### When an evaluation fails -/

section Failures

variable (power : Float → Float → Float) (log : TimingLog) (options : EvaluationOptions)

/-- **The exact conditions of every failure.** -/
structure FailsExactly : Prop where
  /-- The configuration is at fault if and only if the settings or the factors are. -/
  config_iff :
    (∃ fault, ofLogBy power log options = .error (.config fault)) ↔
      (∃ e, options.config.validate = .error e) ∨
        ∃ e, FactorTable.resolve options.factors options.config.range = .error e
  /-- The fault of the settings comes first. -/
  validate_first : ∀ e, options.config.validate = .error e → ofLogBy power log options = .error e
  /-- The fault of the factors comes next. -/
  resolve_next : ∀ c e, options.config.validate = .ok c →
    FactorTable.resolve options.factors options.config.range = .error e →
      ofLogBy power log options = .error e
  /-- Otherwise there is too little data if and only if no record's type is in the range. -/
  insufficientData_iff :
    (∃ fault, ofLogBy power log options = .error (.insufficientData fault)) ↔
      ∃ table, options.Accepts table ∧ ∀ r ∈ log.records,
        ¬(options.config.range.lower ≤ r.type ∧ r.type ≤ options.config.range.upper)
  /-- Otherwise a mean is not in the domain if and only if the policy is strict and the mean
  of a type that occurs is no number or not positive. -/
  domain_iff :
    (∃ fault, ofLogBy power log options = .error (.domain fault)) ↔
      ∃ table, options.Accepts table ∧ options.policy = .strict ∧
        ∃ t, (options.scheme table).Occurs log.records t ∧
          (options.scheme table).IsRefused log.records t
  /-- The message is about the least such type. -/
  domain_least : ∀ fault, ofLogBy power log options = .error (.domain fault) →
    ∃ table t, options.Accepts table ∧ (options.scheme table).Occurs log.records t ∧
      (options.scheme table).IsRefused log.records t ∧
      (∀ t', (options.scheme table).Occurs log.records t' →
        (options.scheme table).IsRefused log.records t' → t ≤ t') ∧
      (Error.domain fault).message =
        "Domain error: query " ++ toString (t.toNat - options.config.range.lower.toNat + 1) ++
          " (type " ++ toString t ++ ") has non-positive mean latency " ++
          Error.number.render ((options.scheme table).meanOf log.records t)
  /-- Otherwise the evaluation succeeds. -/
  ok_iff :
    (∃ e, ofLogBy power log options = .ok e) ↔
      ∃ table, options.Accepts table ∧ (∃ t, (options.scheme table).Occurs log.records t) ∧
        (options.policy = .strict → ∀ t, (options.scheme table).Occurs log.records t →
          ¬(options.scheme table).IsRefused log.records t)
  /-- There is no other kind of failure. -/
  kinds : ∀ e, ofLogBy power log options = .error e →
    (∃ fault, e = .config fault) ∨ (∃ fault, e = .insufficientData fault) ∨
      ∃ fault, e = .domain fault
  /-- No mean is ever taken of no groups. -/
  ne_noGroups : ofLogBy power log options ≠ .error (.insufficientData .noGroups)
  /-- What passes the strict policy comes out the same under the permissive one. -/
  permissive_of_strict : ∀ e, ofLogBy power log { options with policy := .strict } = .ok e →
    ofLogBy power log { options with policy := .permissive } = .ok e

variable {power log options}

/-- **A failure that is no fault of the configuration**: the options are accepted, and either
no type occurs or the strict policy names the least type that it refuses. -/
theorem accepts_of_ofLogBy_eq_error {e : Error} (h : ofLogBy power log options = .error e)
    (hne : ∀ fault, e ≠ .config fault) :
    ∃ table, options.Accepts table ∧
      ((∀ t, ¬(options.scheme table).Occurs log.records t) ∧
          e = .insufficientData (.noAnalyticalQueries options.config.range) ∨
        options.policy = .strict ∧ ∃ t, (options.scheme table).Occurs log.records t ∧
          (options.scheme table).IsRefused log.records t ∧
          (∀ t', (options.scheme table).Occurs log.records t' →
            (options.scheme table).IsRefused log.records t' → t ≤ t') ∧
          e = .domain (.meanLatency ((options.config.range.queryNumber t).getD 0) t
            ((options.scheme table).meanOf log.records t))) := by
  have hout := outcome_ofLogBy power log options
  rw [h] at hout
  cases hout with
  | invalid h =>
    obtain ⟨fault, rfl⟩ := Config.validate_eq_error h
    exact absurd rfl (hne fault)
  | refusedFactors _ h =>
    obtain ⟨fault, rfl⟩ := FactorTable.resolve_eq_error h
    exact absurd rfl (hne fault)
  | noQueries haccepts hno => exact ⟨_, haccepts, Or.inl ⟨hno, rfl⟩⟩
  | refusedMean haccepts hstrict hoccurs hrefused hleast =>
    exact ⟨_, haccepts, Or.inr ⟨hstrict, _, hoccurs, hrefused, hleast, rfl⟩⟩

/-- Faults of the factors come out, unless the settings have one, too. -/
theorem exists_config_of_resolve {e : Error}
    (h : FactorTable.resolve options.factors options.config.range = .error e) :
    ∃ fault, ofLogBy power log options = .error (.config fault) := by
  cases hv : options.config.validate with
  | error e' =>
    obtain ⟨fault, rfl⟩ := Config.validate_eq_error hv
    exact ⟨fault, ofLogBy_eq_invalid hv⟩
  | ok c =>
    obtain ⟨fault, rfl⟩ := FactorTable.resolve_eq_error h
    exact ⟨fault, ofLogBy_eq_refusedFactors (Config.validate_eq_ok_iff.mp hv).1 h⟩

theorem config_iff :
    (∃ fault, ofLogBy power log options = .error (.config fault)) ↔
      (∃ e, options.config.validate = .error e) ∨
        ∃ e, FactorTable.resolve options.factors options.config.range = .error e := by
  constructor
  · rintro ⟨fault, h⟩
    have hout := outcome_ofLogBy power log options
    rw [h] at hout
    cases hout with
    | invalid h => exact Or.inl ⟨_, h⟩
    | refusedFactors _ h => exact Or.inr ⟨_, h⟩
  · rintro (⟨e, h⟩ | ⟨e, h⟩)
    · obtain ⟨fault, rfl⟩ := Config.validate_eq_error h
      exact ⟨fault, ofLogBy_eq_invalid h⟩
    · exact exists_config_of_resolve h

/-- No type occurs if no record is in the range of the settings. -/
theorem not_occurs_iff {table : FactorTable} (h : options.Accepts table) :
    (∀ t, ¬(options.scheme table).Occurs log.records t) ↔ ∀ r ∈ log.records,
      ¬(options.config.range.lower ≤ r.type ∧ r.type ≤ options.config.range.upper) := by
  rw [← h.range_eq]
  constructor
  · intro hno r hr ha
    exact hno r.type ⟨ha, r, hr, rfl⟩
  · rintro hno t ⟨ha, r, hr, rfl⟩
    exact hno r hr ha

theorem insufficientData_iff :
    (∃ fault, ofLogBy power log options = .error (.insufficientData fault)) ↔
      ∃ table, options.Accepts table ∧ ∀ r ∈ log.records,
        ¬(options.config.range.lower ≤ r.type ∧ r.type ≤ options.config.range.upper) := by
  constructor
  · rintro ⟨fault, h⟩
    obtain ⟨table, haccepts, ⟨hno, -⟩ | ⟨-, t, -, -, -, heq⟩⟩ :=
      accepts_of_ofLogBy_eq_error h fun _ => nofun
    · exact ⟨table, haccepts, (not_occurs_iff haccepts).mp hno⟩
    · cases heq
  · rintro ⟨table, haccepts, hno⟩
    exact ⟨_, ofLogBy_eq_noQueries haccepts ((not_occurs_iff haccepts).mpr hno)⟩

/-- A refused mean of some type is a failure about the least type of this kind. -/
theorem exists_domain_of_isRefused {table : FactorTable} (h : options.Accepts table)
    (hstrict : options.policy = .strict) {t : TransactionType}
    (ht : (options.scheme table).Occurs log.records t)
    (hrefused : (options.scheme table).IsRefused log.records t) :
    ∃ fault, ofLogBy power log options = .error (.domain fault) := by
  obtain ⟨types, htypes⟩ := (options.scheme table).exists_isTypeList log.records
  obtain ⟨t', ht'⟩ := Scheme.exists_find?_isRefused _ ((htypes.mem_iff_occurs t).mpr ht) hrefused
  exact ⟨_, ofLogBy_eq_refusedMean h htypes hstrict ht'⟩

theorem domain_iff :
    (∃ fault, ofLogBy power log options = .error (.domain fault)) ↔
      ∃ table, options.Accepts table ∧ options.policy = .strict ∧
        ∃ t, (options.scheme table).Occurs log.records t ∧
          (options.scheme table).IsRefused log.records t := by
  constructor
  · rintro ⟨fault, h⟩
    obtain ⟨table, haccepts, ⟨-, heq⟩ | ⟨hstrict, t, ht, hrefused, -, -⟩⟩ :=
      accepts_of_ofLogBy_eq_error h fun _ => nofun
    · cases heq
    · exact ⟨table, haccepts, hstrict, t, ht, hrefused⟩
  · rintro ⟨table, haccepts, hstrict, t, ht, hrefused⟩
    exact exists_domain_of_isRefused haccepts hstrict ht hrefused

/-- The words of a failure about a mean count the query from one. -/
theorem message_meanLatency (hvalid : options.config.IsValid) {t : TransactionType}
    (ht : options.config.range.lower ≤ t ∧ t ≤ options.config.range.upper) (mean : Float) :
    (Error.domain (.meanLatency ((options.config.range.queryNumber t).getD 0) t mean)).message =
      "Domain error: query " ++ toString (t.toNat - options.config.range.lower.toNat + 1) ++
        " (type " ++ toString t ++ ") has non-positive mean latency " ++
        Error.number.render mean := by
  have hprefix : "Domain error: query " = "Domain error: " ++ "query " := rfl
  rw [← hvalid.toNat_queryNumber ht, hprefix]
  generalize (options.config.range.queryNumber t).getD 0 = q
  -- the words of the fault stand in brackets behind the category
  change "Domain error: " ++ ("query " ++ toString q.toNat ++ " (type " ++ toString t ++
    ") has non-positive mean latency " ++ Error.number.render mean) = _
  rw [String.append_assoc, String.append_assoc, String.append_assoc, String.append_assoc,
    String.append_assoc, String.append_assoc, String.append_assoc, String.append_assoc,
    String.append_assoc]

theorem domain_least {fault : DomainFault}
    (h : ofLogBy power log options = .error (.domain fault)) :
    ∃ table t, options.Accepts table ∧ (options.scheme table).Occurs log.records t ∧
      (options.scheme table).IsRefused log.records t ∧
      (∀ t', (options.scheme table).Occurs log.records t' →
        (options.scheme table).IsRefused log.records t' → t ≤ t') ∧
      (Error.domain fault).message =
        "Domain error: query " ++ toString (t.toNat - options.config.range.lower.toNat + 1) ++
          " (type " ++ toString t ++ ") has non-positive mean latency " ++
          Error.number.render ((options.scheme table).meanOf log.records t) := by
  obtain ⟨table, haccepts, ⟨-, heq⟩ | ⟨-, t, hoccurs, hrefused, hleast, heq⟩⟩ :=
    accepts_of_ofLogBy_eq_error h fun _ => nofun
  · cases heq
  · have hrange := hoccurs.1
    simp only [Scheme.IsAnalytical, EvaluationOptions.scheme, haccepts.range_eq] at hrange
    obtain rfl := Error.domain.inj heq
    exact ⟨table, t, haccepts, hoccurs, hrefused, hleast,
      message_meanLatency haccepts.isValid hrange _⟩

theorem ok_iff :
    (∃ e, ofLogBy power log options = .ok e) ↔
      ∃ table, options.Accepts table ∧ (∃ t, (options.scheme table).Occurs log.records t) ∧
        (options.policy = .strict → ∀ t, (options.scheme table).Occurs log.records t →
          ¬(options.scheme table).IsRefused log.records t) := by
  constructor
  · rintro ⟨e, h⟩
    obtain ⟨table, types, haccepts, htypes, hne, hpolicy, -⟩ := eq_result_of_ofLogBy h
    obtain ⟨t, ht⟩ := List.exists_mem_of_ne_nil types hne
    refine ⟨table, haccepts, ⟨t, (htypes.mem_iff_occurs t).mp ht⟩, fun hstrict t ht => ?_⟩
    exact hpolicy hstrict t ((htypes.mem_iff_occurs t).mpr ht)
  · rintro ⟨table, haccepts, ⟨t, ht⟩, hpolicy⟩
    obtain ⟨types, htypes⟩ := (options.scheme table).exists_isTypeList log.records
    refine ⟨_, ofLogBy_eq_ok haccepts htypes ?_ fun hstrict t ht => ?_⟩
    · exact List.ne_nil_of_mem ((htypes.mem_iff_occurs t).mpr ht)
    · exact hpolicy hstrict t ((htypes.mem_iff_occurs t).mp ht)

/-- What is wrong with an evaluation is the configuration, a log without queries, or a mean. -/
theorem eq_of_ofLogBy_eq_error {e : Error} (h : ofLogBy power log options = .error e) :
    (∃ fault, e = .config fault) ∨
      e = .insufficientData (.noAnalyticalQueries options.config.range) ∨
      ∃ fault, e = .domain fault := by
  have hout := outcome_ofLogBy power log options
  rw [h] at hout
  cases hout with
  | invalid h => exact Or.inl (Config.validate_eq_error h)
  | refusedFactors _ h => exact Or.inl (FactorTable.resolve_eq_error h)
  | noQueries => exact Or.inr (Or.inl rfl)
  | refusedMean => exact Or.inr (Or.inr ⟨_, rfl⟩)

theorem permissive_of_strict {e : Evaluation}
    (h : ofLogBy power log { options with policy := .strict } = .ok e) :
    ofLogBy power log { options with policy := .permissive } = .ok e := by
  obtain ⟨table, types, haccepts, htypes, hne, -, rfl⟩ := eq_result_of_ofLogBy h
  have haccepts' : EvaluationOptions.Accepts { options with policy := .permissive } table :=
    ⟨haccepts.isValid, haccepts.resolve_eq⟩
  exact ofLogBy_eq_ok haccepts' htypes hne fun hpolicy => (nomatch hpolicy)

variable (power log options)

/-- **When an evaluation fails**, how, and when it does not. -/
theorem failsExactly : FailsExactly power log options where
  config_iff := config_iff
  validate_first _ h := ofLogBy_eq_invalid h
  resolve_next _ _ hv h := ofLogBy_eq_refusedFactors (Config.validate_eq_ok_iff.mp hv).1 h
  insufficientData_iff := insufficientData_iff
  domain_iff := domain_iff
  domain_least _ h := domain_least h
  ok_iff := ok_iff
  kinds _ h := (eq_of_ofLogBy_eq_error h).imp_right fun h => h.imp_left fun h => ⟨_, h⟩
  ne_noGroups h := by
    rcases eq_of_ofLogBy_eq_error h with ⟨fault, h⟩ | h | ⟨fault, h⟩ <;> cases h
  permissive_of_strict _ h := permissive_of_strict h

end Failures

end Evaluation

end MixedWorkload

import MixedWorkload.Config.Source
import MixedWorkload.Proofs.Binary64.Arithmetic
import MixedWorkload.Proofs.ConfigFiles
import MixedWorkload.Proofs.Configuration

/-!
# Settings in layers

Settings come from three layers, the standard ones, those of a file and those of the
environment, and are checked twice: the file over the standard settings, and then all three
together. `MixedWorkload.Config.LoadsExactly` says what comes of it for any source and any
environment. Loading succeeds if and only if the file can be read, passes on its own, every
variable that is set holds a value, and the whole passes. Each setting is then the one of
the topmost layer that has an opinion on it.

The layer of a file is the one that its document gives, entry by entry
(`MixedWorkload.Config.Layer.IsGivenBy`). If there is an entry on each line of the file, the
document is the list of these entries. The layer of the environment is read off the four variables
by their names.

A pair of values may be fine in one layer and not in the whole, or the other way round, so
neither check makes the other superfluous. What counts is that every way to a configuration
ends with a check, so whatever is loaded can be relied on, and that the environment has
nothing to add to settings that it has been applied to.
-/

namespace MixedWorkload.Config

/-! ### The environment as a layer -/

/-- **A variable** that overrides a setting. -/
structure Variable where
  /-- Its name. -/
  name : String
  /-- The setting. -/
  setting : Setting
  /-- Whether a text without blanks around it is a value of the setting. -/
  accepts : List Char → Bool

/-- A variable for a type. -/
abbrev Variable.ofType (name : String) (setting : Setting) : Variable :=
  ⟨name, setting, fun cs => (Text.readUInt32? cs).isSome⟩

/-- A variable for a double. -/
abbrev Variable.ofDouble (name : String) (setting : Setting) : Variable :=
  ⟨name, setting, fun cs => (Decimal.readFloat? cs).isSome⟩

/-- **The variables**, in the order in which they are consulted. -/
def Variable.all : List Variable :=
  [.ofType "CHBENCH_NEW_ORDER_ID" .newOrderId, .ofType "CHBENCH_OLAP_LOWER_ID" .lowerId,
    .ofType "CHBENCH_OLAP_UPPER_ID" .upperId,
    .ofDouble "CHBENCH_THROUGHPUT_BIN_SECS" .binWidth]

variable (env : Environment)

/-- **A variable is readable** in an environment if it holds a value of its setting, blanks
around it ignored, or is not set. -/
def Variable.isReadable (v : Variable) : Bool :=
  (env v.name).all fun text => v.accepts (Text.trim text.toList)

/-- The value of a variable, if it is set and readable. -/
def value? {α : Type} (name : String) (read : List Char → Option α) : Option α :=
  (env name).bind fun text => read (Text.trim text.toList)

/-- **The settings of the environment**, for variables that are readable. -/
def environmentLayer : Layer where
  newOrderId := value? env "CHBENCH_NEW_ORDER_ID" Text.readUInt32?
  lower := value? env "CHBENCH_OLAP_LOWER_ID" Text.readUInt32?
  upper := value? env "CHBENCH_OLAP_UPPER_ID" Text.readUInt32?
  binWidth := value? env "CHBENCH_THROUGHPUT_BIN_SECS" Decimal.readFloat?

/-- The first variable that is not readable. -/
def firstUnreadable? : Option Variable :=
  Variable.all.find? fun v => !v.isReadable env

/-- The failure about a variable that is not readable. -/
def Variable.failure (v : Variable) : Error :=
  .config (.variableValue v.setting ((env v.name).getD ""))

/-- One variable: its value, or the failure about it. -/
theorem override_eq {α : Type} (v : Variable) {read : List Char → Option α}
    (hname : v.setting.variableName = v.name) (hread : ∀ cs, v.accepts cs = (read cs).isSome) :
    override env v.setting read =
      if v.isReadable env then .ok (value? env v.name read) else .error (v.failure env) := by
  rw [override, hname, Variable.isReadable, value?, Variable.failure]
  cases env v.name with
  | none => rfl
  | some text =>
    simp only [Option.all_some, Option.bind_some, Option.getD_some, hread]
    cases read (Text.trim text.toList) <;> rfl

/-- **All variables together**: their layer, or the failure about the first of them that is
not readable. -/
theorem ofEnvironment_eq :
    Layer.ofEnvironment env =
      match firstUnreadable? env with
      | none => .ok (environmentLayer env)
      | some v => .error (v.failure env) := by
  rw [Layer.ofEnvironment,
    override_eq env (.ofType "CHBENCH_NEW_ORDER_ID" .newOrderId) rfl fun _ => rfl,
    override_eq env (.ofType "CHBENCH_OLAP_LOWER_ID" .lowerId) rfl fun _ => rfl,
    override_eq env (.ofType "CHBENCH_OLAP_UPPER_ID" .upperId) rfl fun _ => rfl,
    override_eq env (.ofDouble "CHBENCH_THROUGHPUT_BIN_SECS" .binWidth) rfl fun _ => rfl,
    firstUnreadable?, Variable.all]
  -- the variables are looked at in the order of the list, and the first failure ends it
  cases h₁ : (Variable.ofType "CHBENCH_NEW_ORDER_ID" .newOrderId).isReadable env with
  | false => simp only [List.find?_cons, h₁]; rfl
  | true =>
  cases h₂ : (Variable.ofType "CHBENCH_OLAP_LOWER_ID" .lowerId).isReadable env with
  | false => simp only [List.find?_cons, h₁, h₂]; rfl
  | true =>
  cases h₃ : (Variable.ofType "CHBENCH_OLAP_UPPER_ID" .upperId).isReadable env with
  | false => simp only [List.find?_cons, h₁, h₂, h₃]; rfl
  | true =>
  cases h₄ : (Variable.ofDouble "CHBENCH_THROUGHPUT_BIN_SECS" .binWidth).isReadable env with
  | false => simp only [List.find?_cons, h₁, h₂, h₃, h₄]; rfl
  | true => simp only [List.find?_cons, h₁, h₂, h₃, h₄]; rfl

theorem firstUnreadable?_eq_none_iff :
    firstUnreadable? env = none ↔ ∀ v ∈ Variable.all, v.isReadable env = true := by
  simp only [firstUnreadable?, List.find?_eq_none, Bool.not_eq_true', Bool.not_eq_false]

variable {env}

/-- A layer over itself is that layer. -/
theorem over_over (l : Layer) (c : Config) : l.over (l.over c) = l.over c := by
  obtain ⟨newOrderId, lower, upper, binWidth⟩ := l
  cases newOrderId <;> cases lower <;> cases upper <;> cases binWidth <;> rfl

/-- **The overrides are applied** if all of them are readable and the whole passes. -/
theorem applyEnvironment_eq_ok_iff {c c' : Config} :
    c.applyEnvironment env = .ok c' ↔
      (∀ v ∈ Variable.all, v.isReadable env = true) ∧ ((environmentLayer env).over c).IsValid ∧
        c' = (environmentLayer env).over c := by
  rw [applyEnvironment, ofEnvironment_eq, ← firstUnreadable?_eq_none_iff]
  cases firstUnreadable? env with
  | none =>
    rw [← validate_eq_ok_iff, and_iff_right rfl]
    rfl
  | some v => exact ⟨fun h => (nomatch h), fun h => (nomatch h.1)⟩

/-- **An override that is not readable** is the failure, if those before it are. -/
theorem applyEnvironment_eq_error (c : Config) {v : Variable}
    (h : firstUnreadable? env = some v) : c.applyEnvironment env = .error (v.failure env) := by
  rw [applyEnvironment, ofEnvironment_eq, h]
  rfl

/-- **Applying the overrides again** changes nothing. -/
theorem applyEnvironment_again {c c' : Config} (h : c.applyEnvironment env = .ok c') :
    c'.applyEnvironment env = .ok c' := by
  obtain ⟨hreadable, hvalid, rfl⟩ := applyEnvironment_eq_ok_iff.mp h
  rw [applyEnvironment_eq_ok_iff, over_over]
  exact ⟨hreadable, hvalid, rfl⟩

/-! ### Settings to rely on -/

/-- **Sound settings**: an analytical range that is not empty and leaves NewOrder out, and a
width of bins that is a finite number above zero. -/
structure IsSound (c : Config) : Prop where
  /-- The range is not empty. -/
  lower_le_upper : c.range.lower ≤ c.range.upper
  /-- NewOrder lies outside. -/
  not_spans : ¬(c.range.lower ≤ c.newOrderId ∧ c.newOrderId ≤ c.range.upper)
  /-- The width is finite. -/
  isFinite : c.binWidth.isFinite = true
  /-- It is positive. -/
  pos : 0.0 < c.binWidth

/-- **Sound settings** are those that pass. -/
theorem isSound_iff {c : Config} : c.IsSound ↔ c.IsValid := by
  have hcontains : ¬(c.range.lower ≤ c.newOrderId ∧ c.newOrderId ≤ c.range.upper) ↔
      c.range.contains c.newOrderId = false := by
    rw [← AnalyticalRange.contains_iff, Bool.not_eq_true]
  constructor
  · intro h
    exact ⟨h.lower_le_upper, hcontains.mp h.not_spans, isPositive_iff.mpr ⟨h.isFinite, h.pos⟩⟩
  · intro h
    obtain ⟨hfinite, hpos⟩ := isPositive_iff.mp h.isPositive
    exact ⟨h.lower_le_upper, hcontains.mpr h.not_contains, hfinite, hpos⟩

/-! ### Loading -/

/-- No setting at all. -/
def Layer.empty : Layer := ⟨none, none, none, none⟩

/-- **The settings of two layers over the standard ones**, which are type 2 for NewOrder, the
analytical types from 7 to 28 and bins of five seconds. -/
def settled (upper lower : Layer) : Config where
  newOrderId := (upper.newOrderId.or lower.newOrderId).getD 2
  range := ⟨(upper.lower.or lower.lower).getD 7, (upper.upper.or lower.upper).getD 28⟩
  binWidth := (upper.binWidth.or lower.binWidth).getD 5.0

/-- The value of the topmost of three layers that has one. -/
theorem getD_or {α : Type} (upper lower : Option α) (base : α) :
    (upper.or lower).getD base = upper.getD (lower.getD base) := by
  cases upper <;> rfl

theorem settled_eq (upper lower : Layer) :
    settled upper lower = upper.over (lower.over .standard) := by
  rw [settled, getD_or, getD_or, getD_or, getD_or]
  rfl

theorem settled_empty (l : Layer) : settled .empty l = l.over .standard :=
  settled_eq .empty l

/-- **The layer of a source**: a file gives the settings of the document in its text, and any
other source none. -/
inductive Source.Gives : Source → Layer → Prop
  | file {text : String} {document : Toml.Table} {l : Layer}
    (hread : Toml.read? text.toList = some document) (hgiven : l.IsGivenBy document) :
    Gives (.file (.ok (Text.Utf8.encode text))) l
  | standard : Gives .standard .empty
  | environment : Gives .environment .empty

theorem Source.gives_file_iff {contents : List UInt8} {l : Layer} :
    Source.Gives (.file (.ok contents)) l ↔ Layer.ofFile contents = .ok l := by
  rw [Layer.ofFile_eq_ok_iff]
  constructor
  · rintro ⟨hread, hgiven⟩
    exact ⟨_, _, rfl, hread, hgiven⟩
  · rintro ⟨text, document, rfl, hread, hgiven⟩
    exact .file hread hgiven

/-- **A source gives one layer** at most. -/
theorem Source.Gives.unique {source : Source} {l l' : Layer} (h : source.Gives l)
    (h' : source.Gives l') : l = l' := by
  cases h with
  | file hread hgiven =>
    have hl := gives_file_iff.mp (.file hread hgiven)
    exact Except.ok.inj (hl.symm.trans (gives_file_iff.mp h'))
  | standard =>
    cases h'
    rfl
  | environment =>
    cases h'
    rfl

/-- The settings of a source, under the overrides of the environment. -/
def loadUnder (env : Environment) (source : Source) : Except Error Config := do
  (← load env source).applyEnvironment env

theorem standard_isValid : standard.IsValid :=
  ⟨by decide, by decide, by decide +kernel⟩

/-- A file that passes is loaded as it is. -/
theorem load_file_eq_ok_iff {contents : Except FileError (List UInt8)} {c : Config} :
    load env (.file contents) = .ok c ↔
      ∃ l, Source.Gives (.file contents) l ∧ (l.over .standard).IsValid ∧
        c = l.over .standard := by
  cases contents with
  | error cause => exact ⟨fun h => (nomatch h), fun ⟨l, hl, _⟩ => (nomatch hl)⟩
  | ok contents =>
    change ofFile contents = .ok c ↔ _
    rw [ofFile]
    constructor
    · intro h
      cases hl : Layer.ofFile contents with
      | error e =>
        rw [hl] at h
        cases h
      | ok l =>
        rw [hl] at h
        exact ⟨l, Source.gives_file_iff.mpr hl, validate_eq_ok_iff.mp h⟩
    · rintro ⟨l, hl, hvalid⟩
      rw [Source.gives_file_iff.mp hl]
      exact validate_eq_ok_iff.mpr hvalid

/-- **What is loaded is sound.** -/
theorem isValid_of_load {source : Source} {c : Config} (h : load env source = .ok c) :
    c.IsValid := by
  cases source with
  | file contents =>
    obtain ⟨l, -, hvalid, rfl⟩ := load_file_eq_ok_iff.mp h
    exact hvalid
  | standard =>
    obtain rfl : standard = c := Except.ok.inj h
    exact standard_isValid
  | environment =>
    obtain ⟨-, hvalid, rfl⟩ := applyEnvironment_eq_ok_iff.mp h
    exact hvalid

/-- **The layers from below**: if the source gives a layer that passes on its own, the
environment is applied to that. -/
theorem loadUnder_eq {source : Source} {l : Layer} (hl : source.Gives l)
    (hvalid : (l.over .standard).IsValid) :
    loadUnder env source = (l.over .standard).applyEnvironment env := by
  cases hl with
  | file hread hgiven =>
    have hload : load env (.file _) = .ok (l.over .standard) :=
      load_file_eq_ok_iff.mpr ⟨l, .file hread hgiven, hvalid, rfl⟩
    rw [loadUnder, hload]
    rfl
  | standard => rfl
  | environment =>
    -- here the environment is applied twice
    change (standard.applyEnvironment env).bind (·.applyEnvironment env) =
      standard.applyEnvironment env
    cases h : standard.applyEnvironment env with
    | error e => rfl
    | ok c => exact applyEnvironment_again h

/-- What was loaded has come from a layer that passes on its own. -/
theorem exists_gives_of_loadUnder {source : Source} {c : Config}
    (h : loadUnder env source = .ok c) :
    ∃ l, source.Gives l ∧ (l.over .standard).IsValid := by
  cases source with
  | file contents =>
    cases hload : load env (.file contents) with
    | error e =>
      rw [loadUnder, hload] at h
      cases h
    | ok c' =>
      obtain ⟨l, hl, hvalid, -⟩ := load_file_eq_ok_iff.mp hload
      exact ⟨l, hl, hvalid⟩
  | standard => exact ⟨.empty, .standard, standard_isValid⟩
  | environment => exact ⟨.empty, .environment, standard_isValid⟩

/-- **Loading under the environment succeeds** exactly for layers that pass. -/
theorem loadUnder_eq_ok_iff {source : Source} {c : Config} :
    loadUnder env source = .ok c ↔
      ∃ l, source.Gives l ∧ (settled .empty l).IsSound ∧
        (∀ v ∈ Variable.all, v.isReadable env = true) ∧
        (settled (environmentLayer env) l).IsSound ∧ c = settled (environmentLayer env) l := by
  simp only [isSound_iff, settled_empty]
  simp only [settled_eq]
  constructor
  · intro h
    obtain ⟨l, hl, hvalid⟩ := exists_gives_of_loadUnder h
    rw [loadUnder_eq hl hvalid, applyEnvironment_eq_ok_iff] at h
    exact ⟨l, hl, hvalid, h⟩
  · rintro ⟨l, hl, hvalid, h⟩
    rw [loadUnder_eq hl hvalid]
    exact applyEnvironment_eq_ok_iff.mpr h

/-! ### Variables that are not readable -/

section Unreadable

variable {v : Variable} {text : String}

/-- The failure is about the first of them. -/
theorem firstUnreadable?_eq_some {before after : List Variable}
    (hall : Variable.all = before ++ v :: after)
    (hbefore : ∀ earlier ∈ before, earlier.isReadable env = true)
    (hv : v.isReadable env = false) : firstUnreadable? env = some v := by
  rw [firstUnreadable?, List.find?_eq_some_iff_append]
  refine ⟨by rw [hv]; rfl, before, after, hall, fun earlier hearlier => ?_⟩
  rw [hbefore earlier hearlier]
  rfl

/-- A variable that is not set is readable. -/
theorem exists_text (hv : v.isReadable env = false) : ∃ text, env v.name = some text := by
  cases htext : env v.name with
  | none =>
    rw [Variable.isReadable, htext] at hv
    cases hv
  | some text => exact ⟨text, rfl⟩

theorem variableName_eq (hv : v ∈ Variable.all) : v.setting.variableName = v.name := by
  revert v
  simp only [Variable.all, List.forall_mem_cons]
  exact ⟨rfl, rfl, rfl, rfl, fun _ h => absurd h List.not_mem_nil⟩

theorem failure_eq (h : env v.name = some text) :
    v.failure env = .config (.variableValue v.setting text) := by
  rw [Variable.failure, h, Option.getD_some]

/-- The words about a variable that is not readable. -/
theorem message_failure (hname : v.setting.variableName = v.name) (h : env v.name = some text) :
    (v.failure env).message =
      "Configuration error: invalid value for " ++ v.name ++ ": " ++ Text.quoted text := by
  have hprefix : "Configuration error: invalid value for " =
      "Configuration error: " ++ "invalid value for " := rfl
  rw [failure_eq h, hprefix, ← hname]
  change "Configuration error: " ++ ("invalid value for " ++ v.setting.variableName ++ ": " ++
    Text.quoted text) = _
  simp only [String.append_assoc]

end Unreadable

/-! ### The whole -/

/-- **What loading comes to**, for a source and an environment. -/
structure LoadsExactly (env : Environment) (source : Source) : Prop where
  /-- A source gives one layer at most. -/
  gives_unique : ∀ l l', source.Gives l → source.Gives l' → l = l'
  /-- A file with an entry on each line gives what these entries give. -/
  gives_lines_iff : ∀ lines : List Toml.Line, (∀ line ∈ lines, line.IsSpelt) →
    (lines.map Toml.Line.key).Nodup →
    source = .file (.ok (Text.Utf8.encode (String.ofList (lines.flatMap Toml.Line.text)))) →
    ∀ l, source.Gives l ↔ l.IsGivenBy ⟨.given, lines.map Toml.Line.entry⟩
  /-- Loading succeeds if and only if the source gives a layer that is sound over the standard
  settings, every variable that is set holds a value, and all layers together are sound. -/
  ok_iff : (∃ c, loadUnder env source = .ok c) ↔
    ∃ l, source.Gives l ∧ (settled .empty l).IsSound ∧
      (∀ v ∈ Variable.all, v.isReadable env = true) ∧ (settled (environmentLayer env) l).IsSound
  /-- Every setting is then that of its variable, else that of the file, else the standard
  one. -/
  settings_eq : ∀ c, loadUnder env source = .ok c → ∃ l, source.Gives l ∧
    c.newOrderId =
      ((value? env "CHBENCH_NEW_ORDER_ID" Text.readUInt32?).or l.newOrderId).getD 2 ∧
    c.range.lower = ((value? env "CHBENCH_OLAP_LOWER_ID" Text.readUInt32?).or l.lower).getD 7 ∧
    c.range.upper = ((value? env "CHBENCH_OLAP_UPPER_ID" Text.readUInt32?).or l.upper).getD 28 ∧
    c.binWidth =
      ((value? env "CHBENCH_THROUGHPUT_BIN_SECS" Decimal.readFloat?).or l.binWidth).getD 5.0
  /-- The settings of a source are sound, -/
  isSound_of_load : ∀ c, load env source = .ok c → c.IsSound
  /-- and so are settings under the environment, whatever they were before. -/
  isSound_of_applyEnvironment : ∀ c c', applyEnvironment c env = .ok c' → c'.IsSound
  /-- If the layer of the source is sound, a variable that does not hold a value is the
  failure, the first of them in their order, and the words of the failure name it. -/
  error_of_unreadable : ∀ l, source.Gives l → (settled .empty l).IsSound →
    ∀ before v after, Variable.all = before ++ v :: after →
      (∀ earlier ∈ before, earlier.isReadable env = true) → v.isReadable env = false →
      ∃ text e, env v.name = some text ∧ loadUnder env source = .error e ∧
        e = .config (.variableValue v.setting text) ∧
        e.message = "Configuration error: invalid value for " ++ v.name ++ ": " ++
          Text.quoted text
  /-- Applying the environment again changes nothing. -/
  again : ∀ c, loadUnder env source = .ok c → c.applyEnvironment env = .ok c

variable (env)

/-- **Settings load exactly**, from every source and in every environment. -/
theorem loadsExactly (source : Source) : LoadsExactly env source where
  gives_unique _ _ := Source.Gives.unique
  gives_lines_iff lines hspelt hkeys hsource l := by
    rw [hsource, Source.gives_file_iff, Layer.ofFile_lines_eq_ok_iff hspelt hkeys]
  ok_iff := by
    simp only [loadUnder_eq_ok_iff]
    constructor
    · rintro ⟨c, l, hl, hsound, hreadable, hmerged, -⟩
      exact ⟨l, hl, hsound, hreadable, hmerged⟩
    · rintro ⟨l, hl, hsound, hreadable, hmerged⟩
      exact ⟨_, l, hl, hsound, hreadable, hmerged, rfl⟩
  settings_eq c h := by
    obtain ⟨l, hl, -, -, -, rfl⟩ := loadUnder_eq_ok_iff.mp h
    exact ⟨l, hl, rfl, rfl, rfl, rfl⟩
  isSound_of_load c h := isSound_iff.mpr (isValid_of_load h)
  isSound_of_applyEnvironment c c' h := by
    obtain ⟨-, hvalid, rfl⟩ := applyEnvironment_eq_ok_iff.mp h
    exact isSound_iff.mpr hvalid
  error_of_unreadable l hl hsound before v after hall hbefore hv := by
    rw [settled_empty, isSound_iff] at hsound
    have hname := variableName_eq (hall ▸ List.mem_append_right before List.mem_cons_self)
    have hfirst := firstUnreadable?_eq_some hall hbefore hv
    obtain ⟨text, htext⟩ := exists_text hv
    refine ⟨text, v.failure env, htext, ?_, failure_eq htext, message_failure hname htext⟩
    rw [loadUnder_eq hl hsound, applyEnvironment_eq_error _ hfirst]
  again c h := by
    obtain ⟨l, hl, hvalid⟩ := exists_gives_of_loadUnder h
    rw [loadUnder_eq hl hvalid] at h
    exact applyEnvironment_again h

/-- A file that gives two settings, over the standard ones, with a variable over them. -/
example :
    loadUnder (fun name => if name = "CHBENCH_OLAP_UPPER_ID" then some " 9 " else none)
      (.file (.ok (Text.Utf8.encode "olap_upper_id = 12\nthroughput_bin_secs = 10.0\n"))) =
        .ok ⟨2, ⟨7, 9⟩, 10.0⟩ := by
  change ofFile (Text.Utf8.encode _) >>= _ = _
  rw [ofFile, Layer.ofFile, readText, Text.Utf8.decode_encode]
  rfl

end MixedWorkload.Config

import MixedWorkload.CommandLine.Arguments
import MixedWorkload.Proofs.Results

/-!
# Asking for plots as well

Arguments are read from left to right into a draft, and only the flags of the draft know
about plots. So a draft that has asked for plots already,
`MixedWorkload.CommandLine.Draft.withPlot`, goes through the remaining arguments as it
would have gone without, as long as these do not ask for plots themselves: that would be
asking twice, which is refused. Flags are never taken back, so whether the arguments do is
seen in the flags at the end.

The consequence is `MixedWorkload.CommandLine.Request.read_plot_cons`: whatever the
arguments of a run without plots are, with `--plot` in front of them they request the same
run with plots.
-/

namespace MixedWorkload.CommandLine

namespace Draft

/-- A draft that has asked for plots before anything else. -/
def withPlot (d : Draft) : Draft :=
  { d with flags := d.flags ++ [.plot] }

/-! ### One argument -/

section OneArgument

variable (d : Draft) {d' : Draft}

theorem addValue_withPlot (option : ValueOption) (value : String) :
    d.withPlot.addValue option value = (d.addValue option value).map withPlot := by
  unfold addValue
  rw [apply_ite (Except.map withPlot)]
  rfl

theorem addPositional_withPlot (argument : String) :
    d.withPlot.addPositional argument = (d.addPositional argument).map withPlot := by
  rcases d with ⟨_ | input, _ | s, values, flags⟩ <;> unfold addPositional withPlot <;> dsimp only
  · split <;> rfl
  · split <;> rfl
  · split <;> rfl
  · rfl

/-- A flag other than that for plots is set alike. -/
theorem addFlag_withPlot {flag : Flag} (h : flag ≠ .plot) :
    d.withPlot.addFlag flag = (d.addFlag flag).map withPlot := by
  have hcontains : d.withPlot.flags.contains flag = d.flags.contains flag := by
    simp [withPlot, h]
  cases flag with
  | plot => exact absurd rfl h
  | strict =>
    unfold addFlag
    dsimp only
    rw [hcontains]
    split <;> rfl
  | verbose | help | version => rfl

theorem flags_of_addValue {option : ValueOption} {value : String}
    (h : d.addValue option value = .ok d') : d'.flags = d.flags := by
  unfold addValue at h
  split at h
  · cases h
  · cases h
    rfl

theorem flags_of_addPositional {argument : String} (h : d.addPositional argument = .ok d') :
    d'.flags = d.flags := by
  unfold addPositional at h
  split at h
  · split at h
    · cases h
    · cases h
      rfl
  · split at h
    · cases h
      rfl
    · cases h
  · cases h

theorem flags_of_addFlag {flag : Flag} (h : d.addFlag flag = .ok d') :
    d'.flags = flag :: d.flags := by
  cases flag with
  | plot | strict =>
    unfold addFlag at h
    dsimp only at h
    split at h
    · cases h
    · cases h
      rfl
  | verbose =>
    cases h
    rfl
  | help | version => cases h

end OneArgument

end Draft

open Draft

/-- What a reading of letters or of a name has come to, had plots been asked for before. -/
def liftPlot (result : Draft × Option ValueOption) : Draft × Option ValueOption :=
  (result.1.withPlot, result.2)

variable {d d' : Draft} {waiting : Option ValueOption}

/-! ### Attached values -/

theorem map_addValue_withPlot (d : Draft) (option : ValueOption) (value : String) :
    (d.withPlot.addValue option value).map (·, none) =
      ((d.addValue option value).map (·, none)).map liftPlot := by
  rw [addValue_withPlot]
  cases d.addValue option value <;> rfl

theorem flags_subset_of_map_addValue {option : ValueOption} {value : String}
    (h : (d.addValue option value).map (·, none) = .ok (d', waiting)) :
    d.flags ⊆ d'.flags := by
  obtain ⟨d₁, hadd, hd⟩ := exists_of_map_eq_ok h
  cases hd
  exact flags_of_addValue d hadd ▸ List.Subset.refl _

/-! ### Letters -/

/-- No letter asks for plots. -/
theorem ofLetter?_ne_plot (c : Char) : Choice.ofLetter? c ≠ some (.flag .plot) := by
  unfold Choice.ofLetter?
  split <;> exact nofun

theorem readLetters_withPlot (d : Draft) (letters : List Char) :
    readLetters d.withPlot letters = (readLetters d letters).map liftPlot := by
  induction letters generalizing d with
  | nil => rfl
  | cons letter letters ih =>
    unfold readLetters
    rcases hchoice : Choice.ofLetter? letter with _ | option | flag <;> dsimp only
    · rfl
    · split
      · rfl
      · exact map_addValue_withPlot d option _
      · exact map_addValue_withPlot d option _
    · have hflag : flag ≠ .plot := fun h => ofLetter?_ne_plot letter (h ▸ hchoice)
      rw [addFlag_withPlot d hflag]
      cases d.addFlag flag with
      | error stop => rfl
      | ok d₁ => exact ih d₁

theorem flags_subset_of_readLetters {letters : List Char}
    (h : readLetters d letters = .ok (d', waiting)) : d.flags ⊆ d'.flags := by
  induction letters generalizing d with
  | nil =>
    cases h
    exact List.Subset.refl _
  | cons letter letters ih =>
    unfold readLetters at h
    rcases hchoice : Choice.ofLetter? letter with _ | option | flag <;> rw [hchoice] at h <;>
      dsimp only at h
    · cases h
    · split at h
      · cases h
        exact List.Subset.refl _
      · exact flags_subset_of_map_addValue h
      · exact flags_subset_of_map_addValue h
    · obtain ⟨d₁, hadd, h⟩ := exists_of_bind_eq_ok h
      have hflags := flags_of_addFlag d hadd
      exact List.Subset.trans (hflags ▸ List.subset_cons_self flag d.flags) (ih h)

/-! ### Names -/

theorem flags_subset_of_readName {name : List Char}
    (h : readName d name = .ok (d', waiting)) : d.flags ⊆ d'.flags := by
  unfold readName at h
  dsimp only at h
  split at h
  next flag _ _ =>
    obtain ⟨d₁, hadd, hd⟩ := exists_of_map_eq_ok h
    cases hd
    exact flags_of_addFlag d hadd ▸ List.subset_cons_self flag d.flags
  next => exact flags_subset_of_map_addValue h
  next =>
    cases h
    exact List.Subset.refl _
  next => cases h

/-- A name that leads to no request for plots leads to the same had there been one. -/
theorem readName_withPlot {name : List Char} (h : readName d name = .ok (d', waiting))
    (hplot : .plot ∉ d'.flags) :
    readName d.withPlot name = .ok (d'.withPlot, waiting) := by
  unfold readName at h ⊢
  dsimp only at h ⊢
  split at h
  next flag _ _ =>
    obtain ⟨d₁, hadd, hd⟩ := exists_of_map_eq_ok h
    cases hd
    have hflag : flag ≠ .plot := by
      rintro rfl
      exact hplot (flags_of_addFlag d hadd ▸ List.mem_cons_self)
    rw [addFlag_withPlot d hflag, hadd]
    rfl
  next =>
    rw [map_addValue_withPlot, h]
    rfl
  next =>
    cases h
    rfl
  next => cases h

/-! ### All arguments -/

theorem foldlM_addPositional_withPlot (d : Draft) (arguments : List String) :
    arguments.foldlM addPositional d.withPlot =
      (arguments.foldlM addPositional d).map withPlot := by
  induction arguments generalizing d with
  | nil => rfl
  | cons argument arguments ih =>
    rw [List.foldlM_cons, List.foldlM_cons, addPositional_withPlot]
    cases d.addPositional argument with
    | error stop => rfl
    | ok d₁ => exact ih d₁

theorem flags_subset_of_foldlM_addPositional {arguments : List String}
    (h : arguments.foldlM addPositional d = .ok d') : d.flags ⊆ d'.flags := by
  induction arguments generalizing d with
  | nil =>
    cases h
    exact List.Subset.refl _
  | cons argument arguments ih =>
    rw [List.foldlM_cons] at h
    obtain ⟨d₁, hadd, h⟩ := exists_of_bind_eq_ok h
    exact flags_of_addPositional d hadd ▸ ih h

/-- **Flags are never taken back.** -/
theorem flags_subset_of_readFrom {arguments : List String}
    (h : readFrom d waiting arguments = .ok d') : d.flags ⊆ d'.flags := by
  induction arguments generalizing d waiting with
  | nil =>
    unfold readFrom at h
    split at h
    · cases h
    · cases h
      exact List.Subset.refl _
  | cons argument arguments ih =>
    unfold readFrom at h
    cases waiting with
    | some option =>
      dsimp only at h
      split at h
      · cases h
      · obtain ⟨d₁, hadd, h⟩ := exists_of_bind_eq_ok h
        exact flags_of_addValue d hadd ▸ ih h
    | none =>
      dsimp only at h
      split at h
      · obtain ⟨d₁, hadd, h⟩ := exists_of_bind_eq_ok h
        exact flags_of_addPositional d hadd ▸ ih h
      · split at h
        next => exact flags_subset_of_foldlM_addPositional h
        next name _ _ =>
          obtain ⟨⟨d₁, waiting⟩, hname, h⟩ := exists_of_bind_eq_ok h
          exact List.Subset.trans (flags_subset_of_readName hname) (ih h)
        next =>
          obtain ⟨⟨d₁, waiting⟩, hletters, h⟩ := exists_of_bind_eq_ok h
          exact List.Subset.trans (flags_subset_of_readLetters hletters) (ih h)

/-- **A request for plots in front**: arguments that do not ask for plots say the same to a
draft that has asked for them already. -/
theorem readFrom_withPlot {arguments : List String} (h : readFrom d waiting arguments = .ok d')
    (hplot : .plot ∉ d'.flags) : readFrom d.withPlot waiting arguments = .ok d'.withPlot := by
  induction arguments generalizing d waiting with
  | nil =>
    cases waiting with
    | some option => cases h
    | none =>
      cases h
      rfl
  | cons argument arguments ih =>
    unfold readFrom at h ⊢
    cases waiting with
    | some option =>
      cases hoption : isOption argument <;>
        simp only [hoption, Bool.false_eq_true, ↓reduceIte, addValue_withPlot] at h ⊢
      · obtain ⟨d₁, hadd, h⟩ := exists_of_bind_eq_ok h
        rw [hadd]
        exact ih h
      · cases h
    | none =>
      cases hoption : isOption argument <;>
        simp only [hoption, Bool.not_true, Bool.not_false, Bool.false_eq_true, ↓reduceIte,
          addPositional_withPlot] at h ⊢
      · obtain ⟨d₁, hadd, h⟩ := exists_of_bind_eq_ok h
        rw [hadd]
        exact ih h
      · split at h
        next =>
          rw [foldlM_addPositional_withPlot, h]
          rfl
        next name _ _ =>
          obtain ⟨⟨d₁, waiting⟩, hname, h⟩ := exists_of_bind_eq_ok h
          -- had the name asked for plots, the draft would still do so at the end
          have hplot₁ : .plot ∉ d₁.flags := fun hf => hplot (flags_subset_of_readFrom h hf)
          rw [readName_withPlot hname hplot₁]
          exact ih h
        next =>
          rw [readLetters_withPlot]
          obtain ⟨⟨d₁, waiting⟩, hletters, h⟩ := exists_of_bind_eq_ok h
          rw [hletters]
          exact ih h

/-! ### The whole request -/

/-- A draft that has asked for plots amounts to the same request with plots. -/
theorem toRequest_withPlot (d : Draft) (env : Environment) :
    d.withPlot.toRequest env =
      (d.toRequest env).map fun request => { request with plot := true } := by
  have hplot : d.withPlot.flags.contains .plot = true := by simp [withPlot]
  have hstrict : d.withPlot.flags.contains .strict = d.flags.contains .strict := by
    simp [withPlot]
  have hverbose : d.withPlot.flags.count .verbose = d.flags.count .verbose := by
    simp [withPlot, List.count_append]
  have hvalue (option : ValueOption) : d.withPlot.value? env option = d.value? env option := rfl
  have hinput : d.withPlot.input = d.input := rfl
  unfold toRequest
  rw [hplot, hstrict, hverbose, hvalue, hvalue, hinput]
  cases d.value? env .factors with
  | error stop => rfl
  | ok factors =>
    cases d.value? env .config with
    | error stop => rfl
    | ok config => cases d.input <;> rfl

theorem plot_of_toRequest {env : Environment} {request : Request}
    (h : d.toRequest env = .ok request) : request.plot = d.flags.contains .plot := by
  unfold toRequest at h
  obtain ⟨factors, -, h⟩ := exists_of_bind_eq_ok h
  obtain ⟨config, -, h⟩ := exists_of_bind_eq_ok h
  cases hinput : d.input with
  | none =>
    rw [hinput] at h
    cases h
  | some input =>
    rw [hinput] at h
    cases h
    rfl

namespace Request

variable {env : Environment} {arguments : List String} {request : Request}

/-- **The same run with plots**: `--plot` in front of arguments that do not ask for plots
adds a request for plots and nothing else. -/
theorem read_plot_cons (h : Request.read env arguments = .ok request)
    (hplot : request.plot = false) :
    Request.read env ("--plot" :: arguments) = .ok { request with plot := true } := by
  unfold Request.read at h ⊢
  obtain ⟨d, hread, h⟩ := exists_of_bind_eq_ok h
  have hflags : .plot ∉ d.flags := by
    rw [plot_of_toRequest h] at hplot
    simpa using hplot
  have hcons : readFrom .empty none ("--plot" :: arguments) =
      readFrom Draft.empty.withPlot none arguments := rfl
  rw [hcons, readFrom_withPlot hread hflags]
  change d.withPlot.toRequest env = _
  rw [toRequest_withPlot]
  exact congrArg (Except.map _) h

end Request

end MixedWorkload.CommandLine

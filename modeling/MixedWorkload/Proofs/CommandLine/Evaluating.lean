import MixedWorkload.CommandLine.Program
import MixedWorkload.Config.Source
import MixedWorkload.Proofs.Files
import MixedWorkload.Proofs.Results

/-!
# What a request comes to

Up to the report a run only reads. What it comes to is therefore a matter of the files as
they are at the start: `MixedWorkload.CommandLine.Request.evaluationIn` computes it, from
the settings (the named file, or the standard ones, under the environment), the factors and
the log, with every failure under the name of what was being done.
`MixedWorkload.CommandLine.evaluate_apply` says that the program does just that, and that
it leaves the files as they are.
-/

namespace MixedWorkload.CommandLine

open Store

/-- The surroundings of a run in which nobody is told about events. -/
def quiet (env : Environment) (time : String) : Surroundings (StateM Store) :=
  ⟨env, time, fun _ => pure ()⟩

/-! ### What a request comes to -/

namespace Request

variable (request : Request) (env : Environment) (s : Store)

/-- The settings from the file that a request names, or the standard ones. -/
def fileConfigIn : Except Failure Config :=
  match request.config with
  | none => .ok .standard
  | some path => (Config.load env (.file (s.read path))).mapError (⟨.readingConfig path, ·⟩)

/-- The settings of a request. -/
def configIn : Except Failure Config := do
  let config ← request.fileConfigIn env s
  (config.applyEnvironment env).mapError (⟨.readingEnvironment, ·⟩)

/-- The factors of a request. -/
def factorsIn : Except Failure FactorOverride :=
  match request.factors with
  | none => .ok .none
  | some path =>
    (do FactorOverride.ofFile path (← (s.read path).mapError Error.io)).mapError
      (⟨.readingFactors path, ·⟩)

/-- The options of a request. -/
def optionsIn : Except Failure EvaluationOptions := do
  let config ← request.configIn env s
  let factors ← request.factorsIn s
  return ⟨config, factors, request.scaleFactor,
    if request.strict then .strict else .permissive⟩

/-- The evaluation that a request comes to on a store, or the failure: what the files hold
decides, and nothing that happens on the way. -/
def evaluationIn : Except Failure Evaluation := do
  let options ← request.optionsIn env s
  (do Evaluation.ofFile (← (s.read request.input).mapError refuseLog) options).mapError
    (⟨.evaluating request.input, ·⟩)

variable {request env s}

/-- A request comes to an evaluation if it has options and the evaluation of the file under
them succeeds. -/
theorem evaluationIn_eq_ok {options : EvaluationOptions} {file : List UInt8} {e : Evaluation}
    (hoptions : request.optionsIn env s = .ok options)
    (hread : s.read request.input = .ok file) (h : Evaluation.ofFile file options = .ok e) :
    request.evaluationIn env s = .ok e := by
  rw [evaluationIn, hoptions, hread]
  change (Evaluation.ofFile file options).mapError _ = _
  rw [h]
  rfl

end Request

/-! ### Reading and evaluating -/

section Evaluating

variable {s : Store} {env : Environment} {time : String} {request : Request}

theorem step_apply {α : Type} (activity : Activity) (result : Except Error α) :
    (step activity result : ExceptT Failure (StateM Store) α) s =
      (result.mapError (⟨activity, ·⟩), s) := rfl

/-- Nobody is told about events. -/
theorem note_bind_apply {ε α : Type} (events : Thunk (List Event))
    (next : Unit → ExceptT ε (StateM Store) α) :
    (note (quiet env time) request events >>= next) s = next () s := rfl

theorem readFile_apply (activity : Activity) (refuse : FileError → Error) (path : String) :
    (readFile activity refuse path : ExceptT Failure (StateM Store) (List UInt8)) s =
      (((s.read path).mapError refuse).mapError (⟨activity, ·⟩), s) := by
  change ((s.read path).mapError fun cause => Failure.mk activity (refuse cause), s) = _
  cases s.read path <;> rfl

theorem readConfig_apply :
    readConfig (quiet env time) request s = (request.configIn env s, s) := by
  have hoverride (config : Config) :
      (note (quiet env time) request (Config.environmentEvents env) >>= fun _ =>
        step .readingEnvironment (config.applyEnvironment env) :
          ExceptT Failure (StateM Store) Config) s =
      ((config.applyEnvironment env).mapError (⟨.readingEnvironment, ·⟩), s) :=
    step_apply _ _
  unfold readConfig Request.configIn Request.fileConfigIn
  cases request.config with
  | none => exact hoverride .standard
  | some path =>
    dsimp only
    rw [Config.load, mapError_bind, bind_assoc]
    refine bind_apply_of_reads (readFile_apply _ _ _) fun file => ?_
    exact bind_apply_of_reads (step_apply _ _) fun config => hoverride config

theorem readFactors_apply :
    readFactors (quiet env time) request s = (request.factorsIn s, s) := by
  unfold readFactors Request.factorsIn
  cases request.factors with
  | none => rfl
  | some path =>
    dsimp only
    rw [mapError_bind]
    exact bind_apply_of_reads (readFile_apply _ _ _) fun file => step_apply _ _

theorem readOptions_apply :
    readOptions (quiet env time) request s = (request.optionsIn env s, s) :=
  bind_apply_of_reads readConfig_apply fun _ =>
    bind_apply_of_reads readFactors_apply fun _ => rfl

/-- **Evaluating only reads**: it comes to what the files say and leaves them as they are. -/
theorem evaluate_apply :
    evaluate (quiet env time) request s = (request.evaluationIn env s, s) := by
  refine bind_apply_of_reads readOptions_apply fun options => ?_
  rw [mapError_bind]
  refine bind_apply_of_reads (readFile_apply _ _ _) fun file => ?_
  rw [Evaluation.ofFile, mapError_bind, note_bind_apply]
  exact bind_apply_of_reads (step_apply _ _) fun log => step_apply _ _

end Evaluating

end MixedWorkload.CommandLine

import MixedWorkload.Config.Basic
import MixedWorkload.Decimal.Reader
import MixedWorkload.Text.Blank

/-!
# Settings from the environment

Each setting has an environment variable that overrides it. The variables are consulted
in a fixed order and the first one whose text is not a value of its setting is the
failure; blanks around the value are ignored. Only the settings that result from all of
them together are checked against each other.
-/

namespace MixedWorkload

/-- The values of the environment variables that are set. -/
abbrev Environment := String → Option String

namespace Config

/-- The value of a setting in the environment, if its variable is set. -/
def override {α : Type} (env : Environment) (setting : Setting)
    (read : List Char → Option α) : Except Error (Option α) :=
  match env setting.variableName with
  | none => .ok none
  | some text => match read (Text.trim text.toList) with
    | some value => .ok (some value)
    | none => .error (.config (.variableValue setting text))

/-- The settings that the environment gives. -/
def Layer.ofEnvironment (env : Environment) : Except Error Layer := do
  let newOrderId ← override env .newOrderId Text.readUInt32?
  let lower ← override env .lowerId Text.readUInt32?
  let upper ← override env .upperId Text.readUInt32?
  let binWidth ← override env .binWidth Decimal.readFloat?
  return ⟨newOrderId, lower, upper, binWidth⟩

/-- The configuration under the overrides of the environment. -/
def applyEnvironment (c : Config) (env : Environment) : Except Error Config := do
  (((← Layer.ofEnvironment env).over c).validate)

/-- The settings whose overrides are looked at, with the texts of those that are set: all
up to the first that is not a value. -/
def consulted (env : Environment) : List (Setting × String) :=
  let isValue (setting : Setting) (text : String) : Bool :=
    let cs := Text.trim text.toList
    match setting with
    | .binWidth => (Decimal.readFloat? cs).isSome
    | _ => (Text.readUInt32? cs).isSome
  let set := Setting.all.filterMap fun setting =>
    (env setting.variableName).map (setting, ·)
  let good := set.takeWhile fun entry => isValue entry.1 entry.2
  good ++ (set.drop good.length).take 1

end Config

end MixedWorkload

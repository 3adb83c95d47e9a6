import MixedWorkload.Config.Environment
import MixedWorkload.Config.File

/-!
# Where settings are loaded from

Settings are loaded from a file, from the environment, or from nowhere, which gives the
standard ones. Whatever was loaded may then be put under the overrides of the environment
by `MixedWorkload.Config.applyEnvironment`, which is what a run does.

A file lies over the standard settings and is checked as it stands, before the environment
has its say. The environment is checked only as a whole, together with what lies below it.
-/

namespace MixedWorkload.Config

/-- Where settings are loaded from. -/
inductive Source
  /-- The contents of a file, or the reason why there are none. -/
  | file (contents : Except FileError (List UInt8))
  /-- The standard settings. -/
  | standard
  /-- The environment, over the standard settings. -/
  | environment

/-- The settings that a source gives. -/
def load (env : Environment) : Source → Except Error Config
  | .file contents => do ofFile (← contents.mapError .io)
  | .standard => .ok .standard
  | .environment => Config.standard.applyEnvironment env

end MixedWorkload.Config

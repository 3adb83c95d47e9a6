import MixedWorkload.Config.Basic
import MixedWorkload.Powers
import MixedWorkload.Text.Utf8
import MixedWorkload.Toml.Reader

/-!
# Settings from a file

A configuration file is a TOML document whose entries give some of the settings; other
entries are ignored. A file that gives a setting a value of the wrong kind is refused, and
so is a file whose settings, over the standard ones, do not go together.
-/

namespace MixedWorkload

/-- A file as text. -/
def readText (file : List UInt8) : Except Error (List Char) :=
  (Text.Utf8.decode file).mapError fun _ => .io .notText

namespace Config

open scoped Powers

/-- A number of thirty-two bits. -/
def typeOf? : Toml.Node → Option TransactionType
  | .scalar (.integer n) =>
    if 0 ≤ n ∧ n < 2 ^ (32 : Nat) then some (UInt32.ofNat n.toNat) else none
  | _ => none

/-- A number of any kind, as a double. -/
def doubleOf? : Toml.Node → Option Float
  | .scalar (.integer n) => some (Float.ofInt n)
  | .scalar (.float x) => some x
  | _ => none

/-- The value of an entry that need not be there, but has to be right if it is. -/
def entry? {α : Type} (document : Toml.Table) (setting : Setting)
    (read : Toml.Node → Option α) : Option (Option α) :=
  match document.get? setting.entry with
  | none => some none
  | some node => (read node).map some

/-- The settings that a document gives. -/
def Layer.ofDocument? (document : Toml.Table) : Option Layer := do
  let newOrderId ← entry? document .newOrderId typeOf?
  let lower ← entry? document .lowerId typeOf?
  let upper ← entry? document .upperId typeOf?
  let binWidth ← entry? document .binWidth doubleOf?
  return ⟨newOrderId, lower, upper, binWidth⟩

/-- The settings that a file gives. -/
def Layer.ofFile (file : List UInt8) : Except Error Layer := do
  let text ← readText file
  match (Toml.read? text).bind Layer.ofDocument? with
  | some layer => return layer
  | none => throw (.serialization .toml)

/-- The configuration that a file gives, over the standard one. -/
def ofFile (file : List UInt8) : Except Error Config := do
  ((← Layer.ofFile file).over .standard).validate

end Config

end MixedWorkload

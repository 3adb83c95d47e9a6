import MixedWorkload.Error
import MixedWorkload.Keyed
import MixedWorkload.Text.Blank
import MixedWorkload.Text.Digits

/-!
# Factors supplied by the user

The normalization factors may be given as a list, the factor of `Q1` first, or by the
number of the query, its *offset* counted from one. In a file the offsets are the keys of
an object, so they are texts at first: `MixedWorkload.FactorOverride.ofDocument` reads
them.

Keys are read in the order of their texts, whatever their order in the file. Of two keys
with the same text the later one in the file counts, and of two different texts for one
offset, such as `7` and `07`, the one that is later in the order of texts.
-/

namespace MixedWorkload

/-- The contents of a factor file. -/
inductive FactorDocument
  /-- A list of factors. -/
  | sequence (factors : List Float)
  /-- Factors under keys, in the order of the file. -/
  | mapping (entries : List (String × Float))

/-- Factors that replace the built-in ones. -/
inductive FactorOverride
  /-- The built-in ones stay. -/
  | none
  /-- One factor per query, the first one for `Q1`. -/
  | sequence (factors : List Float)
  /-- Factors under the offsets of their queries, in ascending order. -/
  | mapping (entries : List (UInt32 × Float))

namespace FactorOverride

/-- An override by offsets given in any order, the last one for each offset. -/
def ofOffsets (entries : List (UInt32 × Float)) : FactorOverride :=
  .mapping (sortKeyed numberBefore entries)

/-- The entry that a key and its factor stand for. -/
def readEntry (entry : String × Float) : Except Error (UInt32 × Float) :=
  match Text.readUInt32? (Text.trim entry.1.toList) with
  | some offset => .ok (offset, entry.2)
  | Option.none => .error (.config (.offsetText entry.1))

/-- The override that the contents of a factor file stand for. -/
def ofDocument : FactorDocument → Except Error FactorOverride
  | .sequence factors => .ok (.sequence factors)
  | .mapping entries => ((sortKeyed textBefore entries).mapM readEntry).map ofOffsets

end FactorOverride

end MixedWorkload

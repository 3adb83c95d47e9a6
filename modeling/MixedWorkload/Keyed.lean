/-!
# Lists in the order of their keys

A map whose keys are ordered is the list of its entries in the order of their keys, with one
entry for each key. `MixedWorkload.insertKeyed` puts a value under a key of such a list, in place
of the value that was there before.
-/

namespace MixedWorkload

section Keyed

variable {κ ν : Type} (before : κ → κ → Bool)

/-- A list in the order of its keys with one more entry, which replaces an entry of the
same key. -/
def insertKeyed (key : κ) (value : ν) : List (κ × ν) → List (κ × ν)
  | [] => [(key, value)]
  | entry :: entries =>
    if before key entry.1 then (key, value) :: entry :: entries
    else if before entry.1 key then entry :: insertKeyed key value entries
    else (key, value) :: entries

/-- The entries of a list in the order of their keys, the last one for each key. -/
def sortKeyed (entries : List (κ × ν)) : List (κ × ν) :=
  entries.foldl (fun sorted entry => insertKeyed before entry.1 entry.2 sorted) []

end Keyed

/-- The order of texts, by their characters. -/
def textBefore (s t : String) : Bool :=
  decide (s < t)

/-- The order of numbers, which transaction types and the offsets of queries are. -/
def numberBefore (a b : UInt32) : Bool :=
  decide (a < b)

end MixedWorkload

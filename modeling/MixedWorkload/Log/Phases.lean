import MixedWorkload.Log.Basic

/-!
# Phases of a log

A run goes through phases, and every record says which one it belongs to. Where the phase
of a record differs from that of the record before it there is a boundary. The list of
boundaries together with the first phase describes the phases of all records: between
two boundaries nothing changes.
-/

namespace MixedWorkload

/-- A record whose phase differs from that of the record before it. -/
structure PhaseBoundary where
  /-- The position of the record, counted from zero. -/
  index : Nat
  /-- The phase before it. -/
  before : Int64
  /-- Its own phase. -/
  after : Int64
  deriving DecidableEq, Repr

/-- The boundaries in a list of phases whose first one has the position `index` and comes
after a record of the phase `before`. -/
def boundariesFrom (index : Nat) (before : Int64) : List Int64 → List PhaseBoundary
  | [] => []
  | phase :: phases =>
    let rest := boundariesFrom (index + 1) phase phases
    if phase = before then rest else ⟨index, before, phase⟩ :: rest

/-- The boundaries in a list of phases. -/
def boundaries : List Int64 → List PhaseBoundary
  | [] => []
  | phase :: phases => boundariesFrom 1 phase phases

/-- The boundaries between the phases of a log. -/
def TimingLog.phaseBoundaries (log : TimingLog) : List PhaseBoundary :=
  boundaries (log.records.map TimingRecord.phase)

end MixedWorkload

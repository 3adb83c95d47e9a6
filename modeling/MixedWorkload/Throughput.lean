import MixedWorkload.Groups

/-!
# Throughput over time

NewOrder starts are counted in bins of a fixed width: bin `i` is for the starts `s` with
`⌊s / width⌋ = i`, where the quotient is the rounded one of doubles. Starts before the log
count as zero. The series ends with the bin of the last NewOrder, and it is refused when
that would take more than a million bins.
-/

namespace MixedWorkload

/-- The NewOrder throughput in one bin. -/
structure ThroughputPoint where
  /-- The start of the bin, in seconds from the start of the log. -/
  binStart : Float
  /-- NewOrders per second. -/
  perSecond : Float

/-- The number of bins a series may have. -/
def maxBins : Nat := 1000000

/-- The bin of a start. The quotient is not negative, so cutting it off rounds down. -/
def binOf (width start : Float) : Nat :=
  (start / width).toUInt64.toNat

/-- The NewOrder starts of a log, none of them before its start. -/
def NormalizedLog.newOrderStarts (log : NormalizedLog) : List Float :=
  log.newOrders.map fun r => greater r.record.start 0.0

/-- The number of bins from the start of the log to a last start, if there are not too
many. -/
def binCount? (width last : Float) : Option Nat :=
  let quotient := last / width
  if quotient.isFinite && quotient < maxBins.toFloat then some (binOf width last + 1) else none

/-- How many of the starts fall into each of the bins, the last of which takes what lies
behind it. -/
def countBins (width : Float) (bins : Nat) (starts : List Float) : Array Nat :=
  starts.foldl (fun counts start => counts.modify (min (binOf width start) (bins - 1)) (· + 1))
    (Array.replicate bins 0)

/-- The point of a bin with a given number of starts. -/
def ThroughputPoint.ofCount (width : Float) (index count : Nat) : ThroughputPoint :=
  ⟨index.toFloat * width, count.toFloat / width⟩

/-- The throughput of a log in bins of a given width. -/
def NormalizedLog.throughputSeries (log : NormalizedLog) (width : Float) :
    Except Error (List ThroughputPoint) :=
  if !Config.isPositive width then .error (.config (.binWidth width))
  else match log.newOrderStarts with
    | [] => .ok []
    | first :: others =>
      let last := others.foldl greater first
      match binCount? width last with
      | none => .error (.domain (.binCount last maxBins width))
      | some bins => .ok
        ((countBins width bins (first :: others)).toList.mapIdx (ThroughputPoint.ofCount width))

end MixedWorkload

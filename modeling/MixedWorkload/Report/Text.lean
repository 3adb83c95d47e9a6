import MixedWorkload.Metrics

/-!
# The text report

The report has one line for each metric, in a fixed layout, so that the reports of two
runs can be compared line by line. The queries per hour of all workers only mean
something for runs on databases of a known size, and their line is optional.
-/

namespace MixedWorkload.Report

/-- Numbers in reports are positional from `0.0001` up to below `1e16`, and have a
fractional part in any case. -/
def number : Decimal.Style where
  scientificBelow := some (-4)
  scientificFrom := some 16
  wholeSuffix := ".0"
  exponentPlus := ""
  tie := .awayFromZero

/-- A line of the report: its label and its number. -/
def line (label : String) (x : Float) : String :=
  label ++ " " ++ number.render x ++ "\n"

/-- The lines that every report has. -/
def mainText (m : Metrics) : String :=
  "\n" ++ line "NewOrder Transactions per minute: \t" m.transactionalThroughput ++
    line "Geometric Mean of Latencies: \t\t" m.geometricMeanLatency ++
    line "Query Set Time: \t\t\t" m.querySetTime ++
    line "Queries per Hour: \t\t\t" m.queriesPerHour

/-- The line about all workers. -/
def effectiveText (m : Metrics) : String :=
  line "Effective Queries per Hour: \t\t" m.effectiveQueriesPerHour

/-- The report, with the line about all workers or without it. -/
def text (m : Metrics) (includeEffective : Bool) : String :=
  if includeEffective then mainText m ++ effectiveText m else mainText m

end MixedWorkload.Report

import MixedWorkload.Decimal.Style

/-!
# Writing tables

A table of numbers is written as a header line and one line per row. The cells are
numbers in decimal digits, which hold no comma, quotation mark or line break, so no cell
is ever quoted. A table without rows is an empty file, without even the header.
-/

namespace MixedWorkload.Csv

/-- Numbers in tables are positional from `0.00001` up to below `1e16`. -/
def number : Decimal.Style where
  scientificBelow := some (-5)
  scientificFrom := some 16
  wholeSuffix := ".0"
  exponentPlus := ""
  tie := .toEven

/-- One line. -/
def line (cells : List String) : String :=
  String.intercalate "," cells ++ "\n"

/-- The text of a table. -/
def table (header : List String) (rows : List (List String)) : String :=
  if rows.isEmpty then "" else String.join ((header :: rows).map line)

end MixedWorkload.Csv

import BucketStats.Workbook.Sheet
/-!
# Workbooks as plain text

The plain text of a workbook is its sheets one after the other: the title on a line of its own, then
a line for each row with tabs between the cells.
-/

namespace BucketStats

def Cell.plain : Cell → String
  | .empty => ""
  | .bool b => if b then "TRUE" else "FALSE"
  | .int n => String.ofList (Decimal.signed (decide (n < 0)) (Decimal.digits n.natAbs))
  | .float x => binary64Text x
  | .text s => s

def Sheet.plain (s : Sheet) : String :=
  let rows := s.cells.map fun row ↦ "\t".intercalate (row.map Cell.plain) ++ "\n"
  s.title ++ "\n" ++ String.join rows

def Workbook.plain (w : Workbook) : String :=
  "\n".intercalate (w.sheets.map Sheet.plain)

end BucketStats

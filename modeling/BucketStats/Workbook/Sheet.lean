import BucketStats.Workbook.Cell
/-!
# Sheets and workbooks

A sheet is a styled header, rows of cells under it, one column with a number format of its own, the
widths of its columns, and perhaps a frozen header.  A workbook is its sheets in order.
-/

namespace BucketStats

/-- The style of header cells: bold, centred both ways, and filled with one colour. -/
structure HeaderStyle where
  bold : Bool
  fill : String
  colour : String
  horizontal : String
  vertical : String
deriving DecidableEq

structure Sheet where
  title : String
  header : List String
  rows : List (List Cell)
  formattedColumn : Nat
  numberFormat : String
  frozen : Option String
  widths : List (String × Nat)
deriving DecidableEq

structure Workbook where
  sheets : List Sheet
deriving DecidableEq

namespace Sheet

def headerStyle : HeaderStyle :=
  ⟨true, "solid", "00DDEBF7", "center", "center"⟩

/-- The letters of a column, counted from zero: `A` to `Z`, then `AA` and so on. -/
def columnLetters (column : Nat) : List Char :=
  if column < 26 then [Char.ofNat (0x41 + column)]
  else columnLetters (column / 26 - 1) ++ [Char.ofNat (0x41 + column % 26)]
termination_by column

/-- The coordinate of a cell, by its column and row counted from zero. -/
def coordinate (column row : Nat) : String :=
  String.ofList (columnLetters column ++ Decimal.digits (row + 1))

/-- The header and all rows, as cells. -/
def cells (s : Sheet) : List (List Cell) :=
  s.header.map Cell.text :: s.rows

/-- The cells with a number format of their own: those of one column, below the header. -/
def numberFormats (s : Sheet) : List (String × String) :=
  (List.range s.rows.length).map fun row ↦ (coordinate s.formattedColumn (row + 1), s.numberFormat)

/-- The cells in the header's style. -/
def headerCells (s : Sheet) : List String :=
  (List.range s.header.length).map fun column ↦ coordinate column 0

end Sheet

end BucketStats

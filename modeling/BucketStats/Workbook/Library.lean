import BucketStats.Workbook.Sheet
/-!
# Libraries of spreadsheets

A workbook is handed to a library that stores it.  The library decides which values can stand in a
cell and what they become there, what a cell counts as once it stands there, and which workbooks can
be stored at all.
-/

namespace BucketStats.Workbook

/-- What a library of spreadsheets decides. -/
structure Library where
  /-- The cell that a value becomes, unless it can stand in none. -/
  ofValue : Value → Except Fault Cell
  /-- What a cell is taken for if not for what it looks like. -/
  reading? : Cell → Option Cell.Reading
  /-- Why a workbook cannot be stored, if so. -/
  fault? : Workbook → Option Fault

namespace Library

variable (library : Library)

def rowReadings (row : Nat) (cells : List Cell) : List (String × Cell.Reading) :=
  cells.zipIdx.filterMap fun entry ↦
    (library.reading? entry.1).map fun reading ↦ (Sheet.coordinate entry.2 row, reading)

/-- The cells of a sheet that are not taken for what they look like. -/
def readings (s : Sheet) : List (String × Cell.Reading) :=
  s.cells.zipIdx.flatMap fun entry ↦ library.rowReadings entry.2 entry.1

end Library

end BucketStats.Workbook

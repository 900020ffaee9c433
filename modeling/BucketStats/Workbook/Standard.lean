import BucketStats.Workbook.Build
/-!
# The standard library of spreadsheets

The library that the program runs with.  It cuts a text to the greatest length a cell can have, and
what it keeps may hold no control character but tab and line ends.  By its content alone a text counts
as a formula or as an error value.  Columns have at most three letters and numbers are stored as
binary64, which is why some workbooks cannot be stored.
-/

namespace BucketStats

namespace Cell

def lengthLimit : Nat :=
  32767

def isControl (c : Char) : Bool :=
  let n := c.toNat
  n ≤ 0x8 || n == 0xb || n == 0xc || (0xe ≤ n && n ≤ 0x1f)

def ofText (s : String) : Except Fault Cell :=
  let kept := s.toList.take lengthLimit
  if kept.any isControl then .error (.illegalCharacter (String.ofList kept))
  else .ok (.text (String.ofList kept))

def ofValue : Value → Except Fault Cell
  | .null => .ok .empty
  | .bool b => .ok (.bool b)
  | .int n => .ok (.int n)
  | .float x => .ok (.float x)
  | .text s => ofText s
  | v => do
    let shown ← v.literal
    .error (.notCell shown)

def errorCodes : List String :=
  ["#NULL!", "#DIV/0!", "#VALUE!", "#REF!", "#NAME?", "#NUM!", "#N/A"]

/-- How a text is taken if not as a plain text. -/
def reading? : Cell → Option Reading
  | .text s =>
    if 1 < s.length && s.toList.head? == some '=' then some .formula
    else if errorCodes.contains s then some .errorValue
    else none
  | _ => none

/-- Numbers are stored as binary64, so an integer past its range cannot be saved. -/
def isStorable : Cell → Bool
  | .int n => (Binary64.ofInt? n).isSome
  | _ => true

end Cell

namespace Sheet

/-- The last column that has letters for its name is `ZZZ`. -/
def columnLimit : Nat :=
  18278

/-- Why a sheet cannot be stored, if so.  Its columns are named before its cells are stored. -/
def fault? (s : Sheet) : Option Fault :=
  if columnLimit < s.header.length then some (.columnTooFar s.header.length)
  else if s.cells.all fun row ↦ row.all Cell.isStorable then none
  else some .integerTooLarge

end Sheet

namespace Workbook

/-- Why a workbook cannot be stored, if so: the reason of the first sheet that has one. -/
def fault? (w : Workbook) : Option Fault :=
  w.sheets.findSome? Sheet.fault?

/-- The library that the program runs with. -/
def Library.standard : Library :=
  ⟨Cell.ofValue, Cell.reading?, Workbook.fault?⟩

/-- Writes a workbook with the standard library. -/
def write (refusal : Option Fault) (runs quantiles precision : Value) (path : String) :
    Transcript String Fault (List Summary × Workbook) :=
  Library.standard.write refusal runs quantiles precision path

end Workbook

/-- The text cells that the standard library does not take for plain texts. -/
def Sheet.readings (s : Sheet) : List (String × Cell.Reading) :=
  Workbook.Library.standard.readings s

end BucketStats

import BucketStats.Decimal.Numeral
import BucketStats.Fault
import BucketStats.Text.Quoted
/-!
# Texts of values

A value is shown in a message by its literal, in which texts are quoted; on a line of its own a text
stands as it is.  Numbers are written so that reading them gives the number back.
-/

namespace BucketStats

/-- The digits of an integer, which may be no more than `Decimal.integerDigitLimit`. -/
def integerText (n : Int) : Except Fault String :=
  if n.natAbs < tenPow Decimal.integerDigitLimit then
    .ok (String.ofList (Decimal.signed (decide (n < 0)) (Decimal.digits n.natAbs)))
  else .error .tooManyDigits

def binary64Text (x : Binary64) : String :=
  String.ofList (Decimal.writeShortest x)

def quotedText (s : String) : String :=
  String.ofList (Text.quoted s.toList)

namespace Value

def commaSeparated (parts : List String) : String :=
  ", ".intercalate parts

/-- A tuple of one item keeps a comma, which tells it from a bracketed item. -/
def tupleText (parts : List String) : String :=
  match parts with
  | [part] => "(" ++ part ++ ",)"
  | _ => "(" ++ commaSeparated parts ++ ")"

mutual

def literal : Value → Except Fault String
  | .null => .ok "None"
  | .bool b => .ok (if b then "True" else "False")
  | .int n => integerText n
  | .float x => .ok (binary64Text x)
  | .text s => .ok (quotedText s)
  | .list items => do
    let parts ← literals items
    .ok ("[" ++ commaSeparated parts ++ "]")
  | .tuple items => do
    let parts ← literals items
    .ok (tupleText parts)
  | .stream _ => .ok "<generator object>"
  | .dict entries => do
    let parts ← entryLiterals entries
    .ok ("\x7b" ++ commaSeparated parts ++ "\x7d")
  | .weightedMean count sum => do
    let countText ← literal count
    let sumText ← literal sum
    .ok s!"WeightedMeanResult(total_count={countText}, total_weighted_sum={sumText})"

def literals : List Value → Except Fault (List String)
  | [] => .ok []
  | v :: rest => do
    let part ← literal v
    let parts ← literals rest
    .ok (part :: parts)

def entryLiterals : List (Value × Value) → Except Fault (List String)
  | [] => .ok []
  | (k, v) :: rest => do
    let key ← literal k
    let value ← literal v
    let parts ← entryLiterals rest
    .ok ((key ++ ": " ++ value) :: parts)

end

/-- The text of a value on a line of its own. -/
def display : Value → Except Fault String
  | .text s => .ok s
  | v => v.literal

end Value

end BucketStats

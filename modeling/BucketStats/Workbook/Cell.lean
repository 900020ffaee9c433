import BucketStats.Value.Access
/-!
# Cells

A cell is empty or holds a truth value, a number or a text.  What it holds need not be taken for what
it looks like: a text can come to count as a formula or as an error value.
-/

namespace BucketStats

inductive Cell where
  | empty
  | bool (b : Bool)
  | int (n : Int)
  | float (x : Binary64)
  | text (s : String)
deriving DecidableEq

/-- What a cell's content is taken for where it is not what it looks like. -/
inductive Cell.Reading where
  | formula
  | errorValue
deriving DecidableEq

def Cell.toValue : Cell → Value
  | .empty => .null
  | .bool b => .bool b
  | .int n => .int n
  | .float x => .float x
  | .text s => .text s

end BucketStats

import BucketStats.Text.JsonString
import BucketStats.Value.Printer
/-!
# JSON texts

A JSON document of texts, numbers and objects, written in ASCII with an indentation of two spaces
for each level.
-/

namespace BucketStats

inductive Json where
  | text (s : String)
  | integer (n : Int)
  | number (x : Binary64)
  | object (fields : List (String × Json))

namespace Json

def stringText (s : String) : String :=
  String.ofList (Text.jsonString s.toList)

def indentation (depth : Nat) : String :=
  String.ofList ('\n' :: List.replicate (2 * depth) ' ')

/-- A field on a line of its own. -/
def fieldText (depth : Nat) (key value : String) : String :=
  indentation depth ++ stringText key ++ ": " ++ value

def objectText (depth : Nat) (fields : List String) : String :=
  if fields.isEmpty then "\x7b\x7d"
  else "\x7b" ++ ",".intercalate fields ++ indentation depth ++ "\x7d"

mutual

def write (depth : Nat) : Json → Except Fault String
  | .text s => .ok (stringText s)
  | .integer n => integerText n
  | .number x => .ok (binary64Text x)
  | .object fields => do
    let parts ← writeFields (depth + 1) fields
    .ok (objectText depth parts)

def writeFields (depth : Nat) : List (String × Json) → Except Fault (List String)
  | [] => .ok []
  | (key, value) :: rest => do
    let part ← write depth value
    let parts ← writeFields depth rest
    .ok (fieldText depth key part :: parts)

end

end Json

end BucketStats

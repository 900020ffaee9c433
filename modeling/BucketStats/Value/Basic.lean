import BucketStats.Binary64.Basic
import BucketStats.Entries
/-!
# Values

Counts, observations, runs and summaries arrive as values of mixed kinds, and part of the job is to
tell the good ones from the bad.  A stream is a sequence that can be passed over once and has no
size.  A weighted mean is a value too, and a caller may give it any totals.
-/

namespace BucketStats

inductive Value where
  | null
  | bool (b : Bool)
  | int (n : Int)
  | float (x : Binary64)
  | text (s : String)
  | list (items : List Value)
  | tuple (items : List Value)
  | stream (items : List Value)
  | dict (entries : List (Value × Value))
  | weightedMean (totalCount totalWeightedSum : Value)

/-- The kinds of values. -/
inductive Kind where
  | null
  | bool
  | int
  | float
  | text
  | list
  | tuple
  | stream
  | dict
  | weightedMean
deriving DecidableEq

/-- The name of a kind in messages. -/
def Kind.name : Kind → String
  | .null => "NoneType"
  | .bool => "bool"
  | .int => "int"
  | .float => "float"
  | .text => "str"
  | .list => "list"
  | .tuple => "tuple"
  | .stream => "generator"
  | .dict => "dict"
  | .weightedMean => "WeightedMeanResult"

namespace Value

def kind : Value → Kind
  | .null => .null
  | .bool _ => .bool
  | .int _ => .int
  | .float _ => .float
  | .text _ => .text
  | .list _ => .list
  | .tuple _ => .tuple
  | .stream _ => .stream
  | .dict _ => .dict
  | .weightedMean .. => .weightedMean

/-- The integer that a truth value or an integer stands for in comparisons. -/
def asInt? : Value → Option Int
  | .bool b => some (if b then 1 else 0)
  | .int n => some n
  | _ => none

/-- Everything counts as true but nothing, zero, and what is empty. -/
def isTrue : Value → Bool
  | .null => false
  | .bool b => b
  | .int n => n != 0
  | .float x => !x.isZero
  | .text s => !s.isEmpty
  | .list items => !items.isEmpty
  | .tuple items => !items.isEmpty
  | .dict entries => !entries.isEmpty
  | .stream _ => true
  | .weightedMean .. => true

/-- Whether two values are known to be one and the same `nan`. -/
def sameNan : Value → Value → Bool
  | .float x, .float y => x.sameNan y
  | _, _ => false

mutual

/-- Equality of values: numbers of all kinds by value, sequences item by item, and dictionaries
without regard to order.  A `nan` equals nothing, but what holds it equals what holds the same
one. -/
def same : Value → Value → Bool
  | .null, .null => true
  | .text s, .text t => s == t
  | .list xs, .list ys => sameItems xs ys
  | .tuple xs, .tuple ys => sameItems xs ys
  | .dict xs, .dict ys => xs.length == ys.length && entriesWithin xs ys
  | .weightedMean count sum, .weightedMean count' sum' =>
    (sameNan count count' || same count count') && (sameNan sum sum' || same sum sum')
  | .float x, .float y => x.sameValue y
  | .float x, v => v.asInt?.isSome && x.toInt? == v.asInt?
  | .bool b, .float y => y.toInt? == some (if b then 1 else 0)
  | .int n, .float y => y.toInt? == some n
  | .bool b, v => v.asInt? == some (if b then 1 else 0)
  | .int n, v => v.asInt? == some n
  | _, _ => false

def sameItems : List Value → List Value → Bool
  | [], [] => true
  | x :: xs, y :: ys => (sameNan x y || same x y) && sameItems xs ys
  | _, _ => false

/-- Whether each entry has an equal one in another dictionary. -/
def entriesWithin : List (Value × Value) → List (Value × Value) → Bool
  | [], _ => true
  | (k, v) :: rest, ys =>
    ys.any (fun e ↦ (sameNan k e.1 || same k e.1) && (sameNan v e.2 || same v e.2)) &&
      entriesWithin rest ys

end

/-- Whether two values are one key of a dictionary. -/
def sameKey (k k' : Value) : Bool :=
  sameNan k k' || same k k'

/-- A dictionary from its entries; a later entry of an equal key replaces the value. -/
def dictOf (entries : List (Value × Value)) : Value :=
  .dict (entries.foldl (fun acc e ↦ Entries.putBy sameKey e.1 e.2 acc) [])

end Value

end BucketStats

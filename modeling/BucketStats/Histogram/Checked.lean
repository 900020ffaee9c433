import BucketStats.Histogram.Quantile
import BucketStats.Value.Access
/-!
# Histograms from values

Counts come as values and are checked one by one, in order: each must be an integer that is not a
truth value, and none may be negative.  The first one that fails names its index.
-/

namespace BucketStats.Histogram

/-- A count or observation that may be wrong in two ways, each with its own fault. -/
def checkInteger (notInteger negative : String → Fault) (v : Value) : Except Fault Nat :=
  match v with
  | .int n =>
    if n < 0 then do
      let shown ← integerText n
      .error (negative shown)
    else .ok n.toNat
  | _ => do
    let shown ← v.literal
    .error (notInteger shown)

def checkCount (index : Nat) (v : Value) : Except Fault Nat :=
  checkInteger (.countNotInteger index) (.negativeCount index) v

def ofItems (items : List Value) : Except Fault Histogram :=
  items.zipIdx.mapM fun entry ↦ checkCount entry.2 entry.1

/-- The histogram that a value holds. -/
def ofValue : Value → Except Fault Histogram
  | .null => .error .missingCounts
  | v => do
    let items ← v.items
    ofItems items

def weightedMeanOf (counts : Value) : Except Fault WeightedMean := do
  let h ← ofValue counts
  h.weightedMean

/-- The quantile of counts and a level given as values.  The counts are checked before the level is
read. -/
def quantileOf (counts level : Value) : Except Fault Nat := do
  let h ← ofValue counts
  if h.total = 0 then .error (.noObservations h.length)
  else
    let x ← level.toBinary64
    .ok (h.quantile x)

end BucketStats.Histogram

import BucketStats.Histogram.Checked
/-!
# Histograms of observations

Single observations are counted into a histogram that is as long as the greatest of them needs.
Missing observations are passed over and keep their positions.
-/

namespace BucketStats.Histogram

/-- Sizes and indices are below this. -/
def indexLimit : Nat :=
  twoPow 63

/-- A sequence of this size no longer fits into memory. -/
def memoryLimit : Nat :=
  twoPow 32

/-- Counts one more observation, on a histogram grown to hold it. -/
def observe (counts : Array Nat) (value : Nat) : Array Nat :=
  (counts ++ Array.replicate (value + 1 - counts.size) 0).modify value (· + 1)

/-- Whether a histogram can grow to hold a value. -/
def growthFault? (size value : Nat) : Option Fault :=
  if indexLimit ≤ value + 1 - size then some .indexTooLarge
  else if size ≤ value ∧ memoryLimit ≤ value then some .outOfMemory
  else none

def checkObservation (position : Nat) (v : Value) : Except Fault Nat :=
  checkInteger (.observationNotInteger position) (.negativeObservation position) v

def observeValue (counts : Array Nat) (entry : Value × Nat) : Except Fault (Array Nat) :=
  match entry.1 with
  | .null => .ok counts
  | v => do
    let value ← checkObservation entry.2 v
    match growthFault? counts.size value with
    | some fault => .error fault
    | none => .ok (observe counts value)

/-- The histogram of a sequence of observations. -/
def ofObservations (values : Value) : Except Fault Histogram := do
  let items ← values.items
  let counts ← items.zipIdx.foldlM observeValue #[]
  .ok counts.toList

end BucketStats.Histogram

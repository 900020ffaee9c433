import BucketStats.Value.Quotient
/-!
# Histograms

A histogram is a list of counts in which the index is the observed value: a count of seven at index
three stands for seven observations of three.  Its total is the number of observations, its weighted
sum the sum of their values, and its mean the quotient of the two, rounded once to binary64.
-/

namespace BucketStats

abbrev Histogram := List Nat

/-- The total number of observations and the sum of their values. -/
structure WeightedMean where
  totalCount : Nat
  totalWeightedSum : Nat
deriving DecidableEq

namespace Histogram

def total (h : Histogram) : Nat :=
  h.foldl (· + ·) 0

def weightedSum (h : Histogram) : Nat :=
  h.zipIdx.foldl (fun acc bucket ↦ acc + bucket.2 * bucket.1) 0

/-- The number of observations up to and including a bucket. -/
def cumulative (h : Histogram) (bucket : Nat) : Nat :=
  total (h.take (bucket + 1))

@[simp]
theorem total_nil : total [] = 0 := rfl

@[simp]
theorem total_cons (count : Nat) (rest : Histogram) :
    total (count :: rest) = count + total rest := by
  have hshift : List.foldl (fun (x y : Nat) ↦ x + y) (count + 0) rest = count + rest.total :=
    List.foldl_assoc
  simpa [total] using hshift

@[simp]
theorem total_append (h h' : Histogram) : total (h ++ h') = total h + total h' := by
  induction h with
  | nil => simp
  | cons count rest ih => simp [ih, Nat.add_assoc]

theorem total_eq_zero_iff {h : Histogram} : h.total = 0 ↔ ∀ count ∈ h, count = 0 := by
  induction h with
  | nil => simp
  | cons count rest ih => simp [ih, Nat.add_eq_zero_iff]

/-- The observations up to a bucket and those past it are all observations. -/
theorem cumulative_add_total_drop (h : Histogram) (bucket : Nat) :
    h.cumulative bucket + total (h.drop (bucket + 1)) = h.total := by
  rw [cumulative, ← total_append, List.take_append_drop]

def weightedMean (h : Histogram) : Except Fault WeightedMean :=
  if h.total = 0 then .error (.noObservations h.length)
  else .ok ⟨h.total, h.weightedSum⟩

end Histogram

namespace WeightedMean

def mean (m : WeightedMean) : Except Fault Binary64 :=
  quotient m.totalWeightedSum m.totalCount

def toValue (m : WeightedMean) : Value :=
  .weightedMean (.int m.totalCount) (.int m.totalWeightedSum)

end WeightedMean

end BucketStats

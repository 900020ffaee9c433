import BucketStats.Histogram.Basic
/-!
# Quantiles of histograms

The quantile of a histogram at a level is the first non-empty bucket at which the number of
observations so far reaches the level's share of the total.  Levels are taken into the interval from
zero to one first; what is no number counts as one.

The comparison is exact: a level is a whole number of units of `2 ^ -1074`, so both sides are natural
numbers.
-/

namespace BucketStats.Histogram

/-- A level taken into the unit interval, in units of `2 ^ -1074`. -/
def levelUnits : Binary64 → Nat
  | .finite x => if x.negative then 0 else min (Binary64.units x.rank) Binary64.unitsPerOne
  | .infinite negative => if negative then 0 else Binary64.unitsPerOne
  | .nan _ => Binary64.unitsPerOne

/-- Whether a number of observations reaches a level's share of the total. -/
def reaches (level : Binary64) (total observed : Nat) : Bool :=
  decide (levelUnits level * total ≤ observed * Binary64.unitsPerOne)

/-- The first non-empty bucket at which the observations so far reach the goal, from a bucket on and
with the number of observations before it. -/
def firstReaching (goal : Nat → Bool) (bucket observed : Nat) : Histogram → Option Nat
  | [] => none
  | count :: rest =>
    if count = 0 then firstReaching goal (bucket + 1) observed rest
    else if goal (observed + count) then some bucket
    else firstReaching goal (bucket + 1) (observed + count) rest

/-- The last non-empty bucket, or the first one if all are empty. -/
def lastNonEmpty (h : Histogram) : Nat :=
  h.zipIdx.foldl (fun last bucket ↦ if bucket.1 = 0 then last else bucket.2) 0

/-- The bucket at a level; the last non-empty bucket stands in if no bucket reaches it. -/
def quantile (h : Histogram) (level : Binary64) : Nat :=
  (firstReaching (reaches level h.total) 0 0 h).getD (lastNonEmpty h)

end BucketStats.Histogram

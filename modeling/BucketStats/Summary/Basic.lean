import BucketStats.Decimal.Places
import BucketStats.Histogram.Checked
import BucketStats.Json
/-!
# Summaries of runs

A run is a labelled histogram.  Its summary has the number of buckets, the totals and the mean, and
the bucket at each requested quantile under the quantile's label.

Labels show six significant digits, so two close quantiles can share one.  They then share an entry,
which keeps the first one's place and the last one's bucket.
-/

namespace BucketStats

structure Run where
  label : Value
  counts : Histogram

structure Summary where
  label : Value
  buckets : Nat
  totals : WeightedMean
  mean : Binary64
  quantiles : Entries String Nat

/-- The label of a quantile: a `q` and the level with six significant digits. -/
def levelLabel (level : Binary64) : String :=
  String.ofList ('q' :: Decimal.writeSignificant 6 level)

def quantileLabel : Value → Except Fault String
  | .float x => .ok (levelLabel x)
  | .int n => (Value.binary64OfInt n).map levelLabel
  | .bool b => (Value.binary64OfInt (if b then 1 else 0)).map levelLabel
  | .text _ => .error (.unknownFormat "g" .text)
  | v => .error (.noFormat v.kind)

/-- The requested quantiles; a value that counts as false requests none. -/
def levelsOf (quantiles : Value) : Except Fault (List Value) :=
  if quantiles.isTrue then quantiles.items else .ok []

namespace Run

def ofValue (v : Value) : Except Fault Run := do
  let counts ← v.item "counts"
  let label ← v.item "label"
  let _ ← counts.size
  let h ← Histogram.ofValue counts
  .ok ⟨label, h⟩

def addQuantile (run : Run) (found : Entries String Nat) (level : Value) :
    Except Fault (Entries String Nat) := do
  let label ← quantileLabel level
  let x ← level.toBinary64
  .ok (found.put label (run.counts.quantile x))

def summarize (run : Run) (levels : List Value) : Except Fault Summary := do
  let totals ← run.counts.weightedMean
  let mean ← totals.mean
  let quantiles ← levels.foldlM run.addQuantile []
  .ok ⟨run.label, run.counts.length, totals, mean, quantiles⟩

/-- A run given as a value, with its summary. -/
def readAndSummarize (levels : List Value) (v : Value) : Except Fault (Run × Summary) := do
  let run ← ofValue v
  let summary ← run.summarize levels
  .ok (run, summary)

end Run

/-- All runs with their summaries; the first run that fails decides. -/
def summarizeRuns (runs quantiles : Value) : Except Fault (List (Run × Summary)) := do
  let levels ← levelsOf quantiles
  let items ← runs.items
  items.mapM (Run.readAndSummarize levels)

namespace Summary

def quantileEntries (s : Summary) : List (Value × Value) :=
  s.quantiles.map fun e ↦ (.text e.1, .int e.2)

/-- The summary as a dictionary; without quantiles it has no entry for them. -/
def toValue (s : Summary) : Value :=
  .dict ([(.text "label", s.label), (.text "buckets", .int s.buckets),
    (.text "total_count", .int s.totals.totalCount),
    (.text "total_weighted_sum", .int s.totals.totalWeightedSum),
    (.text "mean", .float s.mean)] ++
    if s.quantiles.isEmpty then [] else [(.text "quantiles", .dict s.quantileEntries)])

/-- The summary of a run labelled with a text, as a JSON object. -/
def toJson (label : String) (s : Summary) : Json :=
  .object ([("label", .text label), ("buckets", .integer s.buckets),
    ("total_count", .integer s.totals.totalCount),
    ("total_weighted_sum", .integer s.totals.totalWeightedSum),
    ("mean", .number s.mean)] ++
    if s.quantiles.isEmpty then []
    else [("quantiles", .object (s.quantiles.map fun e ↦ (e.1, .integer e.2)))])

end Summary

end BucketStats

import BucketStats.Histogram.Observations
import BucketStats.Summary.Basic
import BucketStats.Transcript
import BucketStats.Workbook.Library
/-!
# Building workbooks

A workbook has a sheet with one row for each run's summary, and after it one sheet for each run with
a row for each bucket.  Building it says what it does, step by step; the summaries are made first
and in silence, so a run that has none leaves no trace.  Labels become cells in the way that a library
of spreadsheets has for values, and it is this library that stores the workbook.
-/

namespace BucketStats.Workbook

def zeros (n : Int) : Except Fault String :=
  if (Histogram.indexLimit : Int) ≤ n then .error .indexTooLarge
  else if (Histogram.memoryLimit : Int) ≤ n then .error .outOfMemory
  else .ok (String.ofList (List.replicate n.toNat '0'))

/-- The number format of means: as many decimal places as the precision says. -/
def meanFormat : Value → Except Fault String
  | .int n =>
    if 0 < n then do
      let places ← zeros n
      .ok ("0." ++ places)
    else .ok "0"
  | .bool b => .ok (if b then "0.0" else "0")
  | .float x => if x.isPositive then .error .fractionalRepeat else .ok "0"
  | v => .error (.notComparable ">" v.kind .int)

def summaryHeader (labels : List String) : List String :=
  ["label", "total_count", "total_weighted_sum", "mean"] ++ labels

/-- The row of a summary.  A quantile's cell is the summary's entry under the quantile's label. -/
def Library.summaryRow (library : Library) (labels : List String) (s : Summary) :
    Except Fault (List Cell) := do
  let label ← library.ofValue s.label
  .ok ([label, .int s.totals.totalCount, .int s.totals.totalWeightedSum, .float s.mean] ++
    labels.filterMap fun key ↦ (s.quantiles.find? key).map fun n ↦ .int n)

def Library.summarySheet (library : Library) (labels : List String) (summaries : List Summary)
    (precision : Value) : Except Fault Sheet := do
  let rows ← summaries.mapM (library.summaryRow labels)
  let format ← meanFormat precision
  .ok ⟨"Summary", summaryHeader labels, rows, 3, format, none,
    [("A", 24), ("B", 14), ("C", 20), ("D", 12)]⟩

def bucketHeader : List String :=
  ["value", "count", "value_x_count", "cumulative_count", "cumulative_share"]

/-- The row of a bucket, given the number of observations before it. -/
def bucketRow (total bucket before count : Nat) : Except Fault (List Cell) := do
  let share ← quotient (before + count : Nat) total
  .ok [.int bucket, .int count, .int (bucket * count : Nat), .int (before + count : Nat),
    .float share]

def bucketRowsFrom (total bucket before : Nat) : Histogram → Except Fault (List (List Cell))
  | [] => .ok []
  | count :: rest => do
    let row ← bucketRow total bucket before count
    let rows ← bucketRowsFrom total (bucket + 1) (before + count) rest
    .ok (row :: rows)

def bucketTitle (runs index : Nat) : String :=
  if runs = 1 then "Buckets" else s!"Buckets_{index}"

def bucketSheet (title : String) (run : Run) : Except Fault Sheet := do
  let rows ← bucketRowsFrom run.counts.total 0 0 run.counts
  .ok ⟨title, bucketHeader, rows, 4, "0.00%", some "A2",
    [("A", 8), ("B", 12), ("C", 16), ("D", 18), ("E", 18)]⟩

/-- Makes the sheet of one run, and says so. -/
def populate (runs : Nat) (entry : Run × Nat) : Transcript String Fault Sheet := do
  let title := bucketTitle runs (entry.2 + 1)
  let label ← Transcript.ofExcept entry.1.label.display
  Transcript.note s!"Populating {title} ({label})"
  Transcript.ofExcept (bucketSheet title entry.1)

def populateAll (runs : List Run) : Transcript String Fault (List Sheet) :=
  runs.zipIdx.mapM (populate runs.length)

/-- A stream of runs is spent by its summaries and has no runs left for sheets of their own. -/
def remainingRuns (runs : Value) (found : List (Run × Summary)) : List Run :=
  match runs with
  | .stream _ => []
  | _ => found.map (·.1)

namespace Library

variable (library : Library)

/-- Saving fails where the file cannot be written, or else where the workbook cannot be stored. -/
def save (refusal : Option Fault) (book : Workbook) : Except Fault Unit :=
  match refusal.or (library.fault? book) with
  | some fault => .error fault
  | none => .ok ()

/-- Summarizes runs, builds their workbook and saves it at a path, where `refusal` says why that
path cannot be written, if so. -/
def write (refusal : Option Fault) (runs quantiles precision : Value) (path : String) :
    Transcript String Fault (List Summary × Workbook) := do
  let levels ← Transcript.ofExcept (levelsOf quantiles)
  let found ← Transcript.ofExcept (summarizeRuns runs (.list levels))
  let summaries := found.map (·.2)
  Transcript.note "Creating workbook"
  let labels ← Transcript.ofExcept (levels.mapM quantileLabel)
  let first ← Transcript.ofExcept (library.summarySheet labels summaries precision)
  let others ← populateAll (remainingRuns runs found)
  Transcript.note s!"Saving {path}"
  let book : Workbook := ⟨first :: others⟩
  Transcript.ofExcept (library.save refusal book)
  pure (summaries, book)

end Library

end BucketStats.Workbook

import BucketStats.Summary.Basic
import BucketStats.Summary.NumberFormat
/-!
# Report lines

A report is a line with the weighted sum and the total, a line with the mean at a number of decimal
places, and a line for each quantile.  The precision is whatever value a caller gives: its text must
make a number format, and only numbers can be written in it.
-/

namespace BucketStats

/-- A value in the number format of a precision. -/
def withPlaces (precision : String) : Value → Except Fault String
  | .float x => do
    let format ← NumberFormat.ofPrecision .float precision
    format.text x
  | .int n => do
    let format ← NumberFormat.ofPrecision .int precision
    let x ← Value.binary64OfInt n
    format.text x
  | .bool b => do
    let format ← NumberFormat.ofPrecision .bool precision
    let x ← Value.binary64OfInt (if b then 1 else 0)
    format.text x
  | .text _ => do
    let _ ← NumberFormat.ofPrecision .text precision
    .error (.unknownFormat "f" .text)
  | v => .error (.noFormat v.kind)

def totalsLine (summary : Value) : Except Fault String := do
  let sum ← summary.item "total_weighted_sum"
  let sumText ← sum.display
  let count ← summary.item "total_count"
  let countText ← count.display
  .ok s!"sum {sumText} {countText}"

def meanLine (summary precision : Value) : Except Fault String := do
  let mean ← summary.item "mean"
  let places ← precision.display
  let text ← withPlaces places mean
  .ok s!"mean {text}"

def quantileLine (entry : Value × Value) : Except Fault String := do
  let key ← entry.1.display
  let bucket ← entry.2.display
  .ok s!"{key} {bucket}"

def quantileLines (summary : Value) : Except Fault (List String) := do
  let quantiles ← summary.getOr (.text "quantiles") (.dict [])
  match quantiles with
  | .dict entries => entries.mapM quantileLine
  | v => .error (.noAttribute v.kind "items")

/-- The lines of a report on a summary. -/
def reportLines (summary precision : Value) : Except Fault (List String) := do
  let totals ← totalsLine summary
  let mean ← meanLine summary precision
  let quantiles ← quantileLines summary
  .ok (totals :: mean :: quantiles)

end BucketStats

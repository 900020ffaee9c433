import BucketStats.Value.Printer
/-!
# Quotients of values

Integers and truth values are divided exactly and the quotient is rounded once.  As soon as one side
is a float, both are rounded first.  Nothing is divided by zero, and only numbers are divided.

A weighted mean is the quotient of its totals.
-/

namespace BucketStats

/-- The number nearest to a quotient of integers.  Equal signs make it positive, even if it is
zero. -/
def quotient (num den : Int) : Except Fault Binary64 :=
  if den = 0 then .error .divisionByZero
  else
    match Binary64.ofQuotient (decide (num < 0) != decide (den < 0)) num.natAbs den.natAbs with
    | .infinite _ => .error .quotientTooLarge
    | x => .ok x

namespace Value

def binary64OfInt (n : Int) : Except Fault Binary64 :=
  match Binary64.ofInt? n with
  | some x => .ok x
  | none => .error .integerTooLarge

/-- The number that a value is, without reading texts; `none` if it is no number. -/
def number? : Value → Option (Except Fault Binary64)
  | .float x => some (.ok x)
  | v => v.asInt?.map binary64OfInt

def divide (v w : Value) : Except Fault Binary64 :=
  match v.asInt?, w.asInt? with
  | some n, some m => quotient n m
  | _, _ =>
    match v.number?, w.number? with
    | some readLeft, some readRight => do
      let x ← readLeft
      let y ← readRight
      if y.isZero then .error .divisionByFloatZero else .ok (x.divide y)
    | _, _ => .error (.notDivisible v.kind w.kind)

def mean : Value → Except Fault Binary64
  | .weightedMean totalCount totalWeightedSum => totalWeightedSum.divide totalCount
  | v => .error (.noAttribute v.kind "mean")

/-- The totals and the mean under their names. -/
def meanEntries : Value → Except Fault Value
  | .weightedMean totalCount totalWeightedSum => do
    let mean ← totalWeightedSum.divide totalCount
    .ok (.dict [(.text "total_count", totalCount), (.text "total_weighted_sum", totalWeightedSum),
      (.text "mean", .float mean)])
  | v => .error (.noAttribute v.kind "as_dict")

/-- The fields of a weighted mean never change, and no other value has fields to set. -/
def assign (v : Value) (field : String) (_value : Value) : Except Fault Value :=
  match v with
  | .weightedMean .. => .error (.frozenField (quotedText field))
  | _ => .error (.noAttribute v.kind field)

end Value

end BucketStats

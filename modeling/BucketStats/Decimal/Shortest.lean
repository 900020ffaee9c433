import BucketStats.Binary64.Basic
import BucketStats.Decimal.Digits
/-!
# Shortest decimals

The shortest decimal of a binary64 magnitude is the one with the fewest significant digits among
the decimals that read back as that magnitude, and of those with equally few digits the nearest.
A decimal reads back if it lies between the midpoints to the two neighbouring magnitudes; the
midpoints themselves read back exactly when the rank is even.

A grid of decimals is the whole multiples of one power of ten.  Where any point of a grid reads
back, one of the two grid points around the magnitude does, so only these are tried.
-/

namespace BucketStats.Decimal

/-- The magnitude of a rank as a quotient in steps of `10 ^ scale`. -/
def gridQuotient (rank : Nat) (scale : Int) : Nat × Nat :=
  (Binary64.units rank * tenPow (-scale).toNat, Binary64.unitsPerOne * tenPow scale.toNat)

/-- Whether `n × 10 ^ scale` lies between the midpoints around a rank. -/
def readsBack (rank : Nat) (scale : Int) (n : Nat) : Bool :=
  let below := (Binary64.units (rank - 1) + Binary64.units rank) * tenPow (-scale).toNat
  let above := (Binary64.units rank + Binary64.units (rank + 1)) * tenPow (-scale).toNat
  let twice := 2 * n * (Binary64.unitsPerOne * tenPow scale.toNat)
  if rank % 2 = 0 then decide (below ≤ twice) && decide (twice ≤ above)
  else decide (below < twice) && decide (twice < above)

/-- The point of a grid that reads back as the rank and is nearest to it. -/
def nearestOnGrid (rank : Nat) (scale : Int) : Option Nat :=
  let (num, den) := gridQuotient rank scale
  let low := num / den
  match readsBack rank scale low, readsBack rank scale (low + 1) with
  | true, true => some (roundHalfEven num den)
  | true, false => some low
  | false, true => some (low + 1)
  | false, false => none

/-- The shortest decimal of a positive rank, as a number of steps and the scale of its grid.
Seventeen digits always suffice; the exact value stands behind them as the last resort. -/
def shortestScaled (rank : Nat) : Nat × Int :=
  let lead := leadingExponent (Binary64.units rank) Binary64.unitsPerOne
  let found := (List.range 17).findSome? fun (k : Nat) ↦
    (nearestOnGrid rank (lead - k)).map fun n ↦ (n, lead - k)
  found.getD (Binary64.units rank * Nat.pow 5 1074, -1074)

def shortest (rank : Nat) : Scientific :=
  if rank = 0 then .zero
  else
    let (n, scale) := shortestScaled rank
    .ofScaled n scale

/-- Numbers in full: positions up to sixteen digits before the point, and always a point. -/
def fullLayout : Layout :=
  ⟨16, true⟩

def signed (negative : Bool) (magnitude : List Char) : List Char :=
  if negative then '-' :: magnitude else magnitude

/-- The text of a number with a given text for finite magnitudes. -/
def writeWith (magnitude : Nat → List Char) : Binary64 → List Char
  | .finite x => signed x.negative (magnitude x.rank)
  | .infinite negative => signed negative ['i', 'n', 'f']
  | .nan _ => ['n', 'a', 'n']

/-- The shortest text that reads back as the number. -/
def writeShortest : Binary64 → List Char :=
  writeWith fun rank ↦ (shortest rank).write fullLayout

end BucketStats.Decimal

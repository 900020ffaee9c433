import BucketStats.Decimal.Shortest
/-!
# Decimals of a fixed length

Two ways to cut a number to a length: a fixed number of places after the point, and a fixed number
of significant digits.  Both round the exact binary value once, a half going to the even digit.
-/

namespace BucketStats.Decimal

/-- Past this many places every further digit of a binary64 number is zero. -/
def exactPlaces : Nat :=
  1074

/-- The digits of `n / 10 ^ places`, with at least one digit before the point. -/
def pointed (n places : Nat) : List Char × List Char :=
  let ds := digits n
  let padded := List.replicate (places + 1 - ds.length) '0' ++ ds
  (padded.take (padded.length - places), padded.drop (padded.length - places))

/-- A magnitude rounded to a number of places; without places there is no point. -/
def fixedMagnitude (places rank : Nat) : List Char :=
  let kept := min places exactPlaces
  let steps := roundHalfEven (Binary64.units rank * tenPow kept) Binary64.unitsPerOne
  let (whole, fraction) := pointed steps kept
  if places = 0 then whole
  else whole ++ '.' :: (fraction ++ List.replicate (places - kept) '0')

def writeFixed (places : Nat) : Binary64 → List Char :=
  writeWith (fixedMagnitude places)

/-- A magnitude rounded to `count` significant digits, without trailing zeros. -/
def significant (count rank : Nat) : Scientific :=
  if rank = 0 then .zero
  else
    let lead := leadingExponent (Binary64.units rank) Binary64.unitsPerOne
    let scale := lead - count + 1
    let (num, den) := gridQuotient rank scale
    .ofScaled (roundHalfEven num den) scale

/-- Short numbers: positions up to six digits before the point, and no point without a fraction. -/
def shortLayout : Layout :=
  ⟨6, false⟩

def writeSignificant (count : Nat) : Binary64 → List Char :=
  writeWith fun rank ↦ (significant count rank).write shortLayout

end BucketStats.Decimal

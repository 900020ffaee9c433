import BucketStats.Rounding
/-!
# Binary floating-point numbers of 64 bits

The magnitudes of binary64 form one ascending list that starts at zero.  A finite number is a sign
and the rank of its magnitude in that list, so the order of magnitudes is the order of ranks, the
parity of a rank is the parity of its significand, and a rank past the last finite one is infinity.

All magnitudes are whole multiples of the least positive one, `2 ^ -1074`.  `units` is that
multiple; with it every comparison is one between natural numbers.
-/

namespace BucketStats

namespace Binary64

/-- The first rank that is no longer finite. -/
def overflowRank : Nat :=
  2047 * twoPow 52

/-- The number of least positive magnitudes in `1`. -/
def unitsPerOne : Nat :=
  twoPow 1074

theorem unitsPerOne_pos : 0 < unitsPerOne :=
  twoPow_pos 1074

/-- The magnitude of a rank in multiples of `2 ^ -1074`.  The first `2 ^ 52` ranks are one unit
apart, and so are the next; from there each run of `2 ^ 52` ranks doubles the distance. -/
def units (rank : Nat) : Nat :=
  if rank < twoPow 52 then rank
  else (twoPow 52 + rank % twoPow 52) * twoPow (rank / twoPow 52 - 1)

/-- The rank whose magnitude is nearest to `num / den`; a half goes to the even rank. -/
def rankOfQuotient (num den : Nat) : Nat :=
  let scaled := num * unitsPerOne
  let shift := (scaled / den).log2 - 52
  shift * twoPow 52 + roundHalfEven scaled (den * twoPow shift)

/-- A finite number.  Zero has both signs. -/
structure Finite where
  negative : Bool
  rank : Nat
  rank_lt : rank < overflowRank
deriving DecidableEq

end Binary64

/-- A number, or no number: `nan`, with a payload that can tell one occurrence from another.  Reading
and arithmetic leave the payload at zero, which tells nothing. -/
inductive Binary64 where
  | finite (x : Binary64.Finite)
  | infinite (negative : Bool)
  | nan (payload : Nat)
deriving DecidableEq

namespace Binary64

def ofRank (negative : Bool) (rank : Nat) : Binary64 :=
  if h : rank < overflowRank then .finite ⟨negative, rank, h⟩ else .infinite negative

/-- The number nearest to `num / den`, or infinity where that lies past the last finite one. -/
def ofQuotient (negative : Bool) (num den : Nat) : Binary64 :=
  ofRank negative (rankOfQuotient num den)

/-- The number nearest to an integer, unless it is infinite. -/
def ofInt? (n : Int) : Option Binary64 :=
  match ofQuotient (decide (n < 0)) n.natAbs 1 with
  | .infinite _ => none
  | x => some x

/-- Whether the number lies between zero and one; both zeros do. -/
def inUnitInterval : Binary64 → Bool
  | .finite x => decide (x.rank = 0) || (!x.negative && decide (units x.rank ≤ unitsPerOne))
  | _ => false

/-- The integer that a finite number without a fractional part is. -/
def toInt? : Binary64 → Option Int
  | .finite x =>
    if units x.rank % unitsPerOne = 0 then
      let whole : Int := (units x.rank / unitsPerOne : Nat)
      some (if x.negative then -whole else whole)
    else none
  | _ => none

def isZero : Binary64 → Bool
  | .finite x => decide (x.rank = 0)
  | _ => false

def isPositive : Binary64 → Bool
  | .finite x => !x.negative && decide (x.rank ≠ 0)
  | .infinite negative => !negative
  | .nan _ => false

/-- Equality of values: the two zeros are equal, and `nan` equals nothing. -/
def sameValue : Binary64 → Binary64 → Bool
  | .finite x, .finite y =>
    decide (x.rank = y.rank) && (x.negative == y.negative || decide (x.rank = 0))
  | .infinite s, .infinite t => s == t
  | _, _ => false

/-- Whether two are known to be one and the same `nan`. -/
def sameNan : Binary64 → Binary64 → Bool
  | .nan p, .nan p' => decide (p = p') && decide (p ≠ 0)
  | _, _ => false

/-- The number nearest to a quotient.  What is divided by zero is infinite, and a quotient of two
zeros or of two infinities is no number. -/
def divide : Binary64 → Binary64 → Binary64
  | .finite x, .finite y =>
    if y.rank ≠ 0 then ofQuotient (x.negative != y.negative) (units x.rank) (units y.rank)
    else if x.rank = 0 then .nan 0
    else .infinite (x.negative != y.negative)
  | .infinite s, .finite y => .infinite (s != y.negative)
  | .finite x, .infinite s => ofRank (x.negative != s) 0
  | _, _ => .nan 0

end Binary64

end BucketStats

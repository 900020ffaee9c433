import BucketStats.Rounding
/-!
# Decimal digits

The digits of a natural number, and the layout of a positive number given by its significant digits
and the decimal exponent of the first of them.
-/

namespace BucketStats.Decimal

def digits (n : Nat) : List Char :=
  Nat.toDigits 10 n

/-- The exponent of the leading digit of `num / den`, read off its whole multiples of `10 ^ scale`.
There has to be one. -/
def leadingExponentOn (scale : Int) (num den : Nat) : Option Int :=
  let n := num * tenPow (-scale).toNat / (den * tenPow scale.toNat)
  if n = 0 then none else some ((digits n).length - 1 + scale)

/-- About twenty digits below the leading one of `num / den`, judged by the binary logarithms. -/
def nearbyScale (num den : Nat) : Int :=
  ((num.log2 : Int) - den.log2) * 1233 / 4096 - 20

/-- The exponent of the leading digit of `num / den`, for a quotient of at least `10 ^ -400`.  Every
scale gives the same exponent, so the nearby one only saves digits. -/
def leadingExponent (num den : Nat) : Int :=
  (leadingExponentOn (nearbyScale num den) num den).getD
    ((leadingExponentOn (-400) num den).getD (-401))

/-- Significant digits `d₁ d₂ … dₖ` and an exponent `e`, for the number `d₁.d₂…dₖ × 10 ^ e`. -/
structure Scientific where
  digits : List Char
  exponent : Int
deriving DecidableEq

def dropTrailingZeros (ds : List Char) : List Char :=
  (ds.reverse.dropWhile (· == '0')).reverse

/-- The number `n × 10 ^ scale` without trailing zeros. -/
def Scientific.ofScaled (n : Nat) (scale : Int) : Scientific where
  digits := dropTrailingZeros (Decimal.digits n)
  exponent := scale + (Decimal.digits n).length - 1

def Scientific.zero : Scientific :=
  ⟨['0'], 0⟩

/-- How a number is laid out: exponents from `-4` up to `positionalBelow` are written out in
positions, all others with `e`; `keepPoint` ends a whole number in positions with `.0`. -/
structure Layout where
  positionalBelow : Int
  keepPoint : Bool

namespace Scientific

def positional (keepPoint : Bool) (x : Scientific) : List Char :=
  if x.exponent < 0 then
    '0' :: '.' :: (List.replicate (-x.exponent - 1).toNat '0' ++ x.digits)
  else
    let whole := (x.exponent + 1).toNat
    if x.digits.length ≤ whole then
      x.digits ++ List.replicate (whole - x.digits.length) '0' ++
        (if keepPoint then ['.', '0'] else [])
    else x.digits.take whole ++ '.' :: x.digits.drop whole

def exponentText (e : Int) : List Char :=
  let ds := Decimal.digits e.natAbs
  'e' :: (if e < 0 then '-' else '+') :: (List.replicate (2 - ds.length) '0' ++ ds)

def exponential (x : Scientific) : List Char :=
  (match x.digits with
    | [] => []
    | [d] => [d]
    | d :: rest => d :: '.' :: rest) ++ exponentText x.exponent

def write (layout : Layout) (x : Scientific) : List Char :=
  if -4 ≤ x.exponent ∧ x.exponent < layout.positionalBelow then x.positional layout.keepPoint
  else x.exponential

end Scientific

end BucketStats.Decimal

import BucketStats.Binary64.Basic
import BucketStats.Decimal.Shortest
import BucketStats.Text.Blank
import BucketStats.Text.DecimalDigit
/-!
# Reading numerals

Integers are an optional sign and digits.  Decimals add a fraction and an exponent, or are one of
the words for infinity and for what is no number, in letters of either case.  Blanks may surround a
numeral, digits may be those of any script, and a single underscore may stand between two digits.

A decimal is read as the binary64 number nearest to its exact value.
-/

namespace BucketStats.Decimal

open Text

/-- Integers of more digits than this, leading zeros among them, are neither read nor written. -/
def integerDigitLimit : Nat :=
  4300

/-- A digit of any script as the ASCII digit of its value. -/
def plainDigit (c : Char) : Char :=
  if c.toNat < 0x7f then c
  else
    match digitValue? c with
    | some d => Nat.digitChar d
    | none => c

/-- Removes the underscores between digits; any other underscore spoils the numeral. -/
def joinDigits (afterDigit : Bool) : List Char → Option (List Char)
  | [] => some []
  | '_' :: rest =>
    match rest with
    | [] => none
    | c :: _ => if afterDigit && c.isDigit then joinDigits false rest else none
  | c :: rest => (joinDigits c.isDigit rest).map (c :: ·)

/-- The characters of a numeral in ASCII, without blanks and underscores. -/
def numeralChars (s : List Char) : Option (List Char) :=
  joinDigits false ((trimBy isNumeralBlank s).map plainDigit)

/-- Splits off the sign, `true` for a minus. -/
def splitSign : List Char → Bool × List Char
  | '-' :: rest => (true, rest)
  | '+' :: rest => (false, rest)
  | s => (false, s)

def valueOf (ds : List Char) : Nat :=
  ds.foldl (fun n d ↦ 10 * n + (d.toNat - 0x30)) 0

def readInteger (s : List Char) : Option Int := do
  let chars ← numeralChars s
  let (negative, ds) := splitSign chars
  if ds.isEmpty || !ds.all Char.isDigit || integerDigitLimit < ds.length then none
  else some (if negative then -(valueOf ds : Int) else valueOf ds)

/-- The number nearest to the value of digits without leading zeros, times `10 ^ scale`.  Values of
`10 ^ 400` and more are infinite, and those below `10 ^ -400` are zero. -/
def nearestBinary64 (negative : Bool) (ds : List Char) (scale : Int) : Binary64 :=
  if ds.isEmpty then .ofRank negative 0
  else if 400 < scale + ds.length then .infinite negative
  else if scale + ds.length < -400 then .ofRank negative 0
  else .ofQuotient negative (valueOf ds * tenPow scale.toNat) (tenPow (-scale).toNat)

def readExponent : List Char → Option Int
  | [] => some 0
  | c :: rest =>
    if c == 'e' || c == 'E' then
      let (negative, ds) := splitSign rest
      if ds.isEmpty || !ds.all Char.isDigit then none
      else some (if negative then -(valueOf ds : Int) else valueOf ds)
    else none

/-- An unsigned decimal: digits with an optional point among or around them, and an exponent. -/
def readMagnitude (negative : Bool) (s : List Char) : Option Binary64 := do
  let (whole, rest) := s.span Char.isDigit
  let (fraction, rest) :=
    match rest with
    | '.' :: more => more.span Char.isDigit
    | _ => ([], rest)
  if whole.isEmpty && fraction.isEmpty then none
  else
    let exponent ← readExponent rest
    let ds := (whole ++ fraction).dropWhile (· == '0')
    some (nearestBinary64 negative ds (exponent - fraction.length))

def infinityWords : List (List Char) :=
  [['i', 'n', 'f'], ['i', 'n', 'f', 'i', 'n', 'i', 't', 'y']]

def readDecimal (s : List Char) : Option Binary64 := do
  let chars ← numeralChars s
  let (negative, body) := splitSign chars
  let word := body.map Char.toLower
  if infinityWords.contains word then some (.infinite negative)
  else if word == ['n', 'a', 'n'] then some (.nan 0)
  else readMagnitude negative body

end BucketStats.Decimal

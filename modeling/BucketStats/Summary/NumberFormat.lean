import BucketStats.Decimal.Places
import BucketStats.Histogram.Observations
import BucketStats.Text.DecimalDigit
/-!
# Number formats

A number format is read from the text of a precision, which stands after a point.  Decimal digits
are a number of places, and nothing may follow them.  A text that begins with an alignment takes the
point for the filling of a field instead; it may go on with a sign, two marks, a width, a mark
between thousands, and a number of places after a point of its own.
-/

namespace BucketStats

/-- Where a number stands in a field that is wider than it. -/
inductive Alignment where
  | left
  | right
  | centre
  | afterSign
deriving DecidableEq

def Alignment.ofChar? (c : Char) : Option Alignment :=
  if c == '<' then some .left
  else if c == '>' then some .right
  else if c == '^' then some .centre
  else if c == '=' then some .afterSign
  else none

/-- A number format.  `plus` stands before numbers that are not negative, `unsignedZero` takes the
minus from what rounds to zero, and `keepPoint` ends a number without places in a point. -/
structure NumberFormat where
  alignment : Alignment
  plus : List Char
  unsignedZero : Bool
  keepPoint : Bool
  width : Nat
  separator : Option Char
  places : Nat
deriving DecidableEq

namespace NumberFormat

/-- A number of places and nothing else. -/
def plain (places : Nat) : NumberFormat :=
  ⟨.right, [], false, false, 0, none, places⟩

/-- The most decimal places that a number is ever written with. -/
def placesLimit : Nat :=
  twoPow 31

/-- Numbers within a format are read below this. -/
def readableLimit : Nat :=
  twoPow 63

def defaultPlaces : Nat :=
  6

/-! ## Reading -/

def digitsValue (s : List Char) : Nat :=
  s.foldl (fun n c ↦ 10 * n + (Text.digitValue? c).getD 0) 0

/-- Splits off the number that a text begins with, if it begins with one. -/
def splitNumber (s : List Char) : Except Fault (Option Nat × List Char) :=
  let (ds, rest) := s.span fun c ↦ (Text.digitValue? c).isSome
  if ds.isEmpty then .ok (none, rest)
  else if readableLimit ≤ digitsValue ds then .error .precisionTooLong
  else .ok (some (digitsValue ds), rest)

def splitPlus : List Char → List Char × List Char
  | '+' :: rest => (['+'], rest)
  | ' ' :: rest => ([' '], rest)
  | '-' :: rest => ([], rest)
  | s => ([], s)

def splitMark (mark : Char) : List Char → Bool × List Char
  | [] => (false, [])
  | c :: rest => if c == mark then (true, rest) else (false, c :: rest)

def splitSeparator : List Char → Except Fault (Option Char × List Char)
  | ',' :: '_' :: _ => .error .bothSeparators
  | '_' :: ',' :: _ => .error .bothSeparators
  | ',' :: rest => .ok (some ',', rest)
  | '_' :: rest => .ok (some '_', rest)
  | s => .ok (none, s)

/-- A number of places, which a point must have. -/
def splitPlaces (s : List Char) : Except Fault (Nat × List Char) := do
  match ← splitNumber s with
  | (some places, rest) => .ok (places, rest)
  | (none, _) => .error .missingPrecision

def splitPointedPlaces : List Char → Except Fault (Nat × List Char)
  | '.' :: rest => splitPlaces rest
  | s => .ok (defaultPlaces, s)

/-- Reads what follows an alignment. -/
def splitField (alignment : Alignment) (s : List Char) :
    Except Fault (NumberFormat × List Char) := do
  let (plus, s) := splitPlus s
  let (unsignedZero, s) := splitMark 'z' s
  let (keepPoint, s) := splitMark '#' s
  let (width, s) ← splitNumber s
  let (separator, s) ← splitSeparator s
  let (places, s) ← splitPointedPlaces s
  .ok (⟨alignment, plus, unsignedZero, keepPoint, width.getD 0, separator, places⟩, s)

/-- Splits off the format that the text of a precision begins with. -/
def split (s : List Char) : Except Fault (NumberFormat × List Char) :=
  match s.head?.bind Alignment.ofChar? with
  | some alignment => splitField alignment s.tail
  | none => do
    let (places, rest) ← splitPlaces s
    .ok (plain places, rest)

/-- The format that a precision asks for on a value of some kind. -/
def ofPrecision (kind : Kind) (precision : String) : Except Fault NumberFormat := do
  let (format, rest) ← split precision.toList
  if rest.isEmpty then .ok format
  else .error (.invalidFormat ("." ++ precision ++ "f") kind)

/-! ## Writing -/

/-- Puts a mark before each group of three digits, counted from the end. -/
def groupThousands (separator : Char) (ds : List Char) : List Char :=
  if ds.length ≤ 3 then ds
  else
    groupThousands separator (ds.take (ds.length - 3)) ++ separator :: ds.drop (ds.length - 3)
termination_by ds.length
decreasing_by
  rw [List.length_take]
  omega

/-- A magnitude with the format's places, marks between thousands, and point. -/
def magnitude (f : NumberFormat) (rank : Nat) : List Char :=
  let digits := Decimal.fixedMagnitude f.places rank
  let whole := digits.takeWhile Char.isDigit
  let fraction := digits.dropWhile Char.isDigit
  let grouped := match f.separator with
    | some separator => groupThousands separator whole
    | none => whole
  grouped ++ fraction ++ if f.keepPoint && fraction.isEmpty then ['.'] else []

/-- Whether a magnitude rounds to zero at the format's places. -/
def roundsToZero (f : NumberFormat) (rank : Nat) : Bool :=
  (Decimal.fixedMagnitude f.places rank).all fun c ↦ c == '0' || c == '.'

/-- Fills a field with points around a sign and what follows it. -/
def fill (f : NumberFormat) (sign body : List Char) : List Char :=
  let filling := List.replicate (f.width - (sign.length + body.length)) '.'
  match f.alignment with
  | .left => sign ++ body ++ filling
  | .right => filling ++ (sign ++ body)
  | .centre => filling.take (filling.length / 2) ++ (sign ++ body) ++
      filling.drop (filling.length / 2)
  | .afterSign => sign ++ filling ++ body

def fillSigned (f : NumberFormat) (negative : Bool) (body : List Char) : List Char :=
  f.fill (if negative then ['-'] else f.plus) body

def write (f : NumberFormat) : Binary64 → List Char
  | .finite x =>
    f.fillSigned (x.negative && !(f.unsignedZero && f.roundsToZero x.rank)) (f.magnitude x.rank)
  | .infinite negative => f.fillSigned negative ['i', 'n', 'f']
  | .nan _ => f.fillSigned false ['n', 'a', 'n']

@[simp]
theorem magnitude_plain (places rank : Nat) :
    (plain places).magnitude rank = Decimal.fixedMagnitude places rank := by
  simp [magnitude, plain]

@[simp]
theorem fillSigned_plain (places : Nat) (negative : Bool) (body : List Char) :
    (plain places).fillSigned negative body = Decimal.signed negative body := by
  cases negative <;> simp [fillSigned, fill, plain, Decimal.signed]

/-- A number of places alone writes the number rounded to it. -/
@[simp]
theorem write_plain (places : Nat) (x : Binary64) :
    (plain places).write x = Decimal.writeFixed places x := by
  cases x with
  | finite x =>
    have hsign : (x.negative &&
        !((plain places).unsignedZero && (plain places).roundsToZero x.rank)) = x.negative := by
      simp [plain]
    simp only [write, hsign, magnitude_plain, fillSigned_plain]
    rfl
  | infinite negative => simp [write, Decimal.writeFixed, Decimal.writeWith]
  | nan _ => simp [write, Decimal.writeFixed, Decimal.writeWith, Decimal.signed]

/-- The text of a number in a format.  Too many places, and fields that no memory holds, are refused. -/
def text (f : NumberFormat) (x : Binary64) : Except Fault String :=
  if placesLimit ≤ f.places then .error .precisionTooBig
  else if Histogram.memoryLimit ≤ f.width then .error .outOfMemory
  else .ok (String.ofList (f.write x))

end NumberFormat

end BucketStats

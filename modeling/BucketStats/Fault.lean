import BucketStats.Value.Basic
/-!
# Faults

What can go wrong, by cause, with the one wording of each.  A cause carries what its message names;
texts that stand for a value are already in the form in which values are shown.
-/

namespace BucketStats

inductive Fault where
  | missingCounts
  | countNotInteger (index : Nat) (shown : String)
  | negativeCount (index : Nat) (shown : String)
  | observationNotInteger (position : Nat) (shown : String)
  | negativeObservation (position : Nat) (shown : String)
  | noObservations (buckets : Nat)
  | notIterable (kind : Kind)
  | noItems (kind : Kind)
  | textAsIndex (kind : Kind)
  | noSize (kind : Kind)
  | notNumeric (kind : Kind)
  | noFormat (kind : Kind)
  | notHashable (kind : Kind)
  | notComparable (relation : String) (left right : Kind)
  | noAttribute (kind : Kind) (name : String)
  | fractionalRepeat
  | tooManyDigits
  | notDecimal (shown : String)
  | missingPrecision
  | precisionTooLong
  | precisionTooBig
  | bothSeparators
  | invalidFormat (format : String) (kind : Kind)
  | unknownFormat (code : String) (kind : Kind)
  | notDivisible (left right : Kind)
  | divisionByZero
  | divisionByFloatZero
  | quotientTooLarge
  | integerTooLarge
  | indexTooLarge
  | outOfMemory
  | missingKey (shown : String)
  | frozenField (shown : String)
  | notCell (shown : String)
  | columnTooFar (column : Nat)
  | illegalCharacter (text : String)
  | fileNotFound (shown : String)
  | isDirectory (shown : String)
  | notDirectory (shown : String)
  | nameTooLong (shown : String)
  | zeroCharacterInPath
deriving DecidableEq

namespace Fault

/-- The family of a fault, by which a caller decides what to do about it. -/
inductive Family where
  | invalidInput
  | emptyDistribution
  | kind
  | value
  | overflow
  | division
  | memory
  | key
  | member
  | frozen
  | character
  | fileNotFound
  | isDirectory
  | notDirectory
  | system
deriving DecidableEq

def family : Fault → Family
  | .missingCounts => .invalidInput
  | .countNotInteger .. => .invalidInput
  | .negativeCount .. => .invalidInput
  | .observationNotInteger .. => .invalidInput
  | .negativeObservation .. => .invalidInput
  | .noObservations _ => .emptyDistribution
  | .notIterable _ => .kind
  | .noItems _ => .kind
  | .textAsIndex _ => .kind
  | .noSize _ => .kind
  | .notNumeric _ => .kind
  | .noFormat _ => .kind
  | .notHashable _ => .kind
  | .notComparable .. => .kind
  | .noAttribute .. => .member
  | .fractionalRepeat => .kind
  | .tooManyDigits => .value
  | .notDecimal _ => .value
  | .missingPrecision => .value
  | .precisionTooLong => .value
  | .precisionTooBig => .value
  | .bothSeparators => .value
  | .invalidFormat .. => .value
  | .unknownFormat .. => .value
  | .notDivisible .. => .kind
  | .divisionByZero => .division
  | .divisionByFloatZero => .division
  | .quotientTooLarge => .overflow
  | .integerTooLarge => .overflow
  | .indexTooLarge => .overflow
  | .outOfMemory => .memory
  | .missingKey _ => .key
  | .frozenField _ => .frozen
  | .notCell _ => .value
  | .columnTooFar _ => .value
  | .illegalCharacter _ => .character
  | .fileNotFound _ => .fileNotFound
  | .isDirectory _ => .isDirectory
  | .notDirectory _ => .notDirectory
  | .nameTooLong _ => .system
  | .zeroCharacterInPath => .value

def message : Fault → String
  | .missingCounts => "counts must be a sequence, got None"
  | .countNotInteger index shown => s!"count at index {index} is not an integer: {shown}"
  | .negativeCount index shown => s!"count at index {index} is negative: {shown}"
  | .observationNotInteger position shown =>
    s!"observation at position {position} is not an integer: {shown}"
  | .negativeObservation position shown =>
    s!"observation at position {position} is negative: {shown}"
  | .noObservations buckets => s!"no observations in {buckets} bucket(s)"
  | .notIterable kind => s!"'{kind.name}' object is not iterable"
  | .noItems kind => s!"'{kind.name}' object is not subscriptable"
  | .textAsIndex kind =>
    if kind = .text then "string indices must be integers, not 'str'"
    else s!"{kind.name} indices must be integers or slices, not str"
  | .noSize kind => s!"object of type '{kind.name}' has no len()"
  | .notNumeric kind => s!"float() argument must be a string or a real number, not '{kind.name}'"
  | .noFormat kind => s!"unsupported format string passed to {kind.name}.__format__"
  | .notHashable kind => s!"unhashable type: '{kind.name}'"
  | .notComparable relation left right =>
    s!"'{relation}' not supported between instances of '{left.name}' and '{right.name}'"
  | .noAttribute kind name => s!"'{kind.name}' object has no attribute '{name}'"
  | .fractionalRepeat => "can't multiply sequence by non-int of type 'float'"
  | .tooManyDigits =>
    "Exceeds the limit (4300 digits) for integer string conversion; " ++
      "use sys.set_int_max_str_digits() to increase the limit"
  | .notDecimal shown => s!"could not convert string to float: {shown}"
  | .missingPrecision => "Format specifier missing precision"
  | .precisionTooLong => "Too many decimal digits in format string"
  | .precisionTooBig => "precision too big"
  | .bothSeparators => "Cannot specify both ',' and '_'."
  | .invalidFormat format kind =>
    s!"Invalid format specifier '{format}' for object of type '{kind.name}'"
  | .unknownFormat code kind =>
    s!"Unknown format code '{code}' for object of type '{kind.name}'"
  | .notDivisible left right =>
    s!"unsupported operand type(s) for /: '{left.name}' and '{right.name}'"
  | .divisionByZero => "division by zero"
  | .divisionByFloatZero => "float division by zero"
  | .quotientTooLarge => "integer division result too large for a float"
  | .integerTooLarge => "int too large to convert to float"
  | .indexTooLarge => "cannot fit 'int' into an index-sized integer"
  | .outOfMemory => ""
  | .missingKey shown => shown
  | .frozenField shown => s!"cannot assign to field {shown}"
  | .notCell shown => s!"Cannot convert {shown} to Excel"
  | .columnTooFar column => s!"Invalid column index {column}"
  | .illegalCharacter text => s!"{text} cannot be used in worksheets."
  | .fileNotFound shown => s!"[Errno 2] No such file or directory: {shown}"
  | .isDirectory shown => s!"[Errno 21] Is a directory: {shown}"
  | .notDirectory shown => s!"[Errno 20] Not a directory: {shown}"
  | .nameTooLong shown => s!"[Errno 36] File name too long: {shown}"
  | .zeroCharacterInPath => "embedded null byte"

end Fault

end BucketStats

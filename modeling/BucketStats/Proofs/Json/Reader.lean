import BucketStats.Decimal.Numeral
import BucketStats.Entries
import BucketStats.Text.Quoted
/-!
# Reading JSON

What a JSON text says, whoever wrote it.  Blanks may stand around all parts.  A text is a sequence of
UTF-16 code units, in which a high and a low surrogate together are one character; a surrogate by
itself is refused.  A numeral without fraction and exponent is an integer of any size, and any other
is read as the binary64 number nearest to its value.  A later field of an object replaces an earlier
one of the same key and takes its place.
-/

namespace BucketStats

/-- What a JSON text says. -/
inductive Document where
  | null
  | truth (b : Bool)
  | integer (n : Int)
  | number (x : Binary64)
  | text (s : String)
  | array (items : List Document)
  | object (fields : List (String × Document))

namespace Document

open Text

def isSpace (c : Char) : Bool :=
  [' ', '\t', '\n', '\r'].contains c

def skip (s : List Char) : List Char :=
  s.dropWhile isSpace

/-! ## Texts -/

def hexDigit? (c : Char) : Option Nat :=
  if c.isDigit then some (c.toNat - 0x30)
  else if 0x61 ≤ c.toNat && c.toNat ≤ 0x66 then some (c.toNat - 0x57)
  else if 0x41 ≤ c.toNat && c.toNat ≤ 0x46 then some (c.toNat - 0x37)
  else none

def hexValue? (ds : List Char) : Option Nat :=
  ds.foldlM (fun n d ↦ (hexDigit? d).map (16 * n + ·)) 0

/-- The code unit that a letter or a mark after a backslash stands for. -/
def escaped? (c : Char) : Option Nat :=
  if c == doubleQuote || c == '\\' || c == '/' then some c.toNat
  else
    match c with
    | 'b' => some 0x8
    | 'f' => some 0xc
    | 'n' => some 0xa
    | 'r' => some 0xd
    | 't' => some 0x9
    | _ => none

/-- The UTF-16 code units of a character. -/
def utf16 (c : Char) : List Nat :=
  if c.toNat < 0x10000 then [c.toNat]
  else
    let offset := c.toNat - 0x10000
    [0xd800 + offset / 0x400, 0xdc00 + offset % 0x400]

/-- The code units up to the closing quote, and what comes after it. -/
def readUnits : List Char → Option (List Nat × List Char)
  | [] => none
  | '\\' :: 'u' :: a :: b :: c :: d :: rest => do
    let unit ← hexValue? [a, b, c, d]
    let (units, rest) ← readUnits rest
    some (unit :: units, rest)
  | '\\' :: c :: rest => do
    let unit ← escaped? c
    let (units, rest) ← readUnits rest
    some (unit :: units, rest)
  | c :: rest =>
    if c == doubleQuote then some ([], rest)
    else if c.toNat < 0x20 then none
    else do
      let (units, rest) ← readUnits rest
      some (utf16 c ++ units, rest)

/-- The characters of code units. -/
def ofUtf16 : List Nat → Option (List Char)
  | [] => some []
  | high :: rest =>
    if high < 0xd800 || 0xe000 ≤ high then (ofUtf16 rest).map (Char.ofNat high :: ·)
    else
      match rest with
      | [] => none
      | low :: rest =>
        if high < 0xdc00 && 0xdc00 ≤ low && low < 0xe000 then
          (ofUtf16 rest).map
            (Char.ofNat (0x10000 + (high - 0xd800) * 0x400 + (low - 0xdc00)) :: ·)
        else none

/-- A text up to the closing quote, and what comes after it. -/
def readText (s : List Char) : Option (String × List Char) := do
  let (units, rest) ← readUnits s
  let chars ← ofUtf16 units
  some (String.ofList chars, rest)

/-! ## Words and numerals -/

def words : List (List Char × Document) :=
  [(['n', 'u', 'l', 'l'], .null), (['t', 'r', 'u', 'e'], .truth true),
    (['f', 'a', 'l', 's', 'e'], .truth false)]

def readWord (s : List Char) : Option (Document × List Char) :=
  words.findSome? fun e ↦ if e.1.isPrefixOf s then some (e.2, s.drop e.1.length) else none

def isNumeralChar (c : Char) : Bool :=
  c.isDigit || ['-', '+', '.', 'e', 'E'].contains c

/-- Whether a point at the beginning has a digit after it. -/
def isPointed : List Char → Bool
  | '.' :: rest => rest.head?.any Char.isDigit
  | _ => true

/-- Splits off a minus sign. -/
def splitMinus : List Char → Bool × List Char
  | '-' :: rest => (true, rest)
  | s => (false, s)

/-- A numeral has digits before its point, none of them a needless zero, and digits after it. -/
def readNumeral (s : List Char) : Option Document :=
  let (negative, magnitude) := splitMinus s
  let (whole, rest) := magnitude.span Char.isDigit
  if whole.isEmpty || (whole.head? == some '0' && 1 < whole.length) || !isPointed rest then none
  else if rest.isEmpty then
    some (.integer (if negative then -(Decimal.valueOf whole : Int) else Decimal.valueOf whole))
  else (Decimal.readMagnitude negative magnitude).map .number

/-- A word or a numeral, and what comes after it. -/
def readBare (s : List Char) : Option (Document × List Char) :=
  match readWord s with
  | some found => some found
  | none =>
    (readNumeral (s.takeWhile isNumeralChar)).map fun numeral ↦ (numeral, s.dropWhile isNumeralChar)

/-! ## Documents -/

/-- The key of a field, and what comes after its colon. -/
def readKey (s : List Char) : Option (String × List Char) :=
  match skip s with
  | [] => none
  | c :: rest =>
    if c == doubleQuote then do
      let (key, rest) ← readText rest
      match skip rest with
      | ':' :: rest => some (key, rest)
      | _ => none
    else none

mutual

/-- A document, and what comes after it.  Each document, item and field uses up some fuel. -/
def readDocument : Nat → List Char → Option (Document × List Char)
  | 0, _ => none
  | fuel + 1, s =>
    match skip s with
    | [] => none
    | c :: rest =>
      if c == doubleQuote then do
        let (s, rest) ← readText rest
        some (.text s, rest)
      else if c == '[' then
        match skip rest with
        | ']' :: rest => some (.array [], rest)
        | _ => do
          let (items, rest) ← readItems fuel rest
          some (.array items, rest)
      else if c == '\x7b' then
        match skip rest with
        | '\x7d' :: rest => some (.object [], rest)
        | _ => do
          let (fields, rest) ← readFields fuel rest
          some (.object (Entries.ofList fields), rest)
      else readBare (c :: rest)

/-- The items up to the end of an array. -/
def readItems : Nat → List Char → Option (List Document × List Char)
  | 0, _ => none
  | fuel + 1, s => do
    let (item, rest) ← readDocument fuel s
    match skip rest with
    | ',' :: rest => do
      let (items, rest) ← readItems fuel rest
      some (item :: items, rest)
    | ']' :: rest => some ([item], rest)
    | _ => none

/-- The fields up to the end of an object. -/
def readFields : Nat → List Char → Option (List (String × Document) × List Char)
  | 0, _ => none
  | fuel + 1, s => do
    let (key, rest) ← readKey s
    let (value, rest) ← readDocument fuel rest
    match skip rest with
    | ',' :: rest => do
      let (fields, rest) ← readFields fuel rest
      some ((key, value) :: fields, rest)
    | '\x7d' :: rest => some ([(key, value)], rest)
    | _ => none

end

/-- What a JSON text says, if it is one.  Fuel for each of its characters is enough. -/
def read (s : String) : Option Document := do
  let (document, rest) ← readDocument s.length s.toList
  if (skip rest).isEmpty then some document else none

end Document

end BucketStats

import BucketStats.Settings.Basic
import BucketStats.Value.Access
/-!
# Numbers in settings

Numbers are read with good will: blanks around them and one layer of quotes do not matter, and what
is no number is no setting.  The words `nil` and `none` say so on purpose.
-/

namespace BucketStats.Settings

open Text

def absentWords : List (List Char) :=
  [['n', 'i', 'l'], ['n', 'o', 'n', 'e']]

def numberOfText (s : List Char) : Option Binary64 :=
  let trimmed := trim s
  if trimmed.isEmpty || absentWords.contains (trimmed.map Char.toLower) then none
  else Decimal.readDecimal (unquote trimmed)

/-- The numbers of a list with commas, in one layer of quotes or none.  Entries that are no numbers
are left out. -/
def numbersOfText (s : List Char) : List Binary64 :=
  (splitOn ',' (unquote (trim s))).filterMap numberOfText

def integerOfText (s : List Char) : Option Int :=
  (numberOfText s).bind Binary64.toInt?

/-- The number that the text of a value reads as; nothing reads as no number. -/
def numberOf : Value → Except Fault (Option Binary64)
  | .null => .ok none
  | v => do
    let s ← v.display
    .ok (numberOfText s.toList)

def integerOf (v : Value) : Except Fault (Option Int) := do
  let x ← numberOf v
  .ok (x.bind Binary64.toInt?)

def numbersOf (v : Value) : Except Fault (List Binary64) :=
  if v.isTrue then
    match v with
    | .text s => .ok (numbersOfText s.toList)
    | v => .error (.noAttribute v.kind "strip")
  else .ok []

def unquoted : Value → Except Fault Value
  | .text s => .ok (.text (String.ofList (unquote s.toList)))
  | v => .error (.noAttribute v.kind "startswith")

def integerUnder (key settings : Value) : Except Fault (Option Int) := do
  let v ← settings.getOr key .null
  integerOf v

def numbersUnder (key settings : Value) : Except Fault (List Binary64) := do
  let v ← settings.getOr key .null
  numbersOf v

end BucketStats.Settings

import BucketStats.Entries
import BucketStats.Text.Lines
import BucketStats.Text.Quoted
import BucketStats.Text.Utf8
/-!
# Settings files

A settings file has one entry a line: a key, an equals sign and a value, both trimmed.  The first
equals sign of a line divides it, so keys hold none and values may.  Lines whose first character
other than a blank is `#` are comments; lines without an equals sign, and lines that begin with one,
say nothing.  A later entry replaces the value of an equal key.
-/

namespace BucketStats

abbrev Settings := Entries String String

namespace Settings

open Text

def isComment (line : List Char) : Bool :=
  (line.dropWhile isBlank).head? == some '#'

/-- The entry that a line makes, if any. -/
def entryOf (line : List Char) : Option (String × String) :=
  if isComment line then none
  else
    match splitAtFirst '=' line with
    | some (before, after) =>
      if before.isEmpty then none
      else some (String.ofList (trim before), String.ofList (trim after))
    | none => none

def ofText (s : List Char) : Settings :=
  Entries.ofList ((lines s).filterMap entryOf)

/-- The settings of a file's bytes.  Bytes that are no text never stop a file from being read. -/
def ofBytes (bytes : List UInt8) : Settings :=
  ofText (decodeUtf8 bytes)

end Settings

end BucketStats

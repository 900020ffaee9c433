import BucketStats.Text.Quoted
/-!
# JSON strings in ASCII

A JSON string is written with ASCII characters alone: all other characters, and the controls, are
UTF-16 code units in escapes of four hexadecimal digits.
-/

namespace BucketStats.Text

def escapeUnit (n : Nat) : List Char :=
  '\\' :: 'u' :: hex 4 n

/-- The code units of a character above `U+FFFF` are a high and a low surrogate. -/
def escapeUnits (c : Char) : List Char :=
  if c.toNat < 0x10000 then escapeUnit c.toNat
  else
    let offset := c.toNat - 0x10000
    escapeUnit (0xd800 + offset / 0x400) ++ escapeUnit (0xdc00 + offset % 0x400)

def escapeJson (c : Char) : List Char :=
  if c == doubleQuote || c == '\\' then ['\\', c]
  else if c == '\n' then ['\\', 'n']
  else if c == '\r' then ['\\', 'r']
  else if c == '\t' then ['\\', 't']
  else if c.toNat == 0x8 then ['\\', 'b']
  else if c.toNat == 0xc then ['\\', 'f']
  else if 0x20 ≤ c.toNat && c.toNat < 0x7f then [c]
  else escapeUnits c

def jsonString (s : List Char) : List Char :=
  doubleQuote :: (s.flatMap escapeJson ++ [doubleQuote])

end BucketStats.Text

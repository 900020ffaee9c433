import BucketStats.Text.Blank
import BucketStats.Text.Printable
/-!
# Quoted texts

How a text is shown within a message: in single quotes, or in double quotes if it holds single
quotes and no double ones.  The backslash, the quote in use and all characters that are not
printable are escaped.
-/

namespace BucketStats.Text

/-- The lower-case hexadecimal digits of a number, filled with zeros to a width. -/
def hex (width n : Nat) : List Char :=
  let ds := Nat.toDigits 16 n
  List.replicate (width - ds.length) '0' ++ ds

def escapeUnprintable (c : Char) : List Char :=
  if c.toNat < 0x100 then '\\' :: 'x' :: hex 2 c.toNat
  else if c.toNat < 0x10000 then '\\' :: 'u' :: hex 4 c.toNat
  else '\\' :: 'U' :: hex 8 c.toNat

def escapeQuoted (quote c : Char) : List Char :=
  if c == quote || c == '\\' then ['\\', c]
  else if c == '\n' then ['\\', 'n']
  else if c == '\r' then ['\\', 'r']
  else if c == '\t' then ['\\', 't']
  else if isPrintable c then [c]
  else escapeUnprintable c

def singleQuote : Char :=
  Char.ofNat 0x27

def doubleQuote : Char :=
  Char.ofNat 0x22

def quoteFor (s : List Char) : Char :=
  if s.contains singleQuote && !s.contains doubleQuote then doubleQuote else singleQuote

def quoted (s : List Char) : List Char :=
  let quote := quoteFor s
  quote :: (s.flatMap (escapeQuoted quote) ++ [quote])

/-- Whether a text begins and ends with a character; one character may be both ends. -/
def isEnclosedBy (quote : Char) (s : List Char) : Bool :=
  s.head? == some quote && s.getLast? == some quote

/-- Removes one layer of matching quotes, and the blanks within them. -/
def unquote (s : List Char) : List Char :=
  if isEnclosedBy doubleQuote s || isEnclosedBy singleQuote s then trim s.tail.dropLast else s

end BucketStats.Text

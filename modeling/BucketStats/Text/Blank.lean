/-!
# Blank characters

Two sets of blanks matter.  Lines and values of settings are trimmed of all white space, the
information separators `U+001C` to `U+001F` among it.  Numerals are trimmed of the same set without
those four.
-/

namespace BucketStats.Text

/-- White space outside ASCII. -/
def isWideBlank (c : Char) : Bool :=
  let n := c.toNat
  n == 0x85 || n == 0xa0 || n == 0x1680 || (0x2000 ≤ n && n ≤ 0x200a) || n == 0x2028 ||
    n == 0x2029 || n == 0x202f || n == 0x205f || n == 0x3000

/-- White space that may surround a numeral. -/
def isNumeralBlank (c : Char) : Bool :=
  (0x9 ≤ c.toNat && c.toNat ≤ 0xd) || c.toNat == 0x20 || isWideBlank c

/-- White space. -/
def isBlank (c : Char) : Bool :=
  (0x1c ≤ c.toNat && c.toNat ≤ 0x1f) || isNumeralBlank c

/-- Removes the characters of a class from both ends. -/
def trimBy (p : Char → Bool) (s : List Char) : List Char :=
  ((s.dropWhile p).reverse.dropWhile p).reverse

def trim (s : List Char) : List Char :=
  trimBy isBlank s

@[simp]
theorem trim_nil : trim [] = [] := rfl

end BucketStats.Text

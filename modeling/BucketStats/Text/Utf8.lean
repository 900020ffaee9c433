/-!
# Decoding UTF-8 with replacement

Every byte string decodes.  Where bytes are no UTF-8, the longest stretch that could still have
become a character is replaced by one `U+FFFD`, and decoding goes on with the byte that broke it.

The decoder reads one byte at a time and keeps what the character in progress still needs, so what
it does after an ASCII byte depends on nothing before it.
-/

namespace BucketStats.Text

def replacement : Char :=
  '\uFFFD'

/-- What a started character waits for: how many bytes, between which values the next one lies, and
the bits read so far. -/
structure Pending where
  missing : Nat
  low : Nat
  high : Nat
  bits : Nat
deriving DecidableEq

/-- What a byte starts between characters: a whole character, a longer one, or nothing valid. -/
inductive Start where
  | whole (c : Char)
  | longer (p : Pending)
  | invalid
deriving DecidableEq

/-- Overlong forms, surrogates and values past `U+10FFFF` are excluded by the range of the second
byte. -/
def startOf (b : Nat) : Start :=
  if b < 0x80 then .whole (Char.ofNat b)
  else if b < 0xc2 then .invalid
  else if b < 0xe0 then .longer ⟨1, 0x80, 0xbf, b - 0xc0⟩
  else if b = 0xe0 then .longer ⟨2, 0xa0, 0xbf, 0⟩
  else if b = 0xed then .longer ⟨2, 0x80, 0x9f, 0xd⟩
  else if b < 0xf0 then .longer ⟨2, 0x80, 0xbf, b - 0xe0⟩
  else if b = 0xf0 then .longer ⟨3, 0x90, 0xbf, 0⟩
  else if b < 0xf4 then .longer ⟨3, 0x80, 0xbf, b - 0xf0⟩
  else if b = 0xf4 then .longer ⟨3, 0x80, 0x8f, 4⟩
  else .invalid

/-- Decodes from between characters (`none`) or within one. -/
def decodeFrom : Option Pending → List UInt8 → List Char
  | none, [] => []
  | some _, [] => [replacement]
  | none, byte :: rest =>
    match startOf byte.toNat with
    | .whole c => c :: decodeFrom none rest
    | .longer p => decodeFrom (some p) rest
    | .invalid => replacement :: decodeFrom none rest
  | some p, byte :: rest =>
    if p.low ≤ byte.toNat ∧ byte.toNat ≤ p.high then
      let bits := p.bits * 64 + (byte.toNat - 0x80)
      if p.missing ≤ 1 then Char.ofNat bits :: decodeFrom none rest
      else decodeFrom (some ⟨p.missing - 1, 0x80, 0xbf, bits⟩) rest
    else
      match startOf byte.toNat with
      | .whole c => replacement :: c :: decodeFrom none rest
      | .longer q => replacement :: decodeFrom (some q) rest
      | .invalid => replacement :: replacement :: decodeFrom none rest

def decodeUtf8 (bytes : List UInt8) : List Char :=
  decodeFrom none bytes

/-- An ASCII byte between characters stands for itself. -/
theorem decodeFrom_none_ascii {byte : UInt8} (hbyte : byte.toNat < 0x80) (rest : List UInt8) :
    decodeFrom none (byte :: rest) = Char.ofNat byte.toNat :: decodeFrom none rest := by
  simp [decodeFrom, startOf, hbyte]

/-- An ASCII byte within a character breaks it off. -/
theorem decodeFrom_some_ascii {p : Pending} {byte : UInt8} (hlow : 0x80 ≤ p.low)
    (hbyte : byte.toNat < 0x80) (rest : List UInt8) :
    decodeFrom (some p) (byte :: rest) =
      replacement :: Char.ofNat byte.toNat :: decodeFrom none rest := by
  have hout : ¬(p.low ≤ byte.toNat ∧ byte.toNat ≤ p.high) := by omega
  simp [decodeFrom, startOf, hbyte, hout]

end BucketStats.Text

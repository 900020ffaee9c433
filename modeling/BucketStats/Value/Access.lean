import BucketStats.Value.Quotient
/-!
# Reading values

What a value holds, asked for in the way of its kind: its items, its size, the value under a key, or
the number that it is.
-/

namespace BucketStats.Value

/-- The items of a sequence, the characters of a text, or the keys of a dictionary. -/
def items : Value → Except Fault (List Value)
  | .list xs => .ok xs
  | .tuple xs => .ok xs
  | .stream xs => .ok xs
  | .text s => .ok (s.toList.map fun c ↦ .text (String.singleton c))
  | .dict entries => .ok (entries.map (·.1))
  | v => .error (.notIterable v.kind)

def size : Value → Except Fault Nat
  | .list xs => .ok xs.length
  | .tuple xs => .ok xs.length
  | .text s => .ok s.length
  | .dict entries => .ok entries.length
  | v => .error (.noSize v.kind)

def findEntry (k : Value) (entries : List (Value × Value)) : Option Value :=
  (entries.find? fun e ↦ sameKey e.1 k).map (·.2)

/-- The value that a dictionary holds under a text key. -/
def item (key : String) : Value → Except Fault Value
  | .dict entries =>
    match findEntry (.text key) entries with
    | some v => .ok v
    | none => .error (.missingKey (quotedText key))
  | .list _ => .error (.textAsIndex .list)
  | .tuple _ => .error (.textAsIndex .tuple)
  | .text _ => .error (.textAsIndex .text)
  | v => .error (.noItems v.kind)

mutual

/-- The first part of a value that cannot be looked up as a key. -/
def unhashable? : Value → Option Kind
  | .list _ => some .list
  | .dict _ => some .dict
  | .tuple xs => unhashableItem? xs
  | .weightedMean count sum => (unhashable? count).or (unhashable? sum)
  | _ => none

def unhashableItem? : List Value → Option Kind
  | [] => none
  | v :: rest => (unhashable? v).or (unhashableItem? rest)

end

/-- The value that a dictionary holds under a key, or a given one if it holds none. -/
def getOr (v key otherwise : Value) : Except Fault Value :=
  match v with
  | .dict entries =>
    match unhashable? key with
    | some kind => .error (.notHashable kind)
    | none => .ok ((findEntry key entries).getD otherwise)
  | _ => .error (.noAttribute v.kind "get")

/-- The number that a value is or that its text reads as. -/
def toBinary64 : Value → Except Fault Binary64
  | .float x => .ok x
  | .int n => binary64OfInt n
  | .bool b => binary64OfInt (if b then 1 else 0)
  | .text s =>
    match Decimal.readDecimal s.toList with
    | some x => .ok x
    | none => .error (.notDecimal (quotedText s))
  | v => .error (.notNumeric v.kind)

end BucketStats.Value

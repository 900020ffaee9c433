import BucketStats.Json
import BucketStats.Proofs.Decimal.Integers
import BucketStats.Proofs.Transcript
/-!
# Documents that can be written

A document is written exactly if none of the integers in it has too many digits.
-/

namespace BucketStats.Json

open Decimal

mutual

/-- The integers in a document. -/
def integers : Json → List Int
  | .text _ => []
  | .integer n => [n]
  | .number _ => []
  | .object fields => fieldIntegers fields

def fieldIntegers : List (String × Json) → List Int
  | [] => []
  | (_, value) :: rest => integers value ++ fieldIntegers rest

end

theorem fieldIntegers_append (fields fields' : List (String × Json)) :
    fieldIntegers (fields ++ fields') = fieldIntegers fields ++ fieldIntegers fields' := by
  induction fields with
  | nil => rfl
  | cons field rest ih =>
    obtain ⟨key, value⟩ := field
    rw [List.cons_append, fieldIntegers, fieldIntegers, ih, List.append_assoc]

theorem fieldIntegers_map_integer (entries : List (String × Nat)) :
    fieldIntegers (entries.map fun e ↦ (e.1, .integer e.2)) = entries.map fun e ↦ (e.2 : Int) := by
  induction entries with
  | nil => rfl
  | cons e rest ih =>
    rw [List.map_cons, fieldIntegers, ih]
    rfl

mutual

theorem exists_write_iff (depth : Nat) :
    (document : Json) →
      ((∃ text, document.write depth = .ok text) ↔ ∀ n ∈ document.integers, WithinLimit n)
  | .text s => by simp [write, integers]
  | .integer n => by simp [write, integers, integerText_eq_ok_iff]
  | .number x => by simp [write, integers]
  | .object fields => by
    rw [integers, ← exists_writeFields_iff (depth + 1) fields, write]
    exact exists_bind_ok_iff

theorem exists_writeFields_iff (depth : Nat) :
    (fields : List (String × Json)) →
      ((∃ parts, writeFields depth fields = .ok parts) ↔
        ∀ n ∈ fieldIntegers fields, WithinLimit n)
  | [] => by simp [writeFields, fieldIntegers]
  | (key, value) :: rest => by
    rw [fieldIntegers, List.forall_mem_append, ← exists_write_iff depth value,
      ← exists_writeFields_iff depth rest, writeFields]
    exact exists_bind_bind_ok_iff

end

end BucketStats.Json

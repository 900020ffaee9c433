import BucketStats.Value.Printer
import BucketStats.Proofs.Decimal.Integers
import BucketStats.Proofs.Transcript
/-!
# Values that can be shown

A value is shown by its literal exactly if none of the integers that the literal writes has too many
digits.
-/

namespace BucketStats.Value

open Decimal

mutual

/-- The integers that the literal of a value writes.  A stream does not show its items. -/
def integers : Value → List Int
  | .null => []
  | .bool _ => []
  | .int n => [n]
  | .float _ => []
  | .text _ => []
  | .list items => itemIntegers items
  | .tuple items => itemIntegers items
  | .stream _ => []
  | .dict entries => entryIntegers entries
  | .weightedMean count sum => integers count ++ integers sum

def itemIntegers : List Value → List Int
  | [] => []
  | v :: rest => integers v ++ itemIntegers rest

def entryIntegers : List (Value × Value) → List Int
  | [] => []
  | (k, v) :: rest => integers k ++ integers v ++ entryIntegers rest

end

/-- Whether a value can be shown in a message. -/
def IsShowable (v : Value) : Prop :=
  ∀ n ∈ v.integers, WithinLimit n

instance (v : Value) : Decidable v.IsShowable :=
  inferInstanceAs (Decidable (∀ n ∈ v.integers, WithinLimit n))

mutual

theorem exists_literal_iff :
    (v : Value) → ((∃ shown, v.literal = .ok shown) ↔ ∀ n ∈ v.integers, WithinLimit n)
  | .null => by simp [literal, integers]
  | .bool b => by simp [literal, integers]
  | .int n => by simp [literal, integers, integerText_eq_ok_iff]
  | .float x => by simp [literal, integers]
  | .text s => by simp [literal, integers]
  | .list items => by
    rw [integers, ← exists_literals_iff items, literal]
    exact exists_bind_ok_iff
  | .tuple items => by
    rw [integers, ← exists_literals_iff items, literal]
    exact exists_bind_ok_iff
  | .stream items => by simp [literal, integers]
  | .dict entries => by
    rw [integers, ← exists_entryLiterals_iff entries, literal]
    exact exists_bind_ok_iff
  | .weightedMean count sum => by
    rw [integers, List.forall_mem_append, ← exists_literal_iff count, ← exists_literal_iff sum,
      literal]
    exact exists_bind_bind_ok_iff

theorem exists_literals_iff :
    (items : List Value) →
      ((∃ parts, literals items = .ok parts) ↔ ∀ n ∈ itemIntegers items, WithinLimit n)
  | [] => by simp [literals, itemIntegers]
  | v :: rest => by
    rw [itemIntegers, List.forall_mem_append, ← exists_literal_iff v, ← exists_literals_iff rest,
      literals]
    exact exists_bind_bind_ok_iff

theorem exists_entryLiterals_iff :
    (entries : List (Value × Value)) →
      ((∃ parts, entryLiterals entries = .ok parts) ↔ ∀ n ∈ entryIntegers entries, WithinLimit n)
  | [] => by simp [entryLiterals, entryIntegers]
  | (k, v) :: rest => by
    rw [entryIntegers, List.forall_mem_append, List.forall_mem_append, and_assoc,
      ← exists_literal_iff k, ← exists_literal_iff v, ← exists_entryLiterals_iff rest, entryLiterals]
    exact exists_bind_eq_ok_iff fun _ ↦ exists_bind_bind_ok_iff

end

/-- A value that can be shown has a literal. -/
theorem IsShowable.exists_literal {v : Value} (h : v.IsShowable) :
    ∃ shown, v.literal = .ok shown :=
  (exists_literal_iff v).2 h

end BucketStats.Value

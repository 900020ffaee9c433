/-!
# Ordered entries

Entries are pairs in the order in which their keys first came.  Putting an entry under a key that is
there replaces the value and keeps the place.
-/

namespace BucketStats

abbrev Entries (κ ν : Type) := List (κ × ν)

namespace Entries

variable {κ ν : Type}

/-- Puts a value under a key, where `same` decides which keys are equal. -/
def putBy (same : κ → κ → Bool) (k : κ) (v : ν) : Entries κ ν → Entries κ ν
  | [] => [(k, v)]
  | (k', v') :: rest => if same k' k then (k', v) :: rest else (k', v') :: putBy same k v rest

def put [BEq κ] (k : κ) (v : ν) (entries : Entries κ ν) : Entries κ ν :=
  entries.putBy (· == ·) k v

/-- Puts all entries of a list, one after the other. -/
def putAll [BEq κ] (entries more : Entries κ ν) : Entries κ ν :=
  more.foldl (fun acc e ↦ acc.put e.1 e.2) entries

def ofList [BEq κ] (pairs : List (κ × ν)) : Entries κ ν :=
  putAll [] pairs

def find? [BEq κ] (k : κ) (entries : Entries κ ν) : Option ν :=
  (List.find? (fun e ↦ e.1 == k) entries).map (·.2)

@[simp]
theorem put_nil [BEq κ] (k : κ) (v : ν) : put k v [] = [(k, v)] := rfl

theorem putAll_append [BEq κ] (entries first second : Entries κ ν) :
    entries.putAll (first ++ second) = (entries.putAll first).putAll second :=
  List.foldl_append

theorem find?_put_self [BEq κ] [LawfulBEq κ] (k : κ) (v : ν) (entries : Entries κ ν) :
    (entries.put k v).find? k = some v := by
  induction entries with
  | nil => simp [find?]
  | cons e rest ih =>
    obtain ⟨k', v'⟩ := e
    by_cases hk : k' = k
    · simp [put, putBy, find?, hk]
    · simpa [put, putBy, find?, hk] using ih

theorem find?_put_of_ne [BEq κ] [LawfulBEq κ] {k k' : κ} (hk : k' ≠ k) (v : ν)
    (entries : Entries κ ν) : (entries.put k v).find? k' = entries.find? k' := by
  induction entries with
  | nil => simp [find?, Ne.symm hk]
  | cons e rest ih =>
    obtain ⟨k₀, v₀⟩ := e
    by_cases hput : k₀ = k
    · subst hput
      simp [put, putBy, find?, Ne.symm hk]
    · by_cases hfind : k₀ = k'
      · simp [put, putBy, find?, hfind, hk]
      · simpa [put, putBy, find?, hput, hfind] using ih

/-- A new key comes last. -/
theorem put_eq_append [BEq κ] [LawfulBEq κ] {k : κ} {entries : Entries κ ν}
    (hnew : ∀ e ∈ entries, e.1 ≠ k) (v : ν) : entries.put k v = entries ++ [(k, v)] := by
  induction entries with
  | nil => rfl
  | cons e rest ih =>
    have hrest := ih fun e he ↦ hnew e (List.mem_cons_of_mem _ he)
    have hne := hnew e List.mem_cons_self
    obtain ⟨k', v'⟩ := e
    simpa [put, putBy, hne] using hrest

end Entries

end BucketStats

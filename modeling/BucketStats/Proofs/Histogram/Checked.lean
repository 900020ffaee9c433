import BucketStats.Histogram.Checked
import BucketStats.Proofs.Value.Literals
/-!
# Counts given as values

Values are a histogram exactly if each of them is a count; otherwise the first one that is no count
is named.  Of integers that is the first negative one.
-/

namespace BucketStats

/-- Whether a value is an integer that is not negative.  Truth values are no integers here. -/
def Value.isCount : Value → Bool
  | .int n => decide (0 ≤ n)
  | _ => false

theorem Value.isCount_iff {v : Value} : v.isCount = true ↔ ∃ count : Nat, v = .int count := by
  constructor
  · intro h
    cases v with
    | int n =>
      obtain ⟨count, rfl⟩ := Int.eq_ofNat_of_zero_le (of_decide_eq_true h)
      exact ⟨count, rfl⟩
    | _ => cases h
  · rintro ⟨count, rfl⟩
    exact decide_eq_true (Int.natCast_nonneg count)

namespace Histogram

/-- A histogram as a value. -/
def toValue (h : Histogram) : Value :=
  .list (h.map fun (count : Nat) ↦ .int count)

/-! ## One count -/

section Check

variable {v : Value} (notInteger negative : String → Fault)

theorem checkInteger_natCast (n : Nat) : checkInteger notInteger negative (.int n) = .ok n := by
  simp only [checkInteger]
  rw [if_neg (Int.not_lt.2 (Int.natCast_nonneg n)), Int.toNat_natCast]

/-- The fault of a value that is no count: only an integer can be a negative one. -/
def misfit : Value → String → Fault
  | .int _ => negative
  | _ => notInteger

/-- The fault of a value that is no count shows it, so it has to be written first. -/
theorem checkInteger_of_misfit (hv : v.isCount = false) :
    checkInteger notInteger negative v =
      v.literal >>= fun shown ↦ .error (misfit notInteger negative v shown) := by
  cases v with
  | int n =>
    have hneg : n < 0 := Int.not_le.1 (of_decide_eq_false hv)
    simp only [checkInteger]
    rw [if_pos hneg]
    rfl
  | _ => rfl

variable {notInteger negative} in
theorem checkInteger_eq_ok_iff {count : Nat} :
    checkInteger notInteger negative v = .ok count ↔ v = .int count := by
  constructor
  · intro h
    cases hv : v.isCount with
    | true =>
      obtain ⟨n, rfl⟩ := Value.isCount_iff.1 hv
      rw [checkInteger_natCast] at h
      cases h
      rfl
    | false =>
      rw [checkInteger_of_misfit _ _ hv] at h
      obtain ⟨shown, _, h⟩ := bind_eq_ok_iff.1 h
      cases h
  · rintro rfl
    exact checkInteger_natCast _ _ count

/-- What a message says of a value that is no count. -/
def shortcoming : Value → String
  | .int _ => "negative"
  | _ => "not an integer"

variable {notInteger negative} in
/-- The message names what was checked, and shows it. -/
theorem message_misfit {subject shown : String}
    (hinteger : (notInteger shown).message = subject ++ " is not an integer: " ++ shown)
    (hnegative : (negative shown).message = subject ++ " is negative: " ++ shown) (v : Value) :
    (misfit notInteger negative v shown).message =
      subject ++ " is " ++ shortcoming v ++ ": " ++ shown := by
  have hwords : " is negative: " = " is " ++ "negative" ++ ": " := by decide
  have hwords' : " is not an integer: " = " is " ++ "not an integer" ++ ": " := by decide
  cases v with
  | int n =>
    refine hnegative.trans ?_
    simp only [hwords, shortcoming, String.append_assoc]
  | _ =>
    refine hinteger.trans ?_
    simp only [hwords', shortcoming, String.append_assoc]

end Check

/-! ## All counts -/

/-- Checks counts from an index on. -/
def ofItemsFrom (index : Nat) (items : List Value) : Except Fault Histogram :=
  (items.zipIdx index).mapM fun entry ↦ checkCount entry.2 entry.1

theorem ofItemsFrom_cons (index : Nat) (v : Value) (rest : List Value) :
    ofItemsFrom index (v :: rest) = checkCount index v >>= fun count ↦
      ofItemsFrom (index + 1) rest >>= fun counts ↦ .ok (count :: counts) := by
  unfold ofItemsFrom
  rw [List.zipIdx_cons, List.mapM_cons]
  rfl

/-- Values are the counts of a histogram if and only if they pass the check. -/
theorem ofItemsFrom_eq_ok_iff {index : Nat} {items : List Value} {h : Histogram} :
    ofItemsFrom index items = .ok h ↔ items = h.map fun (count : Nat) ↦ .int count := by
  have hone (entry : Value × Nat) (count : Nat) :
      checkCount entry.2 entry.1 = .ok count ↔ entry.1 = .int count := checkInteger_eq_ok_iff
  unfold ofItemsFrom
  simp only [mapM_eq_ok_iff, hone]
  rw [← List.forall₂_map_right_iff (R := fun (entry : Value × Nat) v ↦ entry.1 = v),
    ← List.forall₂_map_left_iff (R := Eq), List.forall₂_eq_eq_eq, List.zipIdx_map_fst]

/-- The first value that is no count ends the check, with its own fault if it can be shown. -/
theorem ofItemsFrom_of_misfit {index : Nat} {items : List Value} {first : Nat} {v : Value}
    (hfirst : items.findIdx? (fun v ↦ !v.isCount) = some first) (hv : items[first]? = some v) :
    ofItemsFrom index items = v.literal >>= fun shown ↦ .error
      (misfit (.countNotInteger (index + first)) (.negativeCount (index + first)) v shown) := by
  induction items generalizing index first with
  | nil => cases hv
  | cons u rest ih =>
    rw [ofItemsFrom_cons]
    rw [List.findIdx?_cons] at hfirst
    cases hu : u.isCount with
    | false =>
      rw [hu] at hfirst
      cases hfirst
      cases hv
      rw [checkCount, checkInteger_of_misfit _ _ hu]
      cases v.literal <;> rfl
    | true =>
      rw [hu, if_neg (by decide), Option.map_eq_some_iff] at hfirst
      obtain ⟨first, hfirst, rfl⟩ := hfirst
      obtain ⟨count, rfl⟩ := Value.isCount_iff.1 hu
      rw [checkCount, checkInteger_natCast, ok_bind, ih hfirst hv, Nat.add_right_comm,
        Nat.add_assoc]
      cases v.literal <;> rfl

/-- The histogram of a value is that of its items. -/
theorem ofValue_of_items {values : Value} {items : List Value} (hitems : values.items = .ok items) :
    ofValue values = ofItemsFrom 0 items := by
  cases values with
  | null => cases hitems
  | _ =>
    simp only [ofValue, hitems]
    rfl

/-! ## Integers -/

/-- The first integer that is no count is the first negative one. -/
theorem findIdx?_map_int (counts : List Int) :
    (counts.map Value.int).findIdx? (fun v ↦ !v.isCount) = counts.findIdx? (· < 0) := by
  rw [List.findIdx?_map]
  congr 1
  funext n
  rw [Bool.eq_iff_iff]
  simp [Value.isCount]

/-- Integers are a histogram if and only if they are the counts of one. -/
theorem ofValue_ints_eq_ok_iff {counts : List Int} {h : Histogram} :
    ofValue (.list (counts.map .int)) = .ok h ↔
      counts = h.map fun (count : Nat) ↦ (count : Int) := by
  have hints : (h.map fun (count : Nat) ↦ Value.int count) =
      (h.map fun (count : Nat) ↦ (count : Int)).map .int := by
    rw [List.map_map]
    rfl
  rw [ofValue_of_items rfl, ofItemsFrom_eq_ok_iff, hints]
  exact (List.map_injective_iff.2 fun _ _ ↦ Value.int.inj).eq_iff

theorem ofValue_ints_of_negative {counts : List Int} {first : Nat} {count : Int}
    (hfirst : counts.findIdx? (· < 0) = some first) (hcount : counts[first]? = some count) :
    ofValue (.list (counts.map .int)) =
      integerText count >>= fun shown ↦ .error (.negativeCount first shown) := by
  have hitems : ofItemsFrom 0 (counts.map .int) =
      integerText count >>= fun shown ↦ .error (.negativeCount (0 + first) shown) := by
    apply ofItemsFrom_of_misfit (v := .int count)
    · rw [findIdx?_map_int, hfirst]
    · rw [List.getElem?_map, hcount, Option.map_some]
  rwa [Nat.zero_add] at hitems

/-- The first negative count is named. -/
theorem ofValue_ints_eq_error {counts : List Int} {first : Nat} {count : Int}
    (hfirst : counts.findIdx? (· < 0) = some first) (hcount : counts[first]? = some count)
    (hlimit : Decimal.WithinLimit count) :
    ofValue (.list (counts.map .int)) = .error (.negativeCount first (toString count)) := by
  rw [ofValue_ints_of_negative hfirst hcount, integerText_eq_ok_iff.2 ⟨hlimit, rfl⟩, ok_bind]

/-- What some entry of a list has, a first one has. -/
theorem exists_first {α : Type} {p : α → Bool} {as : List α} (h : ∃ a ∈ as, p a = true) :
    ∃ first a, as.findIdx? p = some first ∧ as[first]? = some a ∧ p a = true ∧
      ∀ b ∈ as.take first, p b = false := by
  have hfirst : as.findIdx? p = some (as.findIdx p) := List.findIdx?_eq_some_of_exists h
  obtain ⟨hlt, hp, hbefore⟩ := List.findIdx?_eq_some_iff_getElem.1 hfirst
  refine ⟨_, _, hfirst, List.getElem?_eq_getElem hlt, hp, ?_⟩
  intro b hb
  obtain ⟨i, hi, rfl⟩ := List.mem_take_iff_getElem.1 hb
  simpa using hbefore i (lt_of_lt_of_le hi (min_le_left _ _))

theorem find?_eq_some_of_first {α : Type} {p : α → Bool} {as : List α} {first : Nat} {a : α}
    (hfirst : as.findIdx? p = some first) (ha : as[first]? = some a) : as.find? p = some a := by
  rw [List.find?_eq_bind_findIdx?_getElem?, hfirst]
  exact ha

/-- The first value of a kind, with the literal of it. -/
theorem exists_first_shown {p : Value → Bool} {items : List Value} (h : ∃ v ∈ items, p v = true)
    (hshown : ∀ v ∈ items.find? p, v.IsShowable) :
    ∃ first v shown, items.findIdx? p = some first ∧ items[first]? = some v ∧
      v.literal = .ok shown := by
  obtain ⟨first, v, hfirst, hv, -, -⟩ := exists_first h
  obtain ⟨shown, hliteral⟩ := (hshown v (find?_eq_some_of_first hfirst hv)).exists_literal
  exact ⟨first, v, shown, hfirst, hv, hliteral⟩

theorem exists_first_negative {counts : List Int} (h : ∃ n ∈ counts, n < 0) :
    ∃ first count, counts.findIdx? (· < 0) = some first ∧ counts[first]? = some count ∧
      count < 0 ∧ ∀ n ∈ counts.take first, 0 ≤ n := by
  obtain ⟨first, count, hfirst, hcount, hneg, hbefore⟩ :=
    exists_first (p := fun n : Int ↦ decide (n < 0)) (by simpa using h)
  refine ⟨first, count, hfirst, hcount, of_decide_eq_true hneg, fun n hn ↦ ?_⟩
  exact Int.not_lt.1 (of_decide_eq_false (hbefore n hn))

/-- Counts that are not negative are those of a histogram. -/
theorem exists_eq_map_cast {counts : List Int} (h : ∀ n ∈ counts, 0 ≤ n) :
    ∃ h : Histogram, counts = h.map fun (count : Nat) ↦ (count : Int) := by
  refine ⟨counts.map Int.toNat, ?_⟩
  have hcast : ∀ n ∈ counts, n = n.toNat := fun n hn ↦ (Int.toNat_of_nonneg (h n hn)).symm
  calc
    counts = counts.map fun n ↦ n := (List.map_id' counts).symm
    _ = counts.map fun n ↦ (n.toNat : Int) := List.map_congr_left hcast
    _ = (counts.map Int.toNat).map fun (count : Nat) ↦ (count : Int) := List.map_map.symm

@[simp]
theorem ofValue_toValue (h : Histogram) : ofValue h.toValue = .ok h := by
  have hints : h.toValue = .list ((h.map fun (count : Nat) ↦ (count : Int)).map .int) := by
    rw [List.map_map]
    rfl
  rw [hints, ofValue_ints_eq_ok_iff]

theorem weightedMeanOf_toValue {h : Histogram} (hpos : 0 < h.total) :
    weightedMeanOf h.toValue = .ok ⟨h.total, h.weightedSum⟩ := by
  unfold weightedMeanOf
  rw [ofValue_toValue]
  change h.weightedMean = _
  unfold weightedMean
  rw [if_neg hpos.ne']

theorem quantileOf_of_ofValue {counts : Value} {h : Histogram} (hcounts : ofValue counts = .ok h)
    (hpos : 0 < h.total) (level : Binary64) :
    quantileOf counts (.float level) = .ok (h.quantile level) := by
  unfold quantileOf
  rw [hcounts]
  change (if h.total = 0 then _ else _) = _
  rw [if_neg hpos.ne']
  rfl

theorem quantileOf_toValue {h : Histogram} (hpos : 0 < h.total) (level : Binary64) :
    quantileOf h.toValue (.float level) = .ok (h.quantile level) :=
  quantileOf_of_ofValue (ofValue_toValue h) hpos level

end Histogram

end BucketStats

import BucketStats.Proofs.Binary64.Magnitude
/-!
# The order of numbers

Every number has a place on the rational line with an infinity at each end, and numbers are compared
by their places.  So the two zeros are in one place, and what is no number, which has none, compares
with nothing.  The lesser and the greater of two numbers are found by one comparison: where there is
none, the first number stays.
-/

namespace BucketStats.Binary64

/-- The place of a number; `nan` has none. -/
def place? : Binary64 → Option (WithBot (WithTop ℚ))
  | .finite x => some (x.value : WithTop ℚ)
  | .infinite negative => some (if negative then ⊥ else ⊤)
  | .nan _ => none

/-- Whether a number is at most another one. -/
def IsAtMost (x y : Binary64) : Prop :=
  ∃ p ∈ x.place?, ∃ q ∈ y.place?, p ≤ q

@[simp]
theorem isAtMost_finite_iff {x y : Finite} :
    (finite x).IsAtMost (finite y) ↔ x.value ≤ y.value := by
  simp [IsAtMost, place?]

/-- The check of a level is the comparison with zero and one. -/
theorem inUnitInterval_iff {x : Binary64} :
    x.inUnitInterval = true ↔ ∃ p ∈ x.place?, p ∈ Set.Icc 0 1 := by
  cases x with
  | finite x =>
    have hplace : (∃ p ∈ (finite x).place?, p ∈ Set.Icc 0 1) ↔ 0 ≤ x.value ∧ x.value ≤ 1 := by
      simp [place?]
    have hnonneg := magnitude_nonneg x.rank
    have hzero : magnitude x.rank ≤ 0 ↔ x.rank = 0 := by
      rw [← magnitude_eq_zero_iff, hnonneg.ge_iff_eq']
    have hunits : x.rank = 0 → units x.rank ≤ unitsPerOne := by
      intro hrank
      rw [hrank]
      exact Nat.zero_le _
    rw [hplace, inUnitInterval, Finite.value]
    cases x.negative with
    | true =>
      have hneg : -magnitude x.rank ≤ 1 := by linarith
      simp [hneg, hzero]
    | false => simpa [hnonneg, magnitude_le_one_iff] using hunits
  | infinite negative =>
    have hone : (1 : WithBot (WithTop ℚ)) ≠ ⊤ := fun h ↦ WithTop.one_ne_top (WithBot.coe_inj.1 h)
    cases negative <;> simp [inUnitInterval, place?, hone]
  | nan payload => simp [inUnitInterval, place?]

/-! ## The lesser and the greater -/

/-- Whether a number is less than another one: both have a place, and its own comes first. -/
def isLess (x y : Binary64) : Bool :=
  match x.place?, y.place? with
  | some p, some q => decide (p < q)
  | _, _ => false

/-- The second of two numbers if it is less than the first one, and the first one otherwise. -/
def lesser (x y : Binary64) : Binary64 :=
  if y.isLess x then y else x

def greater (x y : Binary64) : Binary64 :=
  if x.isLess y then y else x

section Places

variable {x y : Binary64} {p q : WithBot (WithTop ℚ)}

theorem isLess_iff (hp : p ∈ x.place?) (hq : q ∈ y.place?) : x.isLess y = true ↔ p < q := by
  unfold isLess
  rw [Option.mem_def.1 hp, Option.mem_def.1 hq]
  exact decide_eq_true_iff

theorem min_mem_place? (hp : p ∈ x.place?) (hq : q ∈ y.place?) :
    min p q ∈ (x.lesser y).place? := by
  unfold lesser
  split_ifs with hless
  · rwa [min_eq_right ((isLess_iff hq hp).1 hless).le]
  · rwa [min_eq_left (not_lt.1 (mt (isLess_iff hq hp).2 hless))]

theorem max_mem_place? (hp : p ∈ x.place?) (hq : q ∈ y.place?) :
    max p q ∈ (x.greater y).place? := by
  unfold greater
  split_ifs with hless
  · rwa [max_eq_right ((isLess_iff hp hq).1 hless).le]
  · rwa [max_eq_left (not_lt.1 (mt (isLess_iff hp hq).2 hless))]

end Places

/-- Nothing compares with `nan`, so the number in front of it stays. -/
theorem lesser_nan (x : Binary64) (payload : Nat) : x.lesser (.nan payload) = x := rfl

/-! ## Fractions -/

/-- The exact fraction that a number is.  Only finite numbers are one. -/
def fraction? : Binary64 → Option ℚ
  | .finite x => some x.value
  | _ => none

theorem fraction?_eq_some_iff {x : Binary64} {r : ℚ} :
    x.fraction? = some r ↔ ((r : WithTop ℚ) : WithBot (WithTop ℚ)) ∈ x.place? := by
  cases x with
  | finite x => simp [fraction?, place?]
  | infinite negative => cases negative <;> simp [fraction?, place?]
  | nan payload => simp [fraction?, place?]

end BucketStats.Binary64

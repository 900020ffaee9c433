import BucketStats.Binary64.Basic
import Mathlib.Tactic
/-!
# Magnitudes as rational numbers

The magnitudes of binary64 ascend strictly with their ranks.  From one rank to the next they grow by
a gap that is a power of two and never shrinks, and a significand at a shift is the magnitude of the
rank that joins the two.  So whole numbers of at most 53 bits are magnitudes.  The value of a finite
number is its magnitude with its sign.
-/

namespace BucketStats.Binary64

theorem twoPow_succ (n : Nat) : twoPow (n + 1) = 2 * twoPow n := by
  rw [twoPow_add, Nat.mul_comm]
  rfl

theorem cast_twoPow (n : Nat) : ((twoPow n : ℕ) : ℚ) = 2 ^ n :=
  Nat.cast_pow 2 n

theorem twoPow_le_twoPow {m n : Nat} (h : m ≤ n) : twoPow m ≤ twoPow n :=
  Nat.pow_le_pow_right (by decide) h

/-- The number of ranks that share one gap. -/
theorem twoPow_fiftyTwo : twoPow 52 = 4503599627370496 := rfl

/-- The distance from a rank's magnitude to the next one, in units. -/
def gap (rank : Nat) : Nat :=
  twoPow (rank / twoPow 52 - 1)

theorem gap_pos (rank : Nat) : 0 < gap rank :=
  twoPow_pos _

theorem gap_mono {rank rank' : Nat} (h : rank ≤ rank') : gap rank ≤ gap rank' := by
  apply twoPow_le_twoPow
  exact Nat.sub_le_sub_right (Nat.div_le_div_right h) 1

theorem units_succ (rank : Nat) : units (rank + 1) = units rank + gap rank := by
  unfold units gap
  rw [twoPow_fiftyTwo]
  by_cases hlow : rank + 1 < 4503599627370496
  · have hexp : rank / 4503599627370496 - 1 = 0 := by omega
    rw [if_pos hlow, if_pos (by omega), hexp]
    rfl
  · rw [if_neg hlow]
    by_cases hfirst : rank + 1 = 4503599627370496
    · have hrank : rank = 4503599627370495 := by omega
      subst hrank
      rfl
    · rw [if_neg (by omega)]
      by_cases hlast : (rank + 1) % 4503599627370496 = 0
      · -- the significand overflows into the next power of two
        have hmod : rank % 4503599627370496 = 4503599627370495 := by omega
        have hexp : (rank + 1) / 4503599627370496 - 1 = (rank / 4503599627370496 - 1) + 1 := by omega
        rw [hlast, hmod, hexp, twoPow_succ]
        ring
      · have hmod : (rank + 1) % 4503599627370496 = rank % 4503599627370496 + 1 := by omega
        have hexp : (rank + 1) / 4503599627370496 = rank / 4503599627370496 := by omega
        rw [hmod, hexp]
        ring

theorem units_strictMono : StrictMono units := by
  apply strictMono_nat_of_lt_succ
  intro rank
  rw [units_succ]
  exact Nat.lt_add_of_pos_right (gap_pos rank)

@[simp]
theorem units_zero : units 0 = 0 := rfl

/-! ## Significands and shifts -/

section Shift

variable {shift significand : Nat}

theorem gap_shift (hlt : significand < 2 * twoPow 52)
    (hnormal : shift = 0 ∨ twoPow 52 ≤ significand) :
    gap (shift * twoPow 52 + significand) = twoPow shift := by
  unfold gap
  congr 1
  rw [twoPow_fiftyTwo] at hlt hnormal ⊢
  omega

/-- A significand of at most 53 bits, at a shift, is the magnitude of the rank that joins the two.
Below 53 bits only the shift zero is in use. -/
theorem units_shift (hle : significand ≤ 2 * twoPow 52)
    (hnormal : shift = 0 ∨ twoPow 52 ≤ significand) :
    units (shift * twoPow 52 + significand) = significand * twoPow shift := by
  have hunits (exponent fraction : Nat) (hfraction : fraction < twoPow 52) :
      units ((exponent + 1) * twoPow 52 + fraction) =
        (twoPow 52 + fraction) * twoPow exponent := by
    unfold units
    rw [twoPow_fiftyTwo] at hfraction ⊢
    have hdiv : ((exponent + 1) * 4503599627370496 + fraction) / 4503599627370496 - 1 =
        exponent := by omega
    have hmod : ((exponent + 1) * 4503599627370496 + fraction) % 4503599627370496 =
        fraction := by omega
    rw [if_neg (by omega), hdiv, hmod]
  rcases Nat.lt_or_ge significand (twoPow 52) with hsmall | hlarge
  · have hshift : shift = 0 := hnormal.resolve_right (by omega)
    subst hshift
    rw [Nat.zero_mul, Nat.zero_add]
    unfold units
    rw [if_pos hsmall]
    exact (Nat.mul_one significand).symm
  · rcases Nat.lt_or_ge significand (2 * twoPow 52) with hlt | hge
    · have hrank : shift * twoPow 52 + significand =
          (shift + 1) * twoPow 52 + (significand - twoPow 52) := by
        rw [Nat.add_mul, Nat.one_mul, Nat.add_assoc, Nat.add_sub_cancel' hlarge]
      rw [hrank, hunits shift _ (by omega), Nat.add_sub_cancel' hlarge]
    · have hsignificand : significand = 2 * twoPow 52 := le_antisymm hle hge
      have hrank : shift * twoPow 52 + significand = (shift + 1 + 1) * twoPow 52 + 0 := by
        rw [hsignificand]
        ring
      rw [hrank, hunits (shift + 1) 0 (twoPow_pos 52), hsignificand, twoPow_succ shift,
        Nat.add_zero, Nat.mul_left_comm, Nat.mul_assoc]

end Shift

/-! ## Whole numbers -/

/-- A whole number of at most 53 bits, or the next one, can be doubled until it has 53 of them. -/
theorem exists_doublings {n : Nat} (hpos : 0 < n) (hle : n ≤ 2 * twoPow 52) :
    ∃ doublings ≤ 52, twoPow 52 ≤ n * twoPow doublings ∧ n * twoPow doublings ≤ 2 * twoPow 52 := by
  have hlow : twoPow n.log2 ≤ n := Nat.log2_self_le hpos.ne'
  have hhigh : n < twoPow (n.log2 + 1) := Nat.lt_log2_self
  by_cases hlog : n.log2 ≤ 52
  · have hsplit : twoPow 52 = twoPow n.log2 * twoPow (52 - n.log2) := by
      rw [← twoPow_add, Nat.add_sub_cancel' hlog]
    refine ⟨52 - n.log2, Nat.sub_le _ _, ?_, ?_⟩
    · rw [hsplit]
      exact Nat.mul_le_mul_right _ hlow
    · rw [hsplit, ← Nat.mul_assoc, ← twoPow_succ]
      exact Nat.mul_le_mul_right _ hhigh.le
  · have hlarge : twoPow 53 ≤ n := (twoPow_le_twoPow (by omega)).trans hlow
    have hone : n * twoPow 0 = n := Nat.mul_one n
    refine ⟨0, by decide, ?_, ?_⟩
    · rw [hone]
      exact (twoPow_le_twoPow (by decide)).trans hlarge
    · rwa [hone]

theorem exists_units_eq {n : Nat} (hle : n ≤ 2 * twoPow 52) :
    ∃ rank, units rank = n * unitsPerOne := by
  rcases Nat.eq_zero_or_pos n with rfl | hpos
  · exact ⟨0, by rw [units_zero, Nat.zero_mul]⟩
  · obtain ⟨doublings, hdoublings, hnormal, hsignificand⟩ := exists_doublings hpos hle
    have hone : twoPow doublings * twoPow (1074 - doublings) = unitsPerOne := by
      rw [← twoPow_add, Nat.add_sub_cancel' (by omega)]
      rfl
    refine ⟨(1074 - doublings) * twoPow 52 + n * twoPow doublings, ?_⟩
    rw [units_shift hsignificand (.inr hnormal), Nat.mul_assoc, hone]

/-! ## Values -/

/-- The magnitude of a rank. -/
def magnitude (rank : Nat) : ℚ :=
  units rank / unitsPerOne

theorem unitsPerOne_cast_pos : (0 : ℚ) < unitsPerOne := by
  exact_mod_cast unitsPerOne_pos

theorem magnitude_strictMono : StrictMono magnitude := by
  intro rank rank' h
  have hunits : (units rank : ℚ) < units rank' := by exact_mod_cast units_strictMono h
  exact div_lt_div_of_pos_right hunits unitsPerOne_cast_pos

@[simp]
theorem magnitude_zero : magnitude 0 = 0 := by
  unfold magnitude
  rw [units_zero, Nat.cast_zero, zero_div]

theorem magnitude_nonneg (rank : Nat) : 0 ≤ magnitude rank := by
  rw [← magnitude_zero]
  exact magnitude_strictMono.monotone (Nat.zero_le rank)

theorem magnitude_le_one_iff (rank : Nat) : magnitude rank ≤ 1 ↔ units rank ≤ unitsPerOne := by
  rw [magnitude, div_le_one unitsPerOne_cast_pos, Nat.cast_le]

@[simp]
theorem magnitude_eq_zero_iff (rank : Nat) : magnitude rank = 0 ↔ rank = 0 := by
  rw [← magnitude_zero, magnitude_strictMono.injective.eq_iff]

theorem magnitude_pos {rank : Nat} (hrank : rank ≠ 0) : 0 < magnitude rank := by
  rw [← magnitude_zero]
  exact magnitude_strictMono (Nat.pos_of_ne_zero hrank)

/-- Up to `2 ^ 53` every whole number is a magnitude. -/
theorem exists_magnitude_eq {n : Nat} (hle : n ≤ 2 * twoPow 52) : ∃ rank, magnitude rank = n := by
  obtain ⟨rank, hunits⟩ := exists_units_eq hle
  refine ⟨rank, ?_⟩
  rw [magnitude, hunits, Nat.cast_mul, mul_div_cancel_right₀ _ unitsPerOne_cast_pos.ne']

/-- The rational number that a finite number is. -/
def Finite.value (x : Finite) : ℚ :=
  if x.negative then -magnitude x.rank else magnitude x.rank

theorem Finite.abs_value (x : Finite) : |x.value| = magnitude x.rank := by
  unfold Finite.value
  split
  · rw [abs_neg, abs_of_nonneg (magnitude_nonneg x.rank)]
  · exact abs_of_nonneg (magnitude_nonneg x.rank)

/-- A magnitude that is a whole number is read as it with the sign. -/
theorem toInt?_of_units {x : Finite} {n : Nat} (h : units x.rank = n * unitsPerOne) :
    (finite x).toInt? = some (if x.negative then -(n : Int) else n) := by
  unfold toInt?
  simp only [h]
  rw [Nat.mul_mod_left, Nat.mul_div_cancel _ unitsPerOne_pos]
  rfl

theorem units_of_magnitude_eq {rank n : Nat} (h : magnitude rank = n) :
    units rank = n * unitsPerOne := by
  rw [magnitude, div_eq_iff unitsPerOne_cast_pos.ne'] at h
  exact_mod_cast h

theorem toInt?_of_value_eq {x : Finite} {n : Int} (h : x.value = n) :
    (finite x).toInt? = some n := by
  have hmagnitude : magnitude x.rank = n.natAbs := by
    rw [← x.abs_value, h, Nat.cast_natAbs, Int.cast_abs]
  have hsign : ((if x.negative then -(n.natAbs : Int) else n.natAbs : Int) : ℚ) = n := by
    rw [← h, Finite.value, hmagnitude]
    cases x.negative with
    | true => exact Int.cast_neg _
    | false => rfl
  rw [toInt?_of_units (units_of_magnitude_eq hmagnitude), Int.cast_injective hsign]

/-- Only finite numbers are integers, and an integer is its value. -/
theorem exists_of_toInt? {x : Binary64} {n : Int} (h : x.toInt? = some n) :
    ∃ y : Finite, x = .finite y ∧ y.value = n := by
  cases x with
  | infinite negative => cases h
  | nan payload => cases h
  | finite y =>
    simp only [toInt?] at h
    by_cases hwhole : units y.rank % unitsPerOne = 0
    · have hmagnitude : magnitude y.rank = (units y.rank / unitsPerOne : ℕ) := by
        rw [magnitude, Nat.cast_div (Nat.dvd_of_mod_eq_zero hwhole) unitsPerOne_cast_pos.ne']
      rw [if_pos hwhole, Option.some_inj] at h
      refine ⟨y, rfl, ?_⟩
      rw [← h, Finite.value, hmagnitude]
      cases y.negative with
      | false => rfl
      | true => exact (Int.cast_neg _).symm
    · rw [if_neg hwhole] at h
      cases h

theorem toInt?_eq_some_iff {x : Binary64} {n : Int} :
    x.toInt? = some n ↔ ∃ y : Finite, x = .finite y ∧ y.value = n := by
  constructor
  · exact exists_of_toInt?
  · rintro ⟨y, rfl, hvalue⟩
    exact toInt?_of_value_eq hvalue

end BucketStats.Binary64

import BucketStats.Proofs.Decimal.Written
/-!
# Whole numbers as decimals

Up to `2 ^ 53` every whole number is a binary64 number, so a numeral of it is read without any
rounding, with the sign in front of it.
-/

namespace BucketStats.Decimal

open Binary64

variable {negative : Bool} {n : Nat} {s : List Char}

/-- A numeral of a whole number of at most `2 ^ 53` is read as that number. -/
theorem toInt?_of_isSigned (h : IsSigned negative n s) (hle : n ≤ 2 * twoPow 52) :
    (readDecimal s).bind toInt? = some (if negative then -(n : Int) else n) := by
  obtain ⟨rank, hmagnitude⟩ := exists_magnitude_eq hle
  have hrank : rank < overflowRank := by
    rw [← magnitude_strictMono.lt_iff_lt, hmagnitude, magnitude_overflowRank]
    calc
      (n : ℚ) ≤ (2 * twoPow 52 : ℕ) := Nat.cast_le.2 hle
      _ = 2 ^ 53 := by rw [← twoPow_succ, cast_twoPow]
      _ < 2 ^ 1024 := pow_lt_pow_right₀ one_lt_two (by decide)
  have hnear : IsNearestRank n rank := by
    rw [← hmagnitude]
    exact isNearestRank_magnitude rank
  rw [readDecimal_of_isSigned h hnear, ofRank_of_lt negative hrank, Option.bind_some]
  exact toInt?_of_units (units_of_magnitude_eq hmagnitude)

theorem readDecimal_digits (hle : n ≤ 2 * twoPow 52) :
    (readDecimal (digits n)).bind toInt? = some (n : Int) := by
  have hunsigned : IsUnsigned n (digits n) :=
    isUnsigned_whole (digits_ne_nil n) (fun c hc ↦ isDigit_of_mem_digits hc) (valueOf_digits n)
  exact toInt?_of_isSigned (.bare hunsigned) hle

end BucketStats.Decimal

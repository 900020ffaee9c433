import BucketStats.Proofs.Binary64.Nearest
/-!
# The relative error of rounding

From the least magnitude of full precision on, a gap is at most `2 ^ -52` of the magnitude below it.
So a number is rounded by at most `2 ^ -53` of itself.
-/

namespace BucketStats.Binary64

/-- Ranks of full precision have a leading bit, which is `2 ^ 52` times the gap to the next rank. -/
theorem gap_mul_twoPow_le_units {rank : Nat} (hrank : twoPow 52 ≤ rank) :
    gap rank * twoPow 52 ≤ units rank := by
  unfold gap units
  rw [if_neg (Nat.not_lt.2 hrank), Nat.mul_comm]
  exact Nat.mul_le_mul_right _ (Nat.le_add_right _ _)

theorem magnitude_succ_sub_le {rank : Nat} (hrank : twoPow 52 ≤ rank) :
    magnitude (rank + 1) - magnitude rank ≤ magnitude rank / 2 ^ 52 := by
  have hgap : ((gap rank : ℕ) : ℚ) * 2 ^ 52 ≤ units rank := by
    rw [← cast_twoPow]
    exact_mod_cast gap_mul_twoPow_le_units hrank
  calc
    magnitude (rank + 1) - magnitude rank = gap rank / unitsPerOne := by
      rw [magnitude, magnitude, units_succ, Nat.cast_add, ← sub_div, add_sub_cancel_left]
    _ ≤ units rank / 2 ^ 52 / unitsPerOne := by
      apply div_le_div_of_nonneg_right _ unitsPerOne_cast_pos.le
      rwa [le_div_iff₀ (by norm_num)]
    _ = magnitude rank / 2 ^ 52 := div_right_comm _ _ _

/-- The least magnitude of full precision. -/
theorem magnitude_twoPow : magnitude (twoPow 52) = 1 / 2 ^ 1022 := by
  have hleast := magnitude_mul_twoPow 0
  rwa [Nat.zero_add, Nat.one_mul, pow_zero] at hleast

namespace IsNearestRank

variable {x : ℚ} {rank : Nat}

/-- A number lies between two magnitudes that follow each other, one of which it is rounded to. -/
theorem exists_magnitude_le (h : IsNearestRank x rank) (hx : 0 ≤ x) :
    ∃ below, magnitude below ≤ x ∧ x < magnitude (below + 1) := by
  rcases le_or_gt (magnitude rank) x with hle | hgt
  · refine ⟨rank, hle, ?_⟩
    by_contra hfar
    have hnext := magnitude_strictMono (Nat.lt_add_one rank)
    have hnear := h.nearest (rank + 1)
    rw [abs_of_nonpos (by linarith), abs_of_nonpos (by linarith)] at hnear
    linarith
  · obtain ⟨below, rfl⟩ : ∃ below, rank = below + 1 := by
      apply Nat.exists_eq_succ_of_ne_zero
      rintro rfl
      rw [magnitude_zero] at hgt
      linarith
    refine ⟨below, ?_, hgt⟩
    by_contra hfar
    have hnear := h.nearest below
    rw [abs_of_nonneg (by linarith), abs_of_nonneg (by linarith)] at hnear
    linarith [magnitude_strictMono (Nat.lt_add_one below)]

/-- A number between two magnitudes is rounded by at most half of their distance. -/
theorem abs_sub_le_half {below above : Nat} (h : IsNearestRank x rank)
    (hlow : magnitude below ≤ x) (hhigh : x ≤ magnitude above) :
    |magnitude rank - x| ≤ (magnitude above - magnitude below) / 2 := by
  have hbelow : |magnitude rank - x| ≤ x - magnitude below := by
    rw [← abs_of_nonneg (sub_nonneg.2 hlow), abs_sub_comm x]
    exact h.nearest below
  have habove : |magnitude rank - x| ≤ magnitude above - x := by
    rw [← abs_of_nonneg (sub_nonneg.2 hhigh)]
    exact h.nearest above
  linarith

/-- Rounding at full precision is off by at most `2 ^ -53` of the number. -/
theorem abs_sub_le (h : IsNearestRank x rank) (hx : magnitude (twoPow 52) ≤ x) :
    |magnitude rank - x| ≤ x / 2 ^ 53 := by
  obtain ⟨below, hlow, hhigh⟩ := h.exists_magnitude_le ((magnitude_nonneg _).trans hx)
  have hbelow : twoPow 52 ≤ below :=
    Nat.lt_succ_iff.1 (magnitude_strictMono.lt_iff_lt.1 (hx.trans_lt hhigh))
  calc
    |magnitude rank - x| ≤ (magnitude (below + 1) - magnitude below) / 2 :=
      h.abs_sub_le_half hlow hhigh.le
    _ ≤ magnitude below / 2 ^ 52 / 2 :=
      div_le_div_of_nonneg_right (magnitude_succ_sub_le hbelow) two_pos.le
    _ ≤ x / 2 ^ 52 / 2 := by gcongr
    _ = x / 2 ^ 53 := by rw [div_div, ← pow_succ]

end IsNearestRank

end BucketStats.Binary64

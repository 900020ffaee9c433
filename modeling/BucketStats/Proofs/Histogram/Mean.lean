import BucketStats.Proofs.Histogram.Checked
import BucketStats.Proofs.Histogram.Totals
import Mathlib.Order.SuccPred.Archimedean
/-!
# Means within the data

The quotient of the totals lies between the first and the last bucket that are not empty.  Buckets up
to `2 ^ 53` are binary64 numbers, so rounding the quotient does not take it past one of the two.
-/

namespace BucketStats.Histogram

/-- The buckets that are not empty. -/
def support (h : Histogram) : Set Nat :=
  {bucket | h.getD bucket 0 ≠ 0}

variable {h : Histogram} {first last : Nat}

theorem support_nonempty (hpos : 0 < h.total) : h.support.Nonempty := by
  have hall : 0 < h.cumulative h.length := by
    rwa [cumulative_of_length_le (Nat.le_succ _)]
  obtain ⟨bucket, -, hne, -⟩ := exists_nonEmpty_le hall
  exact ⟨bucket, hne⟩

theorem exists_isLeast_isGreatest (hpos : 0 < h.total) :
    ∃ first last, IsLeast h.support first ∧ IsGreatest h.support last := by
  have hbound : BddAbove h.support := ⟨h.length, fun _ hne ↦ (lt_length_of_getD_ne_zero hne).le⟩
  obtain ⟨last, hlast⟩ := hbound.exists_isGreatest_of_nonempty (support_nonempty hpos)
  obtain ⟨first, hfirst⟩ :=
    (OrderBot.bddBelow h.support).exists_isLeast_of_nonempty (support_nonempty hpos)
  exact ⟨first, last, hfirst, hlast⟩

/-- The quotient of the totals lies between the ends of the data. -/
theorem quotient_mem_ends (hpos : 0 < h.total) (hfirst : IsLeast h.support first)
    (hlast : IsGreatest h.support last) :
    (first : ℚ) ≤ (h.weightedSum : ℚ) / h.total ∧ (h.weightedSum : ℚ) / h.total ≤ last := by
  have htotal : (0 : ℚ) < h.total := Nat.cast_pos.2 hpos
  have hlow : first * h.total ≤ h.weightedSum := mul_le_weightedSum hfirst.2
  have hhigh : h.weightedSum ≤ last * h.total := weightedSum_le_mul hlast.2
  rw [le_div_iff₀ htotal, div_le_iff₀ htotal]
  exact ⟨by exact_mod_cast hlow, by exact_mod_cast hhigh⟩

/-- Rounding keeps a number between the whole numbers of at most 53 bits around it. -/
theorem value_mem_ends {x : ℚ} {rounded : Binary64.Finite} (hrounds : Binary64.RoundsTo x rounded)
    (hfirst : first ≤ 2 * twoPow 52) (hlast : last ≤ 2 * twoPow 52) (hlow : (first : ℚ) ≤ x)
    (hhigh : x ≤ last) : (first : ℚ) ≤ rounded.value ∧ rounded.value ≤ last := by
  obtain ⟨low, hlow'⟩ := Binary64.exists_magnitude_eq hfirst
  obtain ⟨high, hhigh'⟩ := Binary64.exists_magnitude_eq hlast
  rw [← hlow'] at hlow ⊢
  rw [← hhigh'] at hhigh ⊢
  exact ⟨hrounds.magnitude_le_value hlow, hrounds.value_le_magnitude hhigh⟩

/-- The weighted mean of fewer than `2 ^ 53` counts, however large, is always told with its mean: the
number nearest to the quotient of the totals, which lies between the first and the last bucket that
are not empty. -/
theorem meanEntries_of_observations (hpos : 0 < h.total) (hlength : h.length < 2 ^ 53) :
    ∃ totals mean first last, weightedMeanOf h.toValue = .ok totals ∧
      totals.toValue.meanEntries = .ok (.dict [(.text "total_count", .int h.total),
        (.text "total_weighted_sum", .int h.weightedSum), (.text "mean", .float (.finite mean))]) ∧
      Binary64.IsNearest ((h.weightedSum : ℚ) / h.total) mean ∧
      IsLeast h.support first ∧ IsGreatest h.support last ∧
      (first : ℚ) ≤ mean.value ∧ mean.value ≤ last := by
  obtain ⟨mean, hmean, hrounds⟩ := exists_roundsTo_mean hpos (hlength.le.trans (by decide))
  obtain ⟨first, last, hfirst, hlast⟩ := exists_isLeast_isGreatest hpos
  have hbits {bucket : Nat} (hne : bucket ∈ h.support) : bucket ≤ 2 * twoPow 52 :=
    ((lt_length_of_getD_ne_zero hne).trans hlength).le
  obtain ⟨hlow, hhigh⟩ := quotient_mem_ends hpos hfirst hlast
  refine ⟨_, mean, first, last, weightedMeanOf_toValue hpos, ?_, ?_, hfirst, hlast,
    value_mem_ends hrounds (hbits hfirst.1) (hbits hlast.1) hlow hhigh⟩
  · have hdivide : (Value.int h.weightedSum).divide (.int h.total) = .ok (.finite mean) := hmean
    rw [WeightedMean.toValue, Value.meanEntries, hdivide, ok_bind]
  · exact hrounds.isNearest (div_nonneg (Nat.cast_nonneg _) (Nat.cast_nonneg _))

/-- Totals past `2 ^ 1024`, with a mean between two and three. -/
theorem meanEntries_of_hugeCounts :
    let h : Histogram := [0, 0, tenPow 400, 2 * tenPow 400, 0]
    0 < h.total ∧ h.length < 2 ^ 53 ∧ twoPow 1024 < h.total ∧
      ∃ totals mean, weightedMeanOf h.toValue = .ok totals ∧
        totals.toValue.meanEntries = .ok (.dict [(.text "total_count", .int h.total),
          (.text "total_weighted_sum", .int h.weightedSum),
          (.text "mean", .float (.finite mean))]) ∧
        Binary64.IsNearest ((h.weightedSum : ℚ) / h.total) mean ∧
        2 ≤ mean.value ∧ mean.value ≤ 3 := by
  intro h
  have hpos : 0 < h.total := by decide +kernel
  have hlength : h.length < 2 ^ 53 := by decide
  obtain ⟨totals, mean, first, last, htotals, hentries, hnearest, hfirst, hlast, hlow, hhigh⟩ :=
    meanEntries_of_observations hpos hlength
  have htwo : 2 ≤ first := by
    rcases first with _ | _ | first
    · exact absurd rfl hfirst.1
    · exact absurd rfl hfirst.1
    · exact Nat.le_add_left 2 first
  have hthree : last ≤ 3 := by
    have hlt : last < 5 := lt_length_of_getD_ne_zero hlast.1
    have hfour : last ≠ 4 := by
      rintro rfl
      exact hlast.1 rfl
    omega
  refine ⟨hpos, hlength, by decide +kernel, totals, mean, htotals, hentries, hnearest, ?_, ?_⟩
  · exact le_trans (by exact_mod_cast htwo) hlow
  · exact hhigh.trans (by exact_mod_cast hthree)

end BucketStats.Histogram

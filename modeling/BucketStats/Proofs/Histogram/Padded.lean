import BucketStats.Proofs.Histogram.Checked
import BucketStats.Proofs.Histogram.Quantile
/-!
# Histograms with empty buckets at their ends

Empty buckets before the first one move all observations up, and with them every quantile; the
weighted sum grows by the distance once for each observation.  Empty buckets after the last one hold
nothing and change nothing.
-/

namespace BucketStats.Histogram

/-- A histogram with some empty buckets before its first one and some after its last one. -/
def padded (before after : Nat) (h : Histogram) : Histogram :=
  List.replicate before 0 ++ h ++ List.replicate after 0

section Sums

variable (before after : Nat) (h : Histogram)

@[simp]
theorem total_padded : (h.padded before after).total = h.total := by
  rw [padded, total_append, total_append, total_replicate_zero, total_replicate_zero, Nat.zero_add,
    Nat.add_zero]

@[simp]
theorem weightedSum_padded :
    (h.padded before after).weightedSum = h.weightedSum + before * h.total := by
  rw [weightedSum_eq, weightedSum_eq, padded, weightedSumFrom_append_zeros,
    weightedSumFrom_zeros_append, weightedSumFrom_add]

theorem cumulative_padded (bucket : Nat) :
    (h.padded before after).cumulative (before + bucket) = h.cumulative bucket := by
  rw [padded, cumulative_append_zeros, cumulative_zeros_append]

theorem cumulative_padded_of_lt {before bucket : Nat} (hlt : bucket < before) :
    (h.padded before after).cumulative bucket = 0 := by
  rw [padded, cumulative_append_zeros, cumulative_zeros_append_of_lt h hlt]

end Sums

variable {h : Histogram}

/-- No quantile is in the buckets in front, as they hold no observation, and past them the same
cumulative counts follow. -/
theorem quantile_padded (hpos : 0 < h.total) (level : Binary64) (before after : Nat) :
    (h.padded before after).quantile level = h.quantile level + before := by
  have hpadded : 0 < (h.padded before after).total := by rwa [total_padded]
  apply eq_of_forall_ge_iff
  intro bucket
  rw [quantile_le_iff hpadded, total_padded]
  rcases Nat.lt_or_ge bucket before with hlt | hge
  · have hthreshold := threshold_pos level h.total
    rw [cumulative_padded_of_lt after h hlt]
    omega
  · obtain ⟨bucket, rfl⟩ := Nat.exists_eq_add_of_le hge
    rw [cumulative_padded, ← quantile_le_iff hpos]
    omega

/-- Empty buckets before a histogram with observations leave its total as it is, add their number to
the weighted sum for each observation, and move each quantile up by their number; empty buckets after
it change neither. -/
theorem statistics_of_padded (hpos : 0 < h.total) (level : Binary64) :
    ∃ totals bucket, weightedMeanOf h.toValue = .ok totals ∧
      quantileOf h.toValue (.float level) = .ok bucket ∧
      (∀ before after,
        weightedMeanOf (h.padded before after).toValue =
          .ok ⟨totals.totalCount, totals.totalWeightedSum + before * totals.totalCount⟩ ∧
        quantileOf (h.padded before after).toValue (.float level) = .ok (bucket + before)) ∧
      ∀ after, weightedMeanOf (h.padded 0 after).toValue = .ok totals ∧
        quantileOf (h.padded 0 after).toValue (.float level) = .ok bucket := by
  have hpadded (before after : Nat) : 0 < (h.padded before after).total := by rwa [total_padded]
  refine ⟨_, _, weightedMeanOf_toValue hpos, quantileOf_toValue hpos level, fun before after ↦ ?_,
    fun after ↦ ?_⟩
  · rw [weightedMeanOf_toValue (hpadded before after), quantileOf_toValue (hpadded before after),
      total_padded, weightedSum_padded, quantile_padded hpos]
    exact ⟨rfl, rfl⟩
  · rw [weightedMeanOf_toValue (hpadded 0 after), quantileOf_toValue (hpadded 0 after),
      total_padded, weightedSum_padded, quantile_padded hpos, Nat.zero_mul]
    exact ⟨rfl, rfl⟩

/-- The least level and the greatest, at which the buckets in front and behind would be met first and
last. -/
theorem statistics_of_padded_of_three_observations :
    let h : Histogram := [0, 2, 1]
    0 < h.total ∧ h.padded 2 1 = [0, 0, 0, 2, 1, 0] ∧
      weightedMeanOf h.toValue = .ok ⟨3, 4⟩ ∧
      weightedMeanOf (h.padded 2 1).toValue = .ok ⟨3, 4 + 2 * 3⟩ ∧
      quantileOf h.toValue (.float (.infinite true)) = .ok 1 ∧
      quantileOf (h.padded 2 1).toValue (.float (.infinite true)) = .ok (1 + 2) ∧
      quantileOf h.toValue (.float (.infinite false)) = .ok 2 ∧
      quantileOf (h.padded 2 1).toValue (.float (.infinite false)) = .ok (2 + 2) := by
  intro h
  have hpos : 0 < h.total := by decide
  obtain ⟨totals, least, htotals, hleast, hpadded, -⟩ := statistics_of_padded hpos (.infinite true)
  obtain ⟨_, greatest, -, hgreatest, hpadded', -⟩ := statistics_of_padded hpos (.infinite false)
  have hmean : weightedMeanOf h.toValue = .ok ⟨3, 4⟩ := by decide +kernel
  have hfirst : quantileOf h.toValue (.float (.infinite true)) = .ok 1 := by decide +kernel
  have hlast : quantileOf h.toValue (.float (.infinite false)) = .ok 2 := by decide +kernel
  cases hmean.symm.trans htotals
  cases hfirst.symm.trans hleast
  cases hlast.symm.trans hgreatest
  exact ⟨hpos, rfl, hmean, (hpadded 2 1).1, hfirst, (hpadded 2 1).2, hlast, (hpadded' 2 1).2⟩

end BucketStats.Histogram

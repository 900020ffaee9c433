import BucketStats.Histogram.Observations
import BucketStats.Proofs.Binary64.Order
import BucketStats.Proofs.Histogram.Checked
import BucketStats.Proofs.Histogram.Quantile
/-!
# Histograms of greater observations

Of two histograms with as many observations one lies below the other if up to every bucket it has at
least as many of them.  Its quantile at a level is then no later than the other one's at a higher
level, and its mean is no greater: the weighted sum is what the cumulative counts leave of the
product of total and length, and rounding keeps the order of quotients.
-/

namespace BucketStats.Histogram

/-- Whether a histogram has as many observations as another one and they are no greater.  Past its
own buckets there is nothing to compare, as all its observations have been seen. -/
structure LiesBelow (h h' : Histogram) : Prop where
  total_eq : h.total = h'.total
  cumulative_le : ∀ bucket < h.length, h'.cumulative bucket ≤ h.cumulative bucket

variable {h h' : Histogram} {level level' : Binary64}

theorem LiesBelow.cumulative_le_cumulative (hbelow : h.LiesBelow h') (bucket : Nat) :
    h'.cumulative bucket ≤ h.cumulative bucket := by
  rcases Nat.lt_or_ge bucket h.length with hlt | hge
  · exact hbelow.cumulative_le bucket hlt
  · rw [cumulative_of_length_le (Nat.le_succ_of_le hge), hbelow.total_eq]
    exact h'.cumulative_le_total bucket

/-! ## Levels -/

/-- A level is taken into the unit interval by its place. -/
theorem coe_clamped {p : WithBot (WithTop ℚ)} (hp : p ∈ level.place?) :
    ((level.clamped : WithTop ℚ) : WithBot (WithTop ℚ)) = max 0 (min p 1) := by
  cases level with
  | finite x =>
    cases hp
    simp only [Binary64.clamped]
    push_cast
    rfl
  | infinite negative =>
    cases hp
    cases negative with
    | true => simp [Binary64.clamped]
    | false => simp [Binary64.clamped]
  | nan payload => cases hp

theorem clamped_mono (hlevel : level.IsAtMost level') : level.clamped ≤ level'.clamped := by
  obtain ⟨p, hp, q, hq, hle⟩ := hlevel
  have hplaces : max 0 (min p 1) ≤ max 0 (min q 1) := max_le_max_left 0 (min_le_min_right 1 hle)
  rw [← coe_clamped hp, ← coe_clamped hq] at hplaces
  exact_mod_cast hplaces

theorem threshold_mono (hlevel : level.IsAtMost level') (total : Nat) :
    threshold level total ≤ threshold level' total := by
  apply max_le_max_left
  apply Nat.ceil_mono
  exact mul_le_mul_of_nonneg_right (clamped_mono hlevel) (Nat.cast_nonneg _)

/-! ## Quantiles -/

theorem LiesBelow.quantile_le_quantile (hbelow : h.LiesBelow h') (hpos : 0 < h.total)
    (hlevel : level.IsAtMost level') : h.quantile level ≤ h'.quantile level' := by
  have hpos' : 0 < h'.total := hbelow.total_eq ▸ hpos
  rw [quantile_le_iff hpos]
  calc
    threshold level h.total ≤ threshold level' h'.total := by
      rw [hbelow.total_eq]
      exact threshold_mono hlevel _
    _ ≤ h'.cumulative (h'.quantile level') := (quantile_le_iff hpos' level' _).1 le_rfl
    _ ≤ h.cumulative (h'.quantile level') := hbelow.cumulative_le_cumulative _

/-! ## Means -/

theorem LiesBelow.weightedSum_le_weightedSum (hbelow : h.LiesBelow h') :
    h.weightedSum ≤ h'.weightedSum := by
  have hparts := @weightedSum_add_sum_cumulative h _ (le_max_left h.length h'.length)
  have hparts' := @weightedSum_add_sum_cumulative h' _ (le_max_right h.length h'.length)
  have hsums : ∑ bucket ∈ Finset.range (max h.length h'.length), h'.cumulative bucket ≤
      ∑ bucket ∈ Finset.range (max h.length h'.length), h.cumulative bucket :=
    Finset.sum_le_sum fun bucket _ ↦ hbelow.cumulative_le_cumulative bucket
  rw [hbelow.total_eq] at hparts
  omega

theorem LiesBelow.exists_means (hbelow : h.LiesBelow h') (hpos : 0 < h.total)
    (hlength : h.length < indexLimit) (hlength' : h'.length < indexLimit) :
    ∃ mean mean', WeightedMean.mean ⟨h.total, h.weightedSum⟩ = .ok (.finite mean) ∧
      WeightedMean.mean ⟨h'.total, h'.weightedSum⟩ = .ok (.finite mean') ∧
      mean.value ≤ mean'.value := by
  have hpos' : 0 < h'.total := hbelow.total_eq ▸ hpos
  obtain ⟨mean, hmean, hrounds⟩ := exists_roundsTo_mean hpos hlength.le
  obtain ⟨mean', hmean', hrounds'⟩ := exists_roundsTo_mean hpos' hlength'.le
  have hquotients : (h.weightedSum : ℚ) / h.total ≤ (h'.weightedSum : ℚ) / h'.total := by
    rw [hbelow.total_eq]
    exact div_le_div_of_nonneg_right (Nat.cast_le.2 hbelow.weightedSum_le_weightedSum)
      (Nat.cast_nonneg _)
  exact ⟨mean, mean', hmean, hmean', hrounds.value_mono hrounds' hquotients⟩

/-- Greater observations and a higher level move no statistic down: where one histogram lies below
another and one level is at most another, the first bucket, weighted sum and mean are at most the
second.  No histogram is as long as `indexLimit`. -/
theorem statistics_mono (hpos : 0 < h.total) (hbelow : h.LiesBelow h')
    (hlevel : level.IsAtMost level') :
    ∃ totals totals' bucket bucket',
      weightedMeanOf h.toValue = .ok totals ∧ weightedMeanOf h'.toValue = .ok totals' ∧
      quantileOf h.toValue (.float level) = .ok bucket ∧
      quantileOf h'.toValue (.float level') = .ok bucket' ∧
      bucket ≤ bucket' ∧ totals.totalWeightedSum ≤ totals'.totalWeightedSum ∧
      (h.length < indexLimit → h'.length < indexLimit →
        ∃ mean mean', totals.mean = .ok (.finite mean) ∧ totals'.mean = .ok (.finite mean') ∧
          mean.value ≤ mean'.value) := by
  have hpos' : 0 < h'.total := hbelow.total_eq ▸ hpos
  exact ⟨_, _, _, _, weightedMeanOf_toValue hpos, weightedMeanOf_toValue hpos',
    quantileOf_toValue hpos level, quantileOf_toValue hpos' level',
    hbelow.quantile_le_quantile hpos hlevel, hbelow.weightedSum_le_weightedSum,
    hbelow.exists_means hpos⟩

/-- The median of four observations, and the maximum of four others, of which two are greater. -/
theorem statistics_mono_of_four_observations :
    let h : Histogram := [2, 0, 2, 0]
    let h' : Histogram := [1, 1, 0, 2]
    let half : Binary64.Finite := ⟨false, 1022 * twoPow 52, by decide⟩
    let one : Binary64.Finite := ⟨false, 1023 * twoPow 52, by decide⟩
    0 < h.total ∧ h.LiesBelow h' ∧ Binary64.IsAtMost (.finite half) (.finite one) ∧
      quantileOf h.toValue (.float (.finite half)) = .ok 0 ∧
      quantileOf h'.toValue (.float (.finite one)) = .ok 3 ∧ 0 ≤ 3 ∧
      ∃ mean mean', WeightedMean.mean ⟨4, 4⟩ = .ok (.finite mean) ∧
        WeightedMean.mean ⟨4, 7⟩ = .ok (.finite mean') ∧ mean.value ≤ mean'.value := by
  intro h h' half one
  have hpos : 0 < h.total := by decide
  have hbelow : h.LiesBelow h' := ⟨by decide, by decide⟩
  have hhalf : half.value = 1 / 2 := Binary64.magnitude_rankOfHalf
  have hone : one.value = 1 := Binary64.magnitude_rankOfOne
  have hlevel : Binary64.IsAtMost (.finite half) (.finite one) := by
    rw [Binary64.isAtMost_finite_iff, hhalf, hone]
    norm_num
  have hmedian : quantileOf h.toValue (.float (.finite half)) = .ok 0 := by decide +kernel
  have hmaximum : quantileOf h'.toValue (.float (.finite one)) = .ok 3 := by decide +kernel
  obtain ⟨totals, totals', bucket, bucket', htotals, htotals', hbucket, hbucket', hle, -, hmeans⟩ :=
    statistics_mono hpos hbelow hlevel
  cases htotals
  cases htotals'
  cases hmedian.symm.trans hbucket
  cases hmaximum.symm.trans hbucket'
  exact ⟨hpos, hbelow, hlevel, hmedian, hmaximum, hle, hmeans (by decide) (by decide)⟩

end BucketStats.Histogram

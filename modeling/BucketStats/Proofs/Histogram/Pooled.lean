import BucketStats.Histogram.Observations
import BucketStats.Proofs.Histogram.Checked
import BucketStats.Proofs.Histogram.Quantile
import Mathlib.Order.Interval.Set.UnorderedInterval
/-!
# Pooled histograms

Two histograms pooled hold the observations of both, whatever their lengths are.  Totals, weighted
sums and cumulative counts add up.  So a quantile of the pool lies between the quantiles of the two:
up to a bucket at which both have reached their shares of their totals the pool has reached its own,
and where both have missed them it has missed it.  The mean of the pool is a mean of the two means,
and rounding does not take it past them.
-/

namespace BucketStats.Histogram

/-- The histogram of the observations of two. -/
def pool : Histogram → Histogram → Histogram
  | [], h' => h'
  | h, [] => h
  | count :: rest, count' :: rest' => (count + count') :: pool rest rest'

/-! ## Sums -/

section Sums

@[simp]
theorem pool_nil_left (h : Histogram) : pool [] h = h := by
  rw [pool]

@[simp]
theorem pool_nil_right (h : Histogram) : pool h [] = h := by
  cases h with
  | nil => rw [pool]
  | cons => rw [pool]; simp

variable (h h' : Histogram)

/-- The shorter histogram is filled up with empty buckets. -/
theorem length_pool : (h.pool h').length = max h.length h'.length := by
  induction h, h' using pool.induct with
  | case1 h' => simp
  | case2 h => simp
  | case3 count rest count' rest' ih => simp [pool, ih]

theorem getD_pool (bucket : Nat) :
    (h.pool h').getD bucket 0 = h.getD bucket 0 + h'.getD bucket 0 := by
  induction h, h' using pool.induct generalizing bucket with
  | case1 h' => simp
  | case2 h => simp
  | case3 count rest count' rest' ih =>
    cases bucket with
    | zero => simp [pool]
    | succ bucket => rw [pool, List.getD_cons_succ, ih, List.getD_cons_succ, List.getD_cons_succ]

theorem cumulative_pool (bucket : Nat) :
    (h.pool h').cumulative bucket = h.cumulative bucket + h'.cumulative bucket := by
  induction bucket with
  | zero => rw [cumulative_zero, cumulative_zero, cumulative_zero, getD_pool]
  | succ bucket ih =>
    rw [cumulative_succ, cumulative_succ, cumulative_succ, ih, getD_pool]
    omega

@[simp]
theorem total_pool : (h.pool h').total = h.total + h'.total := by
  have hall := cumulative_pool h h' (max h.length h'.length)
  rwa [cumulative_of_length_le (by rw [length_pool]; omega), cumulative_of_length_le (by omega),
    cumulative_of_length_le (by omega)] at hall

variable {h} in
theorem total_pool_pos (hpos : 0 < h.total) : 0 < (h.pool h').total := by
  rw [total_pool]
  exact Nat.add_pos_left hpos _

/-- The cumulative counts add up, and with them the weighted sums. -/
@[simp]
theorem weightedSum_pool : (h.pool h').weightedSum = h.weightedSum + h'.weightedSum := by
  have hparts := weightedSum_add_sum_cumulative (le_max_left h.length h'.length)
  have hparts' := weightedSum_add_sum_cumulative (le_max_right h.length h'.length)
  have hpooled := weightedSum_add_sum_cumulative (length_pool h h').le
  simp only [cumulative_pool, Finset.sum_add_distrib, total_pool, Nat.mul_add] at hpooled
  omega

end Sums

/-! ## Quantiles -/

section Quantiles

variable (level : Binary64)

theorem threshold_add_le (total total' : Nat) :
    threshold level (total + total') ≤ threshold level total + threshold level total' := by
  have hceil : ⌈level.clamped * (total + total' : ℕ)⌉₊ ≤
      ⌈level.clamped * total⌉₊ + ⌈level.clamped * total'⌉₊ := by
    rw [Nat.cast_add, mul_add]
    exact Nat.ceil_add_le _ _
  unfold threshold
  omega

/-- Two shares are rounded up by less than two observations. -/
theorem threshold_add_threshold_le (total total' : Nat) :
    threshold level total + threshold level total' ≤ threshold level (total + total') + 1 := by
  have hshare (n : Nat) : 0 ≤ level.clamped * n :=
    mul_nonneg (clamped_nonneg level) (Nat.cast_nonneg n)
  have hsum : level.clamped * (total + total' : ℕ) =
      level.clamped * total + level.clamped * total' := by
    rw [Nat.cast_add, mul_add]
  have hceil : ⌈level.clamped * total⌉₊ + ⌈level.clamped * total'⌉₊ ≤
      ⌈level.clamped * (total + total' : ℕ)⌉₊ + 1 := by
    have hlt := Nat.ceil_lt_add_one (hshare total)
    have hlt' := Nat.ceil_lt_add_one (hshare total')
    have hle := Nat.le_ceil (level.clamped * (total + total' : ℕ))
    have hcast : (⌈level.clamped * total⌉₊ + ⌈level.clamped * total'⌉₊ : ℚ) <
        ⌈level.clamped * (total + total' : ℕ)⌉₊ + 1 + 1 := by linarith
    exact Nat.lt_succ_iff.1 (by exact_mod_cast hcast)
  have hfirst : ⌈level.clamped * total⌉₊ ≤ ⌈level.clamped * (total + total' : ℕ)⌉₊ :=
    Nat.ceil_mono (hsum ▸ le_add_of_nonneg_right (hshare total'))
  have hsecond : ⌈level.clamped * total'⌉₊ ≤ ⌈level.clamped * (total + total' : ℕ)⌉₊ :=
    Nat.ceil_mono (hsum ▸ le_add_of_nonneg_left (hshare total))
  unfold threshold
  omega

variable {h h' : Histogram}

theorem quantile_pool_mem_uIcc (hpos : 0 < h.total) (hpos' : 0 < h'.total) :
    (h.pool h').quantile level ∈ Set.uIcc (h.quantile level) (h'.quantile level) := by
  have hpool (bucket : Nat) : (h.pool h').quantile level ≤ bucket ↔
      threshold level (h.total + h'.total) ≤ h.cumulative bucket + h'.cumulative bucket := by
    rw [quantile_le_iff (total_pool_pos h' hpos), total_pool, cumulative_pool]
  constructor
  · -- up to a bucket before both quantiles each histogram misses its threshold
    by_contra hlt
    have hbefore := lt_inf_iff.1 (not_le.1 hlt)
    have hmissed := mt (quantile_le_iff hpos level _).2 (not_le.2 hbefore.1)
    have hmissed' := mt (quantile_le_iff hpos' level _).2 (not_le.2 hbefore.2)
    have hreached := (hpool _).1 le_rfl
    have hsum := threshold_add_threshold_le level h.total h'.total
    omega
  · have hreached := (quantile_le_iff hpos level _).1 (le_sup_left (b := h'.quantile level))
    have hreached' := (quantile_le_iff hpos' level _).1 (le_sup_right (a := h.quantile level))
    exact (hpool _).2 ((threshold_add_le level _ _).trans (Nat.add_le_add hreached hreached'))

end Quantiles

/-! ## Means -/

/-- Adding numerators and denominators gives a quotient between the two. -/
theorem add_div_add_mem_uIcc {a b c d : ℚ} (hb : 0 < b) (hd : 0 < d) :
    (a + c) / (b + d) ∈ Set.uIcc (a / b) (c / d) := by
  have hsum : 0 < b + d := add_pos hb hd
  rw [Set.mem_uIcc, div_le_div_iff₀ hb hsum, div_le_div_iff₀ hsum hd, div_le_div_iff₀ hd hsum,
    div_le_div_iff₀ hsum hb]
  rcases le_total (a / b) (c / d) with hle | hle
  · rw [div_le_div_iff₀ hb hd] at hle
    exact .inl ⟨by linarith, by linarith⟩
  · rw [div_le_div_iff₀ hd hb] at hle
    exact .inr ⟨by linarith, by linarith⟩

variable {h h' : Histogram}

theorem exists_means_of_pool (hpos : 0 < h.total) (hpos' : 0 < h'.total)
    (hlength : h.length < indexLimit) (hlength' : h'.length < indexLimit) :
    ∃ mean mean' pooled, WeightedMean.mean ⟨h.total, h.weightedSum⟩ = .ok (.finite mean) ∧
      WeightedMean.mean ⟨h'.total, h'.weightedSum⟩ = .ok (.finite mean') ∧
      WeightedMean.mean ⟨(h.pool h').total, (h.pool h').weightedSum⟩ = .ok (.finite pooled) ∧
      pooled.value ∈ Set.uIcc mean.value mean'.value := by
  have hlimit : (h.pool h').length < indexLimit := by
    rw [length_pool]
    exact max_lt hlength hlength'
  obtain ⟨mean, hmean, hrounds⟩ := exists_roundsTo_mean hpos hlength.le
  obtain ⟨mean', hmean', hrounds'⟩ := exists_roundsTo_mean hpos' hlength'.le
  obtain ⟨pooled, hmeanPooled, hroundsPooled⟩ := exists_roundsTo_mean (total_pool_pos h' hpos) hlimit.le
  refine ⟨mean, mean', pooled, hmean, hmean', hmeanPooled,
    hrounds.value_mem_uIcc hrounds' hroundsPooled ?_⟩
  rw [total_pool, weightedSum_pool, Nat.cast_add, Nat.cast_add]
  exact add_div_add_mem_uIcc (Nat.cast_pos.2 hpos) (Nat.cast_pos.2 hpos')

/-- The statistics of two histograms with observations and of their pool: the totals add up, and the
mean and each quantile of the pool lie between those of the two.  No histogram is as long as
`indexLimit`. -/
theorem statistics_of_pool (hpos : 0 < h.total) (hpos' : 0 < h'.total) :
    ∃ totals totals' pooled, weightedMeanOf h.toValue = .ok totals ∧
      weightedMeanOf h'.toValue = .ok totals' ∧ weightedMeanOf (h.pool h').toValue = .ok pooled ∧
      pooled.totalCount = totals.totalCount + totals'.totalCount ∧
      pooled.totalWeightedSum = totals.totalWeightedSum + totals'.totalWeightedSum ∧
      (h.length < indexLimit → h'.length < indexLimit →
        ∃ mean mean' pooledMean, totals.mean = .ok (.finite mean) ∧
          totals'.mean = .ok (.finite mean') ∧ pooled.mean = .ok (.finite pooledMean) ∧
          pooledMean.value ∈ Set.uIcc mean.value mean'.value) ∧
      ∀ level, ∃ bucket bucket' pooledBucket, quantileOf h.toValue (.float level) = .ok bucket ∧
        quantileOf h'.toValue (.float level) = .ok bucket' ∧
        quantileOf (h.pool h').toValue (.float level) = .ok pooledBucket ∧
        pooledBucket ∈ Set.uIcc bucket bucket' := by
  have hpooled := total_pool_pos h' hpos
  refine ⟨_, _, _, weightedMeanOf_toValue hpos, weightedMeanOf_toValue hpos',
    weightedMeanOf_toValue hpooled, total_pool h h', weightedSum_pool h h',
    exists_means_of_pool hpos hpos', fun level ↦ ?_⟩
  exact ⟨_, _, _, quantileOf_toValue hpos level, quantileOf_toValue hpos' level,
    quantileOf_toValue hpooled level, quantile_pool_mem_uIcc level hpos hpos'⟩

/-- The medians and the means of two histograms of different lengths and of their pool. -/
theorem statistics_of_pool_of_eight_observations :
    let h : Histogram := [3, 1]
    let h' : Histogram := [0, 0, 1, 3]
    let half : Binary64 := .finite ⟨false, 1022 * twoPow 52, by decide⟩
    0 < h.total ∧ 0 < h'.total ∧ h.pool h' = [3, 1, 1, 3] ∧
      quantileOf h.toValue (.float half) = .ok 0 ∧ quantileOf h'.toValue (.float half) = .ok 3 ∧
      quantileOf (h.pool h').toValue (.float half) = .ok 1 ∧ 1 ∈ Set.uIcc 0 3 ∧
      ∃ mean mean' pooled, WeightedMean.mean ⟨4, 1⟩ = .ok (.finite mean) ∧
        WeightedMean.mean ⟨4, 11⟩ = .ok (.finite mean') ∧
        WeightedMean.mean ⟨8, 12⟩ = .ok (.finite pooled) ∧
        pooled.value ∈ Set.uIcc mean.value mean'.value := by
  intro h h' half
  have hpos : 0 < h.total := by decide
  have hpos' : 0 < h'.total := by decide
  have hleft : quantileOf h.toValue (.float half) = .ok 0 := by decide +kernel
  have hright : quantileOf h'.toValue (.float half) = .ok 3 := by decide +kernel
  have hmedian : quantileOf (h.pool h').toValue (.float half) = .ok 1 := by decide +kernel
  obtain ⟨totals, totals', pooled, htotals, htotals', hpooled, -, -, hmeans, hlevels⟩ :=
    statistics_of_pool hpos hpos'
  cases htotals
  cases htotals'
  cases hpooled
  obtain ⟨bucket, bucket', pooledBucket, hbucket, hbucket', hpooledBucket, hbetween⟩ := hlevels half
  cases hleft.symm.trans hbucket
  cases hright.symm.trans hbucket'
  cases hmedian.symm.trans hpooledBucket
  exact ⟨hpos, hpos', by decide, hleft, hright, hmedian, hbetween, hmeans (by decide) (by decide)⟩

end BucketStats.Histogram

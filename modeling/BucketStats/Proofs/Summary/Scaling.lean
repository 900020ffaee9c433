import BucketStats.Proofs.Summary.Quantiles
/-!
# Scaled histograms

Multiplying all counts by one positive number multiplies the totals by it and changes nothing else
in a summary.  The mean is rounded from a quotient, which stays the same number, and the quantiles
compare shares of the total exactly, so neither the size of the counts nor that of the factor
matters.
-/

namespace BucketStats

/-! ## Totals and means -/

namespace Histogram

/-- A histogram in which every observation comes `factor` times as often. -/
def scale (factor : Nat) (h : Histogram) : Histogram :=
  h.map fun count ↦ factor * count

variable (factor : Nat) (h : Histogram)

@[simp]
theorem length_scale : (h.scale factor).length = h.length :=
  List.length_map _

@[simp]
theorem total_scale : (h.scale factor).total = factor * h.total := by
  induction h with
  | nil => rfl
  | cons count rest ih =>
    rw [scale] at ih
    rw [scale, List.map_cons, total_cons, total_cons, ih, Nat.mul_add]

theorem weightedSumFrom_scale (bucket : Nat) :
    weightedSumFrom bucket (h.scale factor) = factor * weightedSumFrom bucket h := by
  induction h generalizing bucket with
  | nil => rfl
  | cons count rest ih =>
    rw [scale] at ih
    rw [scale, List.map_cons, weightedSumFrom, weightedSumFrom, ih, Nat.mul_add,
      Nat.mul_left_comm]

@[simp]
theorem weightedSum_scale : (h.scale factor).weightedSum = factor * h.weightedSum := by
  rw [weightedSum_eq, weightedSum_eq, weightedSumFrom_scale]

end Histogram

section Quotient

variable {factor : Nat} (num den : Nat)

/-- A quotient in higher terms is rounded to the same rank. -/
theorem Binary64.rankOfQuotient_mul_left (hfactor : 0 < factor) {den : Nat} (hden : 0 < den) :
    rankOfQuotient (factor * num) (factor * den) = rankOfQuotient num den := by
  have hne : (factor : ℚ) ≠ 0 := by exact_mod_cast hfactor.ne'
  have hscaled := isNearestRank_rankOfQuotient (factor * num) (Nat.mul_pos hfactor hden)
  rw [Nat.cast_mul, Nat.cast_mul, mul_div_mul_left _ _ hne] at hscaled
  exact hscaled.unique (isNearestRank_rankOfQuotient num hden)

theorem quotient_mul_left (hfactor : 0 < factor) :
    quotient (factor * num : ℕ) (factor * den : ℕ) = quotient num den := by
  rcases Nat.eq_zero_or_pos den with rfl | hden
  · unfold quotient
    rw [Nat.mul_zero, if_pos Nat.cast_zero, if_pos Nat.cast_zero]
  · rw [quotient_natCast_eq hden, quotient_natCast_eq (Nat.mul_pos hfactor hden)]
    simp only [Binary64.rankOfQuotient_mul_left num hfactor hden]

end Quotient

/-- The totals of a scaled histogram. -/
def WeightedMean.scale (factor : Nat) (m : WeightedMean) : WeightedMean :=
  ⟨factor * m.totalCount, factor * m.totalWeightedSum⟩

section Scaled

variable {factor : Nat}

theorem WeightedMean.mean_scale (hfactor : 0 < factor) (m : WeightedMean) :
    (m.scale factor).mean = m.mean :=
  quotient_mul_left m.totalWeightedSum m.totalCount hfactor

theorem Histogram.weightedMean_scale (hfactor : 0 < factor) (h : Histogram) :
    (h.scale factor).weightedMean = h.weightedMean.map (WeightedMean.scale factor) := by
  unfold weightedMean
  rw [total_scale, weightedSum_scale, length_scale]
  by_cases hzero : h.total = 0
  · rw [if_pos hzero, if_pos (by rw [hzero, Nat.mul_zero])]
    rfl
  · rw [if_neg hzero, if_neg (Nat.mul_ne_zero hfactor.ne' hzero)]
    rfl

/-! ## Quantiles -/

namespace Histogram

/-- The share of the total that has been reached stays the same. -/
theorem reaches_scale (hfactor : 0 < factor) (level : Binary64) (total observed : Nat) :
    reaches level (factor * total) (factor * observed) = reaches level total observed := by
  unfold reaches
  rw [Nat.mul_left_comm, Nat.mul_assoc]
  simp only [Nat.mul_le_mul_left_iff hfactor]

/-- Two goals that agree on all multiples of the factor are reached at the same bucket. -/
theorem firstReaching_scale (hfactor : 0 < factor) {goal goal' : Nat → Bool}
    (hgoal : ∀ observed, goal' (factor * observed) = goal observed) (h : Histogram)
    (bucket observed : Nat) :
    firstReaching goal' bucket (factor * observed) (h.scale factor) =
      firstReaching goal bucket observed h := by
  induction h generalizing bucket observed with
  | nil => rfl
  | cons count rest ih =>
    rw [scale] at ih
    rw [scale, List.map_cons, firstReaching, firstReaching, ← Nat.mul_add, ih, ih, hgoal]
    simp only [Nat.mul_eq_zero, hfactor.ne', false_or]

theorem lastNonEmpty_scale (hfactor : 0 < factor) (h : Histogram) :
    (h.scale factor).lastNonEmpty = h.lastNonEmpty := by
  unfold lastNonEmpty scale
  rw [List.zipIdx_map, List.foldl_map]
  simp only [Prod.map_fst, Prod.map_snd, id_eq, Nat.mul_eq_zero, hfactor.ne', false_or]

@[simp]
theorem quantile_scale (hfactor : 0 < factor) (h : Histogram) (level : Binary64) :
    (h.scale factor).quantile level = h.quantile level := by
  have hfirst := firstReaching_scale hfactor (reaches_scale hfactor level h.total) h 0 0
  rw [Nat.mul_zero] at hfirst
  unfold quantile
  rw [total_scale, hfirst, lastNonEmpty_scale hfactor]

end Histogram

/-! ## Summaries -/

/-- A run with all counts multiplied by a factor. -/
def Run.scale (factor : Nat) (run : Run) : Run :=
  { run with counts := run.counts.scale factor }

/-- A summary with both totals multiplied by a factor, and all else as it is. -/
def Summary.scale (factor : Nat) (s : Summary) : Summary :=
  { s with totals := s.totals.scale factor }

theorem Run.addQuantile_scale (hfactor : 0 < factor) (run : Run) :
    (run.scale factor).addQuantile = run.addQuantile := by
  funext found level
  have hbucket (x : Binary64) : (run.scale factor).counts.quantile x = run.counts.quantile x :=
    Histogram.quantile_scale hfactor run.counts x
  unfold addQuantile
  simp only [hbucket]

/-- Whatever a summary or its failure is, that of the scaled run differs in the totals alone. -/
theorem Run.summarize_scale (hfactor : 0 < factor) (run : Run) (levels : List Value) :
    (run.scale factor).summarize levels = (run.summarize levels).map (Summary.scale factor) := by
  have hcounts : (run.scale factor).counts = run.counts.scale factor := rfl
  have hlength : (run.counts.scale factor).length = run.counts.length :=
    Histogram.length_scale factor run.counts
  unfold summarize
  rw [run.addQuantile_scale hfactor, hcounts, hlength, Histogram.weightedMean_scale hfactor]
  cases run.counts.weightedMean with
  | error f => rfl
  | ok totals =>
    simp only [Except.map, ok_bind, totals.mean_scale hfactor]
    cases totals.mean with
    | error f => rfl
    | ok mean =>
      rw [ok_bind, ok_bind]
      cases levels.foldlM run.addQuantile [] with
      | error f => rfl
      | ok quantiles => rfl

/-- Multiplying all counts by a positive number multiplies the totals in the summaries by it and
changes nothing else.  No list is as long as `Histogram.indexLimit`. -/
theorem summarizeRuns_scale (runs : List Run) (levels : List Binary64) (hfactor : 0 < factor)
    (hpos : ∀ run ∈ runs, 0 < run.counts.total)
    (hlength : ∀ run ∈ runs, run.counts.length < Histogram.indexLimit) :
    ∃ found,
      summarizeRuns (.list (runs.map Run.toValue)) (.list (levels.map .float)) = .ok found ∧
      found.map (·.1) = runs ∧
      summarizeRuns (.list ((runs.map (Run.scale factor)).map Run.toValue))
        (.list (levels.map .float)) =
          .ok (found.map fun entry ↦ (entry.1.scale factor, entry.2.scale factor)) := by
  obtain ⟨found, hfound⟩ := exists_summarizeRuns levels hpos hlength
  obtain ⟨hruns, hsummaries⟩ := summarizeRuns_eq_ok_iff.1 hfound
  refine ⟨found, hfound, hruns, summarizeRuns_eq_ok_iff.2 ⟨?_, ?_⟩⟩
  · rw [← hruns, List.map_map, List.map_map]
    rfl
  · rw [List.forall_mem_map]
    intro entry hentry
    rw [Run.summarize_scale hfactor, hsummaries entry hentry]
    rfl

/-- Totals past the range of binary64 leave the mean `1.5` as it is. -/
theorem summarizeRuns_scale_by_hugeFactor :
    let run : Run := ⟨.text "items", [0, 1, 1]⟩
    let level : Binary64 := .ofRank false (1022 * twoPow 52)
    ∃ summary, summarizeRuns (.list [run.toValue]) (.list [.float level]) = .ok [(run, summary)] ∧
      summarizeRuns (.list [(run.scale (twoPow 1100)).toValue]) (.list [.float level]) =
        .ok [(run.scale (twoPow 1100),
          { summary with totals := ⟨twoPow 1100 * 2, twoPow 1100 * 3⟩ })] := by
  intro run level
  obtain ⟨found, hfound, hruns, hscaled⟩ := summarizeRuns_scale [run] [level]
    (twoPow_pos 1100) (by decide) (by decide +kernel)
  obtain ⟨⟨run', summary⟩, rfl, rfl⟩ := List.map_eq_singleton_iff.1 hruns
  have hrun : summarizeRuns (.list ([run].map Run.toValue)) (.list ([level].map .float)) =
      .ok [(run, summary)] := hfound
  have hsummary : run.summarize ([level].map .float) = .ok summary :=
    (summarizeRuns_eq_ok_iff.1 hrun).2 _ List.mem_cons_self
  have htotals : summary.totals.scale (twoPow 1100) = ⟨twoPow 1100 * 2, twoPow 1100 * 3⟩ := by
    obtain ⟨_, mean, _, rfl⟩ := Run.summarize_eq_ok_iff.1 hsummary
    rfl
  refine ⟨summary, hfound, ?_⟩
  rw [← htotals]
  exact hscaled

end Scaled

end BucketStats

import BucketStats.Proofs.Summary.Lines
import BucketStats.Proofs.Summary.Quantiles
/-!
# Printed means

The second line of a report has the mean with just the places that the precision asks for.  It is the
nearest decimal with so many places, and of two as near the one with the even last digit, so a larger
mean is never printed as a smaller decimal.
-/

namespace BucketStats

open Binary64 Decimal

/-! ## What a summary holds -/

namespace Run

variable {run : Run} {levels : List Value} {summary : Summary}

/-- The buckets at quantiles can be written if the weighted sum can. -/
theorem withinLimit_of_mem_quantiles (h : run.summarize levels = .ok summary)
    (hsum : WithinLimit summary.totals.totalWeightedSum) :
    ∀ e ∈ summary.quantiles, WithinLimit e.2 := by
  obtain ⟨hpos, mean, quantiles, _, hquantiles, rfl⟩ := summarize_values_eq_ok_iff.1 h
  intro e he
  have hne := nonEmpty_of_foldlM_addQuantile hpos (by simp) hquantiles e he
  exact withinLimit_of_le (Histogram.le_weightedSum_of_getD_ne_zero hne) hsum

/-- The mean in a summary is the quotient of the totals, rounded once. -/
theorem exists_mean_of_summarize (h : run.summarize levels = .ok summary) :
    ∃ mean, summary.mean = .finite mean ∧
      RoundsTo ((run.counts.weightedSum : ℚ) / run.counts.total) mean := by
  obtain ⟨hpos, mean, quantiles, hmean, _, rfl⟩ := summarize_values_eq_ok_iff.1 h
  exact exists_of_quotient_natCast hpos hmean

end Run

/-! ## The line of the mean -/

/-- Whether the second line of a report shows the mean as some steps of the power of ten with a number
of places. -/
def Summary.ShowsMean (summary : Summary) (places steps : Nat) : Prop :=
  ∃ lines text, reportLines summary.toValue (.int places) = .ok lines ∧
    lines[1]? = some ("mean " ++ String.ofList text) ∧ IsPlaced places steps text

section Shown

variable {summary : Summary} {places steps : Nat} {mean : Finite} {lines : List String}

theorem writeFixed_of_nonneg (places : Nat) (hsign : mean.negative = false) :
    writeFixed places (.finite mean) = fixedMagnitude places mean.rank := by
  rw [writeFixed, writeWith, hsign, signed, if_neg Bool.false_ne_true]

theorem isRounded_of_nonneg (places : Nat) (hsign : mean.negative = false) :
    IsRounded (mean.value * 10 ^ places)
      (roundHalfEven (units mean.rank * tenPow places) unitsPerOne) := by
  rw [Finite.value, hsign]
  exact isRounded_steps places mean.rank

theorem getElem?_one_of_reportLines (hmean : summary.mean = .finite mean)
    (hsign : mean.negative = false)
    (hlines : reportLines summary.toValue (.int places) = .ok lines) :
    lines[1]? = some ("mean " ++ String.ofList (fixedMagnitude places mean.rank)) := by
  obtain ⟨-, rfl⟩ := reportLines_eq_ok_iff.1 hlines
  rw [← writeFixed_of_nonneg places hsign, ← hmean]
  rfl

/-- What is shown is the mean rounded to the places. -/
theorem Summary.ShowsMean.isRounded (h : summary.ShowsMean places steps)
    (hmean : summary.mean = .finite mean) (hsign : mean.negative = false) :
    IsRounded (mean.value * 10 ^ places) steps := by
  obtain ⟨lines, text, hlines, hline, hplaced⟩ := h
  rw [getElem?_one_of_reportLines hmean hsign hlines, Option.some_inj, String.append_right_inj,
    String.ofList_inj] at hline
  subst hline
  rw [hplaced.unique (isPlaced_fixedMagnitude places mean.rank)]
  exact isRounded_of_nonneg places hsign

end Shown

/-- The second line of the report on a summary is printed with just the places that the precision asks
for.  It shows the mean rounded to these places, a tie to the even last digit, and no larger mean is
shown as less. -/
theorem exists_showsMean {run : Run} {levels : List Value} {summary : Summary} {places : Nat}
    (hsummary : run.summarize levels = .ok summary)
    (hcount : WithinLimit summary.totals.totalCount)
    (hsum : WithinLimit summary.totals.totalWeightedSum) (hplaces : places ≤ 10 ^ 9) :
    ∃ mean steps, summary.mean = .finite mean ∧ summary.ShowsMean places steps ∧
      IsRounded (mean.value * 10 ^ places) steps ∧
      ∀ (run' : Run) levels' (summary' : Summary) mean' steps',
        run'.summarize levels' = .ok summary' → summary'.mean = .finite mean' →
          mean.value ≤ mean'.value → summary'.ShowsMean places steps' → steps ≤ steps' := by
  obtain ⟨mean, hmean, hrounds⟩ := Run.exists_mean_of_summarize hsummary
  have hlimit : places < NumberFormat.placesLimit := hplaces.trans_lt (by decide)
  have hlines := reportLines_eq_ok_iff.2 ⟨⟨hsum, hcount, hlimit,
    Run.withinLimit_of_mem_quantiles hsummary hsum⟩, rfl⟩
  have hshows : summary.ShowsMean places _ :=
    ⟨_, _, hlines, getElem?_one_of_reportLines hmean hrounds.nonnegative hlines,
      isPlaced_fixedMagnitude places mean.rank⟩
  have hrounded := hshows.isRounded hmean hrounds.nonnegative
  refine ⟨mean, _, hmean, hshows, hrounded, ?_⟩
  intro run' levels' summary' mean' steps' hsummary' hmean' hle hshows'
  obtain ⟨other, hother, hrounds'⟩ := Run.exists_mean_of_summarize hsummary'
  obtain rfl : mean' = other := finite.inj (hmean'.symm.trans hother)
  have hscaled : mean.value * 10 ^ places ≤ mean'.value * 10 ^ places :=
    mul_le_mul_of_nonneg_right hle (pow_nonneg (by norm_num) places)
  exact hrounded.le_of_le (hshows'.isRounded hmean' hrounds'.nonnegative) hscaled

/-- A mean of one half is printed without places as zero, the even one of the two as near. -/
theorem exists_showsMean_of_half :
    ∃ (summary : Summary) (mean : Finite), Run.summarize ⟨.text "coins", [1, 1]⟩ [] = .ok summary ∧
      WithinLimit summary.totals.totalCount ∧ WithinLimit summary.totals.totalWeightedSum ∧
      0 ≤ 10 ^ 9 ∧ summary.mean = .finite mean ∧ mean.value = 1 / 2 ∧ summary.ShowsMean 0 0 := by
  have hmean : WeightedMean.mean ⟨2, 1⟩ = .ok (.finite ⟨false, 1022 * twoPow 52, by decide⟩) := by
    decide +kernel
  have hsummary : Run.summarize ⟨.text "coins", [1, 1]⟩ [] =
      .ok ⟨.text "coins", 2, ⟨2, 1⟩, .finite ⟨false, 1022 * twoPow 52, by decide⟩, []⟩ :=
    Run.summarize_values_eq_ok_iff.2 ⟨by decide, _, _, hmean, rfl, rfl⟩
  obtain ⟨mean, steps, hfinite, hshows, hrounded, -⟩ :=
    exists_showsMean hsummary (by decide) (by decide) (Nat.zero_le (10 ^ 9))
  cases hfinite
  have hvalue : (⟨false, 1022 * twoPow 52, by decide⟩ : Finite).value = 1 / 2 := magnitude_rankOfHalf
  refine ⟨_, _, hsummary, by decide, by decide, Nat.zero_le _, rfl, hvalue, ?_⟩
  have hhalf : (1 / 2 : ℚ) * 10 ^ 0 = 1 / 2 := by norm_num
  have heven : IsRounded (1 / 2) 0 := ⟨by norm_num, fun _ ↦ rfl⟩
  rw [hvalue, hhalf] at hrounded
  obtain rfl : steps = 0 :=
    le_antisymm (hrounded.le_of_le heven le_rfl) (heven.le_of_le hrounded le_rfl)
  exact hshows

end BucketStats

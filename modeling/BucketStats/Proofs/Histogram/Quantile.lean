import BucketStats.Histogram.Quantile
import BucketStats.Proofs.Histogram.Totals
/-!
# The quantile at a level

The quantile is the least bucket whose cumulative count reaches a threshold: the level's share of the
total, rounded up to a whole number, but one at least.  The scan that finds it stops at a bucket that
is not empty, at the latest where all observations have been seen, so the bucket that stands in for a
missing one is never used.
-/

namespace BucketStats

/-- The number that a level is taken to in the unit interval. -/
def Binary64.clamped : Binary64 → ℚ
  | .finite x => max 0 (min x.value 1)
  | .infinite negative => if negative then 0 else 1
  | .nan _ => 1

namespace Histogram

theorem clamped_mul_unitsPerOne (level : Binary64) :
    level.clamped * Binary64.unitsPerOne = levelUnits level := by
  have hone := Binary64.unitsPerOne_cast_pos
  have hunits (rank : Nat) :
      Binary64.magnitude rank * Binary64.unitsPerOne = Binary64.units rank :=
    div_mul_cancel₀ _ hone.ne'
  cases level with
  | finite x =>
    have hmagnitude := Binary64.magnitude_nonneg x.rank
    simp only [Binary64.clamped, Binary64.Finite.value, levelUnits]
    split_ifs
    · have hzero : max 0 (min (-Binary64.magnitude x.rank) 1) = 0 :=
        max_eq_left (min_le_of_left_le (neg_nonpos.2 hmagnitude))
      rw [hzero, zero_mul, Nat.cast_zero]
    · rw [max_eq_right (le_min hmagnitude zero_le_one), min_mul_of_nonneg _ _ hone.le, hunits,
        one_mul, Nat.cast_min]
  | infinite negative =>
    simp only [Binary64.clamped, levelUnits]
    split_ifs
    · rw [zero_mul, Nat.cast_zero]
    · rw [one_mul]
  | nan _ => exact one_mul _

theorem clamped_nonneg (level : Binary64) : 0 ≤ level.clamped := by
  cases level with
  | finite x => exact le_max_left _ _
  | infinite negative =>
    simp only [Binary64.clamped]
    split_ifs
    · exact le_rfl
    · exact zero_le_one
  | nan _ => exact zero_le_one

theorem clamped_le_one (level : Binary64) : level.clamped ≤ 1 := by
  cases level with
  | finite x => exact max_le zero_le_one (min_le_right _ _)
  | infinite negative =>
    simp only [Binary64.clamped]
    split_ifs
    · exact zero_le_one
    · exact le_rfl
  | nan _ => exact le_rfl

theorem clamped_of_mem_unitInterval {x : Binary64.Finite} (h₀ : 0 ≤ x.value) (h₁ : x.value ≤ 1) :
    (Binary64.finite x).clamped = x.value := by
  simp only [Binary64.clamped]
  rw [min_eq_left h₁, max_eq_right h₀]

/-- The comparison with the level's share of the total is exact. -/
theorem reaches_iff (level : Binary64) (total observed : Nat) :
    reaches level total observed = true ↔ level.clamped * total ≤ observed := by
  have hone := Binary64.unitsPerOne_cast_pos
  unfold reaches
  rw [decide_eq_true_iff, ← Nat.cast_le (α := ℚ), Nat.cast_mul, Nat.cast_mul,
    ← clamped_mul_unitsPerOne, mul_right_comm, mul_le_mul_iff_left₀ hone]

/-! ## The scan -/

/-- Whether a bucket is where a scan for a goal stops. -/
structure IsFirstReaching (goal : Nat → Bool) (h : Histogram) (observed bucket : Nat) : Prop where
  nonEmpty : h.getD bucket 0 ≠ 0
  reached : goal (observed + h.cumulative bucket) = true
  before : ∀ earlier < bucket, h.getD earlier 0 ≠ 0 → goal (observed + h.cumulative earlier) = false

/-- A scan whose goal is reached by all observations stops within the histogram. -/
theorem exists_firstReaching {goal : Nat → Bool} {h : Histogram} {observed : Nat} (start : Nat)
    (hpos : 0 < h.total) (hgoal : goal (observed + h.total) = true) :
    ∃ bucket, firstReaching goal start observed h = some (start + bucket) ∧
      IsFirstReaching goal h observed bucket := by
  induction h generalizing start observed with
  | nil => exact absurd hpos (lt_irrefl 0)
  | cons count rest ih =>
    rw [total_cons] at hpos hgoal
    by_cases hempty : count = 0
    · -- an empty bucket is passed over
      subst hempty
      rw [Nat.zero_add] at hpos hgoal
      obtain ⟨bucket, hfound, hspec⟩ := ih (start + 1) hpos hgoal
      refine ⟨bucket + 1, ?_, hspec.nonEmpty, ?_, ?_⟩
      · rw [firstReaching, if_pos rfl, hfound, Nat.add_right_comm, Nat.add_assoc]
      · simpa using hspec.reached
      · intro earlier hearlier hne
        cases earlier with
        | zero => exact absurd rfl hne
        | succ earlier =>
          simpa using hspec.before earlier (Nat.lt_of_succ_lt_succ hearlier) hne
    · by_cases hstop : goal (observed + count) = true
      · refine ⟨0, ?_, hempty, ?_, ?_⟩
        · rw [firstReaching, if_neg hempty, if_pos hstop, Nat.add_zero]
        · rwa [cumulative_cons_zero]
        · intro earlier hearlier
          exact absurd hearlier (Nat.not_lt_zero earlier)
      · have hrest : 0 < total rest := by
          apply Nat.pos_of_ne_zero
          intro hzero
          rw [hzero, Nat.add_zero] at hgoal
          exact hstop hgoal
        rw [← Nat.add_assoc] at hgoal
        obtain ⟨bucket, hfound, hspec⟩ := ih (start + 1) hrest hgoal
        refine ⟨bucket + 1, ?_, hspec.nonEmpty, ?_, ?_⟩
        · rw [firstReaching, if_neg hempty, if_neg hstop, hfound, Nat.add_right_comm, Nat.add_assoc]
        · rw [cumulative_cons_succ, ← Nat.add_assoc]
          exact hspec.reached
        · intro earlier hearlier hne
          cases earlier with
          | zero =>
            rw [cumulative_cons_zero]
            exact Bool.eq_false_iff.2 hstop
          | succ earlier =>
            rw [cumulative_cons_succ, ← Nat.add_assoc]
            exact hspec.before earlier (Nat.lt_of_succ_lt_succ hearlier) hne

/-! ## The quantile -/

variable {h : Histogram}

theorem quantile_isFirstReaching (hpos : 0 < h.total) (level : Binary64) :
    IsFirstReaching (reaches level h.total) h 0 (h.quantile level) := by
  have hgoal : reaches level h.total (0 + h.total) = true := by
    rw [Nat.zero_add, reaches_iff]
    exact mul_le_of_le_one_left (Nat.cast_nonneg _) (clamped_le_one level)
  obtain ⟨bucket, hfound, hspec⟩ := exists_firstReaching 0 hpos hgoal
  unfold quantile
  rw [hfound, Option.getD_some, Nat.zero_add]
  exact hspec

/-- The buckets that are not empty and at which the observations so far reach a cutoff. -/
def reaching (h : Histogram) (cutoff : ℚ) : Set Nat :=
  {bucket | h.getD bucket 0 ≠ 0 ∧ cutoff ≤ h.cumulative bucket}

theorem quantile_isLeast (hpos : 0 < h.total) (level : Binary64) :
    IsLeast (h.reaching (level.clamped * h.total)) (h.quantile level) := by
  obtain ⟨hne, hreached, hbefore⟩ := quantile_isFirstReaching hpos level
  rw [Nat.zero_add, reaches_iff] at hreached
  refine ⟨⟨hne, hreached⟩, ?_⟩
  rintro bucket ⟨hbucket, hcutoff⟩
  by_contra hlt
  have hfails := hbefore bucket (Nat.not_le.1 hlt) hbucket
  rw [Nat.zero_add, Bool.eq_false_iff] at hfails
  exact hfails ((reaches_iff _ _ _).2 hcutoff)

/-- Cutoffs are first reached at one bucket exactly if they are reached at the same buckets. -/
theorem isLeast_reaching_iff {cutoff cutoff' : ℚ} {bucket : Nat}
    (hleast : IsLeast (h.reaching cutoff) bucket) :
    IsLeast (h.reaching cutoff') bucket ↔ h.reaching cutoff' = h.reaching cutoff := by
  have hsubset {x y : ℚ} (hx : IsLeast (h.reaching x) bucket) (hy : IsLeast (h.reaching y) bucket) :
      h.reaching x ⊆ h.reaching y := by
    rintro other ⟨hne, hother⟩
    have hle : bucket ≤ other := hx.2 ⟨hne, hother⟩
    refine ⟨hne, hy.1.2.trans ?_⟩
    exact Nat.cast_le.2 (h.cumulative_mono hle)
  constructor
  · intro hleast'
    exact (hsubset hleast' hleast).antisymm (hsubset hleast hleast')
  · intro hsame
    rwa [hsame]

/-- The number of observations that the quantile's bucket and those below it have to hold. -/
def threshold (level : Binary64) (total : Nat) : Nat :=
  max 1 ⌈level.clamped * total⌉₊

theorem threshold_pos (level : Binary64) (total : Nat) : 0 < threshold level total :=
  le_max_left 1 _

theorem threshold_le (level : Binary64) {total : Nat} (hpos : 0 < total) :
    threshold level total ≤ total := by
  apply max_le hpos
  apply Nat.ceil_le.2
  exact mul_le_of_le_one_left (Nat.cast_nonneg _) (clamped_le_one level)

/-- The quantile is the least bucket whose cumulative count reaches the threshold. -/
theorem quantile_le_iff (hpos : 0 < h.total) (level : Binary64) (bucket : Nat) :
    h.quantile level ≤ bucket ↔ threshold level h.total ≤ h.cumulative bucket := by
  have hspec := quantile_isFirstReaching hpos level
  have hreached := (reaches_iff _ _ _).1 hspec.reached
  rw [Nat.zero_add] at hreached
  constructor
  · intro hle
    have hmono := h.cumulative_mono hle
    apply max_le
    · calc
        1 ≤ h.getD (h.quantile level) 0 := Nat.one_le_iff_ne_zero.2 hspec.nonEmpty
        _ ≤ h.cumulative (h.quantile level) := h.getD_le_cumulative _
        _ ≤ h.cumulative bucket := hmono
    · calc
        ⌈level.clamped * h.total⌉₊ ≤ h.cumulative (h.quantile level) := Nat.ceil_le.2 hreached
        _ ≤ h.cumulative bucket := hmono
  · intro hthreshold
    by_contra hlt
    rw [Nat.not_le] at hlt
    -- the last bucket below that is not empty would have stopped the scan
    obtain ⟨last, hlast, hne, hsame⟩ := exists_nonEmpty_le ((threshold_pos _ _).trans_le hthreshold)
    have hbefore := hspec.before last (hlast.trans_lt hlt) hne
    have hceil : level.clamped * h.total ≤ h.cumulative last := by
      rw [hsame]
      exact Nat.ceil_le.1 ((le_max_right 1 _).trans hthreshold)
    rw [Nat.zero_add, Bool.eq_false_iff] at hbefore
    exact hbefore ((reaches_iff _ _ _).2 hceil)

end Histogram

end BucketStats

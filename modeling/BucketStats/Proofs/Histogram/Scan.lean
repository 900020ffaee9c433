import BucketStats.Proofs.Histogram.Mean
import BucketStats.Proofs.Histogram.Order
/-!
# The scan for a quantile, bucket by bucket

A level is taken into the unit interval by two comparisons, and what is left of it is a finite number
even if the level is none.  Its share of the total is the cutoff, between zero and the total.

The scan keeps the number of observations so far and the last bucket that was not empty, and stops at
the first such bucket at which the cutoff is reached.  All observations reach it, and they have been
seen once the last bucket that is not empty is passed.  So the scan has stopped there, and the bucket
that it keeps is never the answer.
-/

namespace BucketStats

namespace Binary64

def zero : Binary64 :=
  .finite ⟨false, 0, by decide⟩

def one : Binary64 :=
  .finite ⟨false, 1023 * twoPow 52, by decide⟩

theorem zero_mem_place? : 0 ∈ zero.place? := by
  simp [zero, place?, Finite.value]

theorem one_mem_place? : 1 ∈ one.place? := by
  simp [one, place?, Finite.value, magnitude_rankOfOne]

/-- The number that a level is taken to in the unit interval: it is compared with one first, and the
lesser of the two with zero. -/
def intoUnitInterval (level : Binary64) : Binary64 :=
  zero.greater (one.lesser level)

end Binary64

namespace Histogram

/-! ## Cutoffs -/

/-- Every level is taken to a finite number.  What is no number is in no place, but the number one that
it is compared with is. -/
theorem fraction?_intoUnitInterval (level : Binary64) :
    level.intoUnitInterval.fraction? = some level.clamped := by
  have hplaces {p : WithBot (WithTop ℚ)} (hp : p ∈ level.place?) :
      ((level.clamped : WithTop ℚ) : WithBot (WithTop ℚ)) ∈ level.intoUnitInterval.place? := by
    rw [coe_clamped hp, min_comm]
    exact Binary64.max_mem_place? Binary64.zero_mem_place?
      (Binary64.min_mem_place? Binary64.one_mem_place? hp)
  rw [Binary64.fraction?_eq_some_iff]
  cases level with
  | finite x => exact hplaces rfl
  | infinite negative => exact hplaces rfl
  | nan payload =>
    have hone := Binary64.max_mem_place? Binary64.zero_mem_place? Binary64.one_mem_place?
    rw [max_eq_right zero_le_one] at hone
    rw [Binary64.intoUnitInterval, Binary64.lesser_nan]
    exact hone

theorem clamped_mul_mem_Icc (level : Binary64) (total : Nat) :
    level.clamped * total ∈ Set.Icc (0 : ℚ) total :=
  ⟨mul_nonneg (clamped_nonneg level) (Nat.cast_nonneg total),
    mul_le_of_le_one_left (Nat.cast_nonneg total) (clamped_le_one level)⟩

/-- Whether a number of observations reaches a cutoff. -/
def reachesCutoff (cutoff : ℚ) (observed : Nat) : Bool :=
  decide (cutoff ≤ observed)

theorem reachesCutoff_iff {cutoff : ℚ} {observed : Nat} :
    reachesCutoff cutoff observed = true ↔ cutoff ≤ observed :=
  decide_eq_true_iff

theorem reaches_eq (level : Binary64) (total : Nat) :
    reaches level total = reachesCutoff (level.clamped * total) := by
  funext observed
  rw [Bool.eq_iff_iff, reaches_iff, reachesCutoff_iff]

/-! ## The scan -/

/-- Where a scan stands: on its way, with the observations so far and the last bucket that was not
empty, or at the bucket where it has stopped, with the observations up to it. -/
inductive Scan where
  | running (observed last : Nat)
  | stopped (observed bucket : Nat)

namespace Scan

/-- Passes one more bucket.  An empty one changes nothing. -/
def step (cutoff : ℚ) : Scan → Nat × Nat → Scan
  | running observed last, (count, bucket) =>
    if count = 0 then running observed last
    else if cutoff ≤ (observed + count : Nat) then stopped (observed + count) bucket
    else running (observed + count) bucket
  | stopped observed bucket, _ => stopped observed bucket

section Step

variable {cutoff : ℚ} {observed last count bucket : Nat}

theorem step_empty : (running observed last).step cutoff (0, bucket) = running observed last := rfl

theorem step_reached (hcount : count ≠ 0) (hreached : cutoff ≤ (observed + count : Nat)) :
    (running observed last).step cutoff (count, bucket) = stopped (observed + count) bucket := by
  rw [step, if_neg hcount, if_pos hreached]

theorem step_short (hcount : count ≠ 0) (hshort : ¬cutoff ≤ (observed + count : Nat)) :
    (running observed last).step cutoff (count, bucket) = running (observed + count) bucket := by
  rw [step, if_neg hcount, if_neg hshort]

end Step

/-- What a scan answers when there are no more buckets. -/
def answer : Scan → Nat
  | running _ last => last
  | stopped _ bucket => bucket

/-- What the search for the first bucket that reaches the cutoff finds from where a scan stands. -/
def resume (cutoff : ℚ) (h : Histogram) (passed : Nat) : Scan → Option Nat
  | running observed _ => firstReaching (reachesCutoff cutoff) passed observed (h.drop passed)
  | stopped _ bucket => some bucket

end Scan

/-- Where a scan of a histogram stands after a number of buckets. -/
def scan (h : Histogram) (cutoff : ℚ) (passed : Nat) : Scan :=
  (h.zipIdx.take passed).foldl (Scan.step cutoff) (.running 0 0)

variable {h : Histogram} {cutoff : ℚ} {passed : Nat} {s : Scan}

theorem scan_succ (hpassed : passed < h.length) :
    h.scan cutoff (passed + 1) = (h.scan cutoff passed).step cutoff (h[passed], passed) := by
  have hlength : passed < h.zipIdx.length := by rwa [List.length_zipIdx]
  unfold scan
  rw [List.take_succ_eq_append_getElem hlength, List.foldl_append, List.getElem_zipIdx, Nat.zero_add]
  rfl

theorem foldl_step_stopped (buckets : List (Nat × Nat)) (observed bucket : Nat) :
    buckets.foldl (Scan.step cutoff) (.stopped observed bucket) = .stopped observed bucket :=
  List.foldl_fixed' (fun _ ↦ rfl) buckets

/-- A scan that has stopped is over. -/
theorem scan_of_stopped {observed bucket passed' : Nat} (hle : passed ≤ passed')
    (hstopped : h.scan cutoff passed = .stopped observed bucket) :
    h.scan cutoff passed' = .stopped observed bucket := by
  obtain ⟨more, rfl⟩ := Nat.exists_eq_add_of_le hle
  unfold scan at hstopped ⊢
  rw [List.take_add, List.foldl_append, hstopped, foldl_step_stopped]

/-- Passing a bucket changes nothing about what the search finds. -/
theorem resume_step (hpassed : passed < h.length) :
    (s.step cutoff (h[passed], passed)).resume cutoff h (passed + 1) = s.resume cutoff h passed := by
  cases s with
  | stopped observed bucket => rfl
  | running observed last =>
    rw [Scan.resume, List.drop_eq_getElem_cons hpassed, firstReaching]
    by_cases hempty : h[passed] = 0
    · rw [if_pos hempty, hempty, Scan.step_empty, Scan.resume]
    · rw [if_neg hempty]
      by_cases hreached : cutoff ≤ (observed + h[passed] : Nat)
      · rw [if_pos (reachesCutoff_iff.2 hreached), Scan.step_reached hempty hreached, Scan.resume]
      · rw [if_neg (mt reachesCutoff_iff.1 hreached), Scan.step_short hempty hreached, Scan.resume]

/-- At every bucket the search goes on with what the scan has counted. -/
theorem resume_scan (hpassed : passed ≤ h.length) :
    (h.scan cutoff passed).resume cutoff h passed =
      firstReaching (reachesCutoff cutoff) 0 0 h := by
  induction passed with
  | zero => rfl
  | succ passed ih => rw [scan_succ hpassed, resume_step hpassed, ih (Nat.le_of_succ_le hpassed)]

/-! ## What holds at every bucket -/

/-- Whether a scan stands where it should after a number of buckets.  On its way it knows how many
observations they hold and which of them is the last that is not empty.  Where it has stopped, it knows
how many observations there are up to that bucket, which is not empty, and they reach the cutoff.  At
no bucket before that is not empty do they. -/
inductive IsScanOf (h : Histogram) (cutoff : ℚ) (passed : Nat) : Scan → Prop where
  | running {observed last : Nat} (observed_eq : observed = total (h.take passed))
      (last_eq : last = lastNonEmpty (h.take passed))
      (before : ∀ earlier < passed, h.getD earlier 0 ≠ 0 → (h.cumulative earlier : ℚ) < cutoff) :
      IsScanOf h cutoff passed (.running observed last)
  | stopped {observed bucket : Nat} (seen : bucket < passed) (nonEmpty : h.getD bucket 0 ≠ 0)
      (observed_eq : observed = total (h.take (bucket + 1))) (reached : cutoff ≤ observed)
      (before : ∀ earlier < bucket, h.getD earlier 0 ≠ 0 → (h.cumulative earlier : ℚ) < cutoff) :
      IsScanOf h cutoff passed (.stopped observed bucket)

theorem total_take_succ (hpassed : passed < h.length) :
    total (h.take (passed + 1)) = total (h.take passed) + h[passed] := by
  rw [List.take_succ_eq_append_getElem hpassed, total_append, total_cons, total_nil, Nat.add_zero]

theorem lastNonEmpty_take_succ (hpassed : passed < h.length) :
    lastNonEmpty (h.take (passed + 1)) =
      if h[passed] = 0 then lastNonEmpty (h.take passed) else passed := by
  have hlength : (h.take passed).length = passed := List.length_take_of_le hpassed.le
  unfold lastNonEmpty
  rw [List.take_succ_eq_append_getElem hpassed, List.zipIdx_append, List.foldl_append, hlength]
  simp

/-- A scan that stands where it should still does after one more bucket. -/
theorem IsScanOf.step (hscan : IsScanOf h cutoff passed s) (hpassed : passed < h.length) :
    IsScanOf h cutoff (passed + 1) (s.step cutoff (h[passed], passed)) := by
  have hcount : h.getD passed 0 = h[passed] := List.getD_eq_getElem _ _ hpassed
  have htotal := total_take_succ hpassed
  have hlast := lastNonEmpty_take_succ hpassed
  cases hscan with
  | stopped seen nonEmpty observed_eq reached before =>
    exact .stopped (Nat.lt_succ_of_lt seen) nonEmpty observed_eq reached before
  | @running observed last observed_eq last_eq before =>
    rw [← observed_eq] at htotal
    have hbefore (hshort : h[passed] ≠ 0 → ¬cutoff ≤ (observed + h[passed] : Nat)) :
        ∀ earlier < passed + 1, h.getD earlier 0 ≠ 0 → (h.cumulative earlier : ℚ) < cutoff := by
      intro earlier hearlier hne
      rcases Nat.lt_succ_iff_lt_or_eq.1 hearlier with hlt | rfl
      · exact before earlier hlt hne
      · rw [cumulative, htotal]
        exact not_le.1 (hshort (hcount ▸ hne))
    by_cases hempty : h[passed] = 0
    · rw [hempty, Nat.add_zero] at htotal
      rw [if_pos hempty, ← last_eq] at hlast
      rw [hempty, Scan.step_empty]
      exact .running htotal.symm hlast.symm (hbefore fun hne ↦ absurd hempty hne)
    · by_cases hreached : cutoff ≤ (observed + h[passed] : Nat)
      · rw [Scan.step_reached hempty hreached]
        exact .stopped (Nat.lt_succ_self passed) (hcount ▸ hempty) htotal.symm hreached before
      · rw [if_neg hempty] at hlast
        rw [Scan.step_short hempty hreached]
        exact .running htotal.symm hlast.symm (hbefore fun _ ↦ hreached)

theorem isScanOf_scan (hpassed : passed ≤ h.length) :
    IsScanOf h cutoff passed (h.scan cutoff passed) := by
  induction passed with
  | zero => exact .running rfl rfl fun earlier hearlier ↦ absurd hearlier (Nat.not_lt_zero earlier)
  | succ passed ih =>
    rw [scan_succ hpassed]
    exact (ih (Nat.le_of_succ_le hpassed)).step hpassed

/-! ## The end of the scan -/

/-- A scan to the end of the histogram answers with the quantile, also where it has not stopped. -/
theorem answer_scan (h : Histogram) (level : Binary64) :
    (h.scan (level.clamped * h.total) h.length).answer = h.quantile level := by
  have hscan := @isScanOf_scan h (level.clamped * h.total) h.length le_rfl
  rw [quantile, reaches_eq, ← resume_scan le_rfl]
  generalize h.scan (level.clamped * h.total) h.length = s at hscan ⊢
  cases hscan with
  | running observed_eq last_eq before =>
    rw [List.take_length] at last_eq
    rw [Scan.resume, List.drop_length]
    exact last_eq
  | stopped seen nonEmpty observed_eq reached before => rfl

/-- All observations have been seen when the last bucket that is not empty is passed. -/
theorem cumulative_of_isGreatest {last : Nat} (hpos : 0 < h.total)
    (hlast : IsGreatest h.support last) : h.cumulative last = h.total := by
  have hall : h.cumulative h.length = h.total := cumulative_of_length_le (Nat.le_succ _)
  obtain ⟨bucket, -, hne, hsame⟩ := exists_nonEmpty_le (hall ▸ hpos)
  apply le_antisymm (h.cumulative_le_total last)
  calc
    h.total = h.cumulative bucket := by rw [hsame, hall]
    _ ≤ h.cumulative last := h.cumulative_mono (hlast.2 hne)

/-- A cutoff that all observations reach stops the scan at the latest at the last bucket that is not
empty. -/
theorem exists_scan_eq_stopped {last : Nat} (hpos : 0 < h.total) (hcutoff : cutoff ≤ h.total)
    (hlast : IsGreatest h.support last) :
    ∃ bucket ≤ last, h.scan cutoff (last + 1) = .stopped (h.cumulative bucket) bucket := by
  have hscan := @isScanOf_scan h cutoff (last + 1) (lt_length_of_getD_ne_zero hlast.1)
  generalize h.scan cutoff (last + 1) = s at hscan ⊢
  cases hscan with
  | running observed_eq last_eq before =>
    have hshort := before last (Nat.lt_succ_self last) hlast.1
    rw [cumulative_of_isGreatest hpos hlast] at hshort
    exact absurd hcutoff hshort.not_ge
  | @stopped observed bucket seen nonEmpty observed_eq reached before =>
    exact ⟨bucket, Nat.le_of_lt_succ seen, by rw [observed_eq, cumulative]⟩

/-- The scan for a quantile always stops.  Every level is taken to a finite number, whose share of the
total is a cutoff between zero and the total.  After any number of buckets the scan has counted exactly
the observations in them, and at the latest at the last bucket that is not empty it stops, at the
quantile. -/
theorem scan_stops {counts : Value} (hcounts : ofValue counts = .ok h) (hpos : 0 < h.total)
    (level : Binary64) :
    ∃ share cutoff : ℚ, level.intoUnitInterval.fraction? = some share ∧
      cutoff = share * h.total ∧ cutoff ∈ Set.Icc 0 (h.total : ℚ) ∧
      (∀ passed ≤ h.length, IsScanOf h cutoff passed (h.scan cutoff passed) ∧
        (h.scan cutoff passed).resume cutoff h passed =
          firstReaching (reaches level h.total) 0 0 h) ∧
      ∃ last bucket, IsGreatest h.support last ∧ bucket ≤ last ∧
        (∀ passed, last < passed →
          h.scan cutoff passed = .stopped (h.cumulative bucket) bucket) ∧
        firstReaching (reaches level h.total) 0 0 h = some bucket ∧
        quantileOf counts (.float level) = .ok bucket := by
  have hcutoff := clamped_mul_mem_Icc level h.total
  obtain ⟨-, last, -, hlast⟩ := exists_isLeast_isGreatest hpos
  obtain ⟨bucket, hle, hstopped⟩ := exists_scan_eq_stopped hpos hcutoff.2 hlast
  have hend : h.scan (level.clamped * h.total) h.length = .stopped (h.cumulative bucket) bucket :=
    scan_of_stopped (lt_length_of_getD_ne_zero hlast.1) hstopped
  refine ⟨level.clamped, _, fraction?_intoUnitInterval level, rfl, hcutoff, fun passed hpassed ↦ ?_,
    last, bucket, hlast, hle, fun passed hpassed ↦ scan_of_stopped hpassed hstopped, ?_, ?_⟩
  · rw [reaches_eq]
    exact ⟨isScanOf_scan hpassed, resume_scan hpassed⟩
  · rw [reaches_eq, ← resume_scan le_rfl, hend, Scan.resume]
  · rw [quantileOf_of_ofValue hcounts hpos, ← answer_scan, hend, Scan.answer]

/-- What is no number stops the scan at the last bucket that is not empty, and the negative zero and the
least positive number at the first one. -/
theorem scan_stops_at_extreme_levels :
    let h : Histogram := [0, 2, 0, 2, 0]
    let negativeZero : Binary64 := .finite ⟨true, 0, by decide⟩
    let leastPositive : Binary64 := .finite ⟨false, 1, by decide⟩
    ofValue h.toValue = .ok h ∧ 0 < h.total ∧
      (∃ share, (Binary64.nan 0).intoUnitInterval.fraction? = some share ∧
        h.scan (share * h.total) 4 = .stopped 4 3) ∧
      (∃ share, negativeZero.intoUnitInterval.fraction? = some share ∧
        h.scan (share * h.total) 4 = .stopped 2 1) ∧
      ∃ share, leastPositive.intoUnitInterval.fraction? = some share ∧
        h.scan (share * h.total) 4 = .stopped 2 1 := by
  intro h negativeZero leastPositive
  have hcounts : ofValue h.toValue = .ok h := ofValue_toValue h
  have hpos : 0 < h.total := by decide
  have hstops (level : Binary64) (bucket : Nat)
      (hquantile : quantileOf h.toValue (.float level) = .ok bucket) :
      ∃ share, level.intoUnitInterval.fraction? = some share ∧
        h.scan (share * h.total) 4 = .stopped (h.cumulative bucket) bucket := by
    obtain ⟨share, cutoff, hshare, rfl, -, -, last, bucket', hlast, -, hstopped, -, hquantile'⟩ :=
      scan_stops hcounts hpos level
    cases hquantile.symm.trans hquantile'
    have hlt : last < 5 := lt_length_of_getD_ne_zero hlast.1
    have hne : last ≠ 4 := by
      rintro rfl
      exact hlast.1 rfl
    exact ⟨share, hshare, hstopped 4 (by omega)⟩
  exact ⟨hcounts, hpos, hstops (.nan 0) 3 (by decide +kernel),
    hstops negativeZero 1 (by decide +kernel), hstops leastPositive 1 (by decide +kernel)⟩

end Histogram

end BucketStats

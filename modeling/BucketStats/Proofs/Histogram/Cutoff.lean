import BucketStats.Proofs.Histogram.Checked
import BucketStats.Proofs.Histogram.Quantile
/-!
# Quantiles by their definition

A share of the total is a cutoff, and a cutoff has one bucket: it is not empty, the observations up to
it reach the cutoff, and those up to an earlier bucket that is not empty do not.  The quantile at a
level is the bucket of the level's share.
-/

namespace BucketStats.Histogram

/-- Whether a bucket is the one at a share of the total.  Past the share zero the empty buckets need
not be left out, as none of them is the first to reach the cutoff. -/
structure IsQuantile (h : Histogram) (share : ℚ) (bucket : Nat) : Prop where
  nonEmpty : 0 < h.getD bucket 0
  reached : share * h.total ≤ h.cumulative bucket
  before : ∀ earlier < bucket, 0 < h.getD earlier 0 →
    (h.cumulative earlier : ℚ) < share * h.total
  least : 0 < share → IsLeast {index | share * h.total ≤ h.cumulative index} bucket

variable {h : Histogram}

theorem IsQuantile.unique {share : ℚ} {bucket bucket' : Nat} (hb : h.IsQuantile share bucket)
    (hb' : h.IsQuantile share bucket') : bucket = bucket' := by
  rcases lt_trichotomy bucket bucket' with hlt | heq | hgt
  · exact absurd (hb'.before bucket hlt hb.nonEmpty) hb.reached.not_gt
  · exact heq
  · exact absurd (hb.before bucket' hgt hb'.nonEmpty) hb'.reached.not_gt

/-- A positive cutoff is what the threshold rounds up. -/
theorem threshold_le_iff {level : Binary64} {total : Nat} (hcutoff : 0 < level.clamped * total)
    (observed : Nat) : threshold level total ≤ observed ↔ level.clamped * total ≤ observed := by
  have hone : 1 ≤ ⌈level.clamped * total⌉₊ := Nat.one_le_ceil_iff.2 hcutoff
  rw [threshold, max_eq_right hone, Nat.ceil_le]

theorem isQuantile_quantile (hpos : 0 < h.total) (level : Binary64) :
    h.IsQuantile level.clamped (h.quantile level) := by
  obtain ⟨⟨hne, hreached⟩, hleast⟩ := quantile_isLeast hpos level
  refine ⟨Nat.pos_of_ne_zero hne, hreached, ?_, fun hshare ↦ ⟨hreached, ?_⟩⟩
  · intro earlier hlt hearlier
    by_contra hcutoff
    exact hlt.not_ge (hleast ⟨hearlier.ne', not_lt.1 hcutoff⟩)
  · intro index hindex
    have hcutoff : 0 < level.clamped * h.total := mul_pos hshare (Nat.cast_pos.2 hpos)
    rwa [quantile_le_iff hpos, threshold_le_iff hcutoff]

/-- Where there are observations every level has a quantile, and that is the bucket of the share that
the level is taken to. -/
theorem quantileOf_iff_isQuantile (hpos : 0 < h.total) (level : Binary64) :
    (∃ bucket, quantileOf h.toValue (.float level) = .ok bucket) ∧
      ∀ bucket, quantileOf h.toValue (.float level) = .ok bucket ↔
        h.IsQuantile level.clamped bucket := by
  have hquantile := quantileOf_toValue hpos level
  refine ⟨⟨_, hquantile⟩, fun bucket ↦ ?_⟩
  rw [hquantile, Except.ok.injEq]
  constructor
  · rintro rfl
    exact isQuantile_quantile hpos level
  · exact (isQuantile_quantile hpos level).unique

/-- The least level, the median, of which the cutoff is reached exactly, and what is no number. -/
theorem quantileOf_iff_isQuantile_of_four_observations :
    let h : Histogram := [0, 2, 0, 2, 0]
    let half : Binary64 := .finite ⟨false, 1022 * twoPow 52, by decide⟩
    quantileOf h.toValue (.float (.infinite true)) = .ok 1 ∧ h.IsQuantile 0 1 ∧
      quantileOf h.toValue (.float half) = .ok 1 ∧ h.IsQuantile (1 / 2) 1 ∧
      quantileOf h.toValue (.float (.nan 0)) = .ok 3 ∧ h.IsQuantile 1 3 := by
  intro h half
  have hpos : 0 < h.total := by decide
  have hhalf : half.clamped = 1 / 2 := by
    have hvalue : Binary64.Finite.value ⟨false, 1022 * twoPow 52, by decide⟩ = 1 / 2 :=
      Binary64.magnitude_rankOfHalf
    rw [clamped_of_mem_unitInterval (by rw [hvalue]; norm_num) (by rw [hvalue]; norm_num), hvalue]
  have hleast : quantileOf h.toValue (.float (.infinite true)) = .ok 1 := by decide +kernel
  have hmedian : quantileOf h.toValue (.float half) = .ok 1 := by decide +kernel
  have hnan : quantileOf h.toValue (.float (.nan 0)) = .ok 3 := by decide +kernel
  refine ⟨hleast, ((quantileOf_iff_isQuantile hpos _).2 1).1 hleast, hmedian, ?_, hnan,
    ((quantileOf_iff_isQuantile hpos _).2 3).1 hnan⟩
  rw [← hhalf]
  exact ((quantileOf_iff_isQuantile hpos _).2 1).1 hmedian

end BucketStats.Histogram

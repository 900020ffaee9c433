import BucketStats.Proofs.Binary64.Order
import BucketStats.Proofs.Histogram.Checked
import BucketStats.Proofs.Histogram.Quantile
import BucketStats.Proofs.Workbook.Buckets
import BucketStats.Proofs.Workbook.Summary
/-!
# Shares and quantiles

A bucket sheet shows rounded shares, while quantiles are found by exact comparison.  The two never
contradict each other: the shares rise past a level at the quantile's bucket.  A level is a binary64
number itself, so rounding a share does not move it from one side of the level to the other, however
many observations fall together on one number.
-/

namespace BucketStats

namespace Histogram

variable {h : Histogram} {level : Binary64}

theorem clamped_le_share (hpos : 0 < h.total) (level : Binary64) :
    level.clamped ≤ h.share (h.quantile level) := by
  have hreached := (quantile_isLeast hpos level).1.2
  rwa [share, le_div_iff₀ (Nat.cast_pos.2 hpos)]

/-- An earlier bucket has at most the share that the level asks for, be it empty or not. -/
theorem share_le_clamped (hpos : 0 < h.total) {earlier : Nat} (hlt : earlier < h.quantile level) :
    h.share earlier ≤ level.clamped := by
  have hbelow : h.cumulative earlier < threshold level h.total := by
    rwa [← not_le, ← quantile_le_iff hpos, not_le]
  rw [share, div_le_iff₀ (Nat.cast_pos.2 hpos)]
  rcases lt_max_iff.1 hbelow with hnone | hsome
  · calc
      (h.cumulative earlier : ℚ) = 0 := by exact_mod_cast Nat.lt_one_iff.1 hnone
      _ ≤ level.clamped * h.total := mul_nonneg (clamped_nonneg level) (Nat.cast_nonneg _)
  · exact (Nat.lt_ceil.1 hsome).le

end Histogram

/-- A level in the unit interval is its magnitude. -/
theorem Binary64.exists_finite_of_inUnitInterval {level : Binary64}
    (hlevel : level.inUnitInterval = true) : ∃ x : Binary64.Finite, level = .finite x ∧
      x.value = Binary64.magnitude x.rank ∧ level.clamped = x.value := by
  obtain ⟨p, hp, hmem⟩ := Binary64.inUnitInterval_iff.1 hlevel
  cases level with
  | finite x =>
    cases hp
    have hnonneg : 0 ≤ x.value := by exact_mod_cast hmem.1
    have hle : x.value ≤ 1 := by exact_mod_cast hmem.2
    refine ⟨x, rfl, ?_, Histogram.clamped_of_mem_unitInterval hnonneg hle⟩
    rw [← x.abs_value, abs_of_nonneg hnonneg]
  | infinite negative => cases hlevel
  | nan payload => cases hlevel

/-- Whether the shares of a bucket sheet rise past a level at a bucket.  The row of a bucket stands
below the header, and its share in the fifth column. -/
structure Sheet.PassesAt (s : Sheet) (level : Binary64) (bucket : Nat) : Prop where
  reached : ∃ share, s.cell? (bucket + 1) 4 = some (.float share) ∧ level.IsAtMost share
  before : ∀ earlier < bucket,
    ∃ share, s.cell? (earlier + 1) 4 = some (.float share) ∧ share.IsAtMost level

namespace Workbook

variable {run : Run} {sheet : Sheet} {title : String} {level : Binary64}

/-! ## Bucket sheets -/

theorem exists_quotient_of_le {observed total : Nat} (hpos : 0 < total) (hle : observed ≤ total) :
    ∃ share, quotient observed total = .ok share := by
  have hrank : Binary64.rankOfQuotient observed total < Binary64.overflowRank := by
    apply Binary64.rankOfQuotient_lt_overflowRank hpos (Nat.zero_le 1023)
    rwa [pow_zero, one_mul]
  exact ⟨_, quotient_natCast hpos hrank⟩

theorem exists_bucketRowsFrom {total : Nat} (hpos : 0 < total) {h : Histogram} {before : Nat}
    (hle : before + h.total ≤ total) (bucket : Nat) :
    ∃ rows, bucketRowsFrom total bucket before h = .ok rows := by
  induction h generalizing bucket before with
  | nil => exact ⟨[], rfl⟩
  | cons count rest ih =>
    rw [Histogram.total_cons, ← Nat.add_assoc] at hle
    obtain ⟨share, hshare⟩ := exists_quotient_of_le hpos ((Nat.le_add_right _ _).trans hle)
    obtain ⟨rows, hrows⟩ := ih hle (bucket + 1)
    unfold bucketRowsFrom bucketRow
    rw [hshare, ok_bind, ok_bind, hrows, ok_bind]
    exact ⟨_, rfl⟩

/-- Every run with observations has a bucket sheet. -/
theorem exists_bucketSheet (hpos : 0 < run.counts.total) (title : String) :
    ∃ sheet, bucketSheet title run = .ok sheet := by
  obtain ⟨rows, hrows⟩ := exists_bucketRowsFrom hpos (Nat.zero_add _).le 0
  unfold bucketSheet
  rw [hrows, ok_bind]
  exact ⟨_, rfl⟩

theorem exists_share_of_bucketSheet (hpos : 0 < run.counts.total)
    (hsheet : bucketSheet title run = .ok sheet) {bucket : Nat}
    (hbucket : bucket < run.counts.length) :
    ∃ share, sheet.cell? (bucket + 1) 4 = some (.float (.finite share)) ∧
      Binary64.RoundsTo (run.counts.share bucket) share := by
  obtain ⟨-, share, hshares, hrows⟩ := exists_rows_of_bucketSheet hpos hsheet
  refine ⟨share bucket, ?_, hshares bucket hbucket⟩
  rw [Sheet.cell?, Sheet.cells, List.getElem?_cons_succ, hrows, List.getElem?_mapIdx,
    List.getElem?_eq_getElem hbucket]
  rfl

/-- Rounding keeps both sides of the level where they are. -/
theorem passesAt_of_bucketSheet (hpos : 0 < run.counts.total) (hlevel : level.inUnitInterval = true)
    (hsheet : bucketSheet title run = .ok sheet) :
    sheet.PassesAt level (run.counts.quantile level) := by
  obtain ⟨x, rfl, hvalue, hclamped⟩ := Binary64.exists_finite_of_inUnitInterval hlevel
  have hlt := Histogram.lt_length_of_getD_ne_zero (Histogram.quantile_isLeast hpos (.finite x)).1.1
  constructor
  · obtain ⟨share, hshare, hrounds⟩ := exists_share_of_bucketSheet hpos hsheet hlt
    refine ⟨.finite share, hshare, ?_⟩
    have hreached := Histogram.clamped_le_share hpos (.finite x)
    rw [hclamped, hvalue] at hreached
    rw [Binary64.isAtMost_finite_iff, hvalue]
    exact hrounds.magnitude_le_value hreached
  · intro earlier hearlier
    obtain ⟨share, hshare, hrounds⟩ :=
      exists_share_of_bucketSheet hpos hsheet (hearlier.trans hlt)
    refine ⟨.finite share, hshare, ?_⟩
    have hbefore := Histogram.share_le_clamped hpos hearlier
    rw [hclamped, hvalue] at hbefore
    rw [Binary64.isAtMost_finite_iff, hvalue]
    exact hrounds.value_le_magnitude hbefore

/-! ## Workbooks -/

/-- A workbook that is saved holds the bucket sheet of each run, after the summary sheet. -/
theorem exists_bucketSheet_of_write {library : Library} {refusal : Option Fault}
    {items : List Value} {quantiles precision : Value} {path : String} {summaries : List Summary}
    {book : Workbook}
    (hwrite : (library.write refusal (.list items) quantiles precision path).result =
      .ok (summaries, book))
    {runs : List Run} (hruns : items.mapM Run.ofValue = .ok runs) {k : Nat}
    (hrun : runs[k]? = some run) :
    ∃ sheet, book.sheets[k + 1]? = some sheet ∧
      bucketSheet (bucketTitle runs.length (k + 1)) run = .ok sheet := by
  obtain ⟨levels, found, labels, first, others, -, hfound, -, -, -, hothers, rfl⟩ :=
    exists_sheets_of_write hwrite
  obtain rfl : found.map (·.1) = runs :=
    Except.ok.inj ((runs_of_summarizeRuns hfound).1.symm.trans hruns)
  have hindexed : (found.map (·.1)).zipIdx[k]? = some (run, k) := by
    rw [List.getElem?_zipIdx, hrun, Nat.zero_add]
    rfl
  have hsheets : List.Forall₂ _ (found.map (·.1)).zipIdx others := forall₂_of_populateAll hothers
  obtain ⟨sheet, hsheet, hbuckets⟩ := exists_getElem?_of_forall₂ hsheets hindexed
  exact ⟨sheet, hsheet, hbuckets⟩

/-- The quantile at a level and the shares of a bucket sheet agree: the share in the quantile's row
is at least the level, and in each row before it at most the level.  That holds of the bucket sheet
of every run with observations, and of its sheet in every workbook that is saved. -/
theorem shares_pass_level_at_quantile (hpos : 0 < run.counts.total)
    (hlevel : level.inUnitInterval = true) :
    ∃ bucket, Histogram.quantileOf run.counts.toValue (.float level) = .ok bucket ∧
      (∀ title, ∃ sheet, bucketSheet title run = .ok sheet ∧ sheet.PassesAt level bucket) ∧
      ∀ (library : Library) refusal items quantiles precision path summaries book runs k,
        (library.write refusal (.list items) quantiles precision path).result = .ok (summaries, book) →
        items.mapM Run.ofValue = .ok runs → runs[k]? = some run →
        ∃ sheet, book.sheets[k + 1]? = some sheet ∧ sheet.PassesAt level bucket := by
  refine ⟨_, Histogram.quantileOf_toValue hpos level, ?_, ?_⟩
  · intro title
    obtain ⟨sheet, hsheet⟩ := exists_bucketSheet hpos title
    exact ⟨sheet, hsheet, passesAt_of_bucketSheet hpos hlevel hsheet⟩
  · intro library refusal items quantiles precision path summaries book runs k hwrite hruns hrun
    obtain ⟨sheet, hmem, hsheet⟩ := exists_bucketSheet_of_write hwrite hruns hrun
    exact ⟨sheet, hmem, passesAt_of_bucketSheet hpos hlevel hsheet⟩

/-- The median of so many observations that the shares of two buckets are one number. -/
theorem shares_pass_level_at_median :
    let run : Run := ⟨.text "huge", [tenPow 20, 1, tenPow 20]⟩
    let half : Binary64 := .finite ⟨false, 1022 * twoPow 52, by decide⟩
    let written := write none (.list [run.toValue]) (.list [.float half]) (.int 4) "out.xlsx"
    0 < run.counts.total ∧ half.inUnitInterval = true ∧
      Histogram.quantileOf run.counts.toValue (.float half) = .ok 1 ∧
      ∃ saved sheet, written.result = .ok saved ∧ saved.2.sheets[1]? = some sheet ∧
        sheet.cell? 1 4 = some (.float half) ∧ sheet.cell? 2 4 = some (.float half) ∧
        sheet.PassesAt half 1 := by
  intro run half written
  have hpos : 0 < run.counts.total := by decide +kernel
  have hlevel : half.inUnitInterval = true := by decide +kernel
  have hmedian : Histogram.quantileOf run.counts.toValue (.float half) = .ok 1 := by
    decide +kernel
  have hruns : [run.toValue].mapM Run.ofValue = .ok [run] := Run.mapM_ofValue_toValue [run]
  have hcells : (written.result.toOption.bind fun saved ↦ saved.2.sheets[1]?).map
      (fun sheet ↦ (sheet.cell? 1 4, sheet.cell? 2 4)) =
        some (some (.float half), some (.float half)) := by
    decide +kernel
  obtain ⟨bucket, hbucket, -, hsheets⟩ := shares_pass_level_at_quantile hpos hlevel
  obtain rfl : 1 = bucket := Except.ok.inj (hmedian.symm.trans hbucket)
  cases hsaved : written.result with
  | error fault =>
    rw [hsaved] at hcells
    cases hcells
  | ok saved =>
    obtain ⟨sheet, hsheet, hpasses⟩ := hsheets .standard none _ _ _ _ _ _ _ 0 hsaved hruns rfl
    rw [hsaved, Except.toOption, Option.bind_some, hsheet, Option.map_some] at hcells
    obtain ⟨hfirst, hsecond⟩ := Prod.mk.inj (Option.some.inj hcells)
    exact ⟨hpos, hlevel, hmedian, saved, sheet, rfl, hsheet, hfirst, hsecond, hpasses⟩

end Workbook

end BucketStats

import BucketStats.Proofs.Command.Counts
import BucketStats.Proofs.Command.Settings
import BucketStats.Proofs.Command.Texts
import BucketStats.Proofs.Decimal.Written
/-!
# Quantiles as they are written

A quantile on the command line is a decimal numeral, and the bucket that is reported for it belongs
to the binary64 number nearest to it.  The share of the total is then exact, so the bucket is that
of the decimal itself unless the cumulative count of some bucket lies between the two shares.
-/

namespace BucketStats

open Binary64 Decimal

/-! ## Levels -/

section Levels

variable {d : ℚ} {level : Binary64.Finite}

theorem inUnitInterval_of_value_le_one (hsign : level.negative = false) (hle : level.value ≤ 1) :
    (Binary64.finite level).inUnitInterval = true := by
  have hunits : units level.rank ≤ unitsPerOne := by
    rw [Finite.value, hsign] at hle
    exact (magnitude_le_one_iff level.rank).1 hle
  simp [inUnitInterval, hsign, hunits]

/-- The bucket at a level of the unit interval is the least one that reaches the level's share. -/
theorem Histogram.quantile_isLeast_of_roundsTo {h : Histogram} (hpos : 0 < h.total)
    (hlevel : RoundsTo d level) (hd : d ≤ 1) :
    IsLeast (h.reaching (level.value * h.total)) (h.quantile (.finite level)) := by
  have hleast := Histogram.quantile_isLeast hpos (.finite level)
  rwa [Histogram.clamped_of_mem_unitInterval hlevel.value_nonneg (hlevel.value_le_one hd)] at hleast

end Levels

namespace Command

/-! ## The option -/

section Arguments

variable {program : String} {files : Files} {counts : List Int} {d : ℚ} {numeral : String}
  {level : Binary64.Finite}

theorem gives_quantile (hnumeral : IsNumeralOf d numeral.toList) (hlevel : RoundsTo d level) :
    Gives ["--quantile", numeral]
      { Request.empty with quantiles := [.value (.finite level)] } := by
  have hquantile : classify "--quantile" = .ok (.option .quantile "--quantile" none) := by decide
  obtain ⟨c, rest, hhead, hhyphen⟩ := exists_head_of_isNumeralOf hnumeral
  have hoperand := classify_of_ne_hyphen hhead hhyphen
  have hseparator : numeral ≠ "--" := by
    rintro rfl
    exact classify_separator _ hoperand
  have hread : readQuantile numeral = .ok (.value (.finite level)) := by
    obtain ⟨negative, rank, hrank⟩ := level
    obtain rfl : negative = false := hlevel.nonnegative
    unfold readQuantile
    rw [given_of_ne hseparator]
    simp only [readDecimal_of_isNumeralOf hnumeral hlevel.nearest, ofRank_of_lt false hrank]
  apply gives_separate hquantile rfl hoperand
  intro r
  rw [Request.setValue, hread]
  rfl

/-- Counts with one quantile after them are read as they are without it. -/
theorem readArguments_quantile (hnumeral : IsNumeralOf d numeral.toList) (hlevel : RoundsTo d level)
    (counts : List Int) :
    readArguments (counts.map toString ++ ["--quantile", numeral]) =
      (readArguments (counts.map toString)).map
        (·.withSettings { Request.empty with quantiles := [.value (.finite level)] }) := by
  have hseparator : "--" ∉ counts.map toString := by
    rw [List.mem_map]
    rintro ⟨n, _, hn⟩
    exact toString_ne_separator n hn
  have hkeeps : ∀ s ∈ counts.map toString ++ [], KeepsSettings s := by
    rw [List.append_nil, List.forall_mem_map]
    exact fun n _ ↦ keepsSettings_toString n
  have hread := readArguments_of_gives (gives_quantile hnumeral hlevel) hseparator hkeeps
  rwa [List.append_nil, readAround_nil] at hread

theorem readArguments_plain (hnumeral : IsNumeralOf d numeral.toList) (hlevel : RoundsTo d level)
    (hlimit : ∀ n ∈ counts, WithinLimit n) :
    readArguments (counts.map toString ++ ["--quantile", numeral]) =
      .ok (Request.plain counts [.finite level]) := by
  rw [readArguments_quantile hnumeral hlevel, readArguments_toString hlimit]
  rfl

/-- A count of too many digits is no count. -/
theorem result_of_not_withinLimit (hnumeral : IsNumeralOf d numeral.toList)
    (hlevel : RoundsTo d level) (hcount : ∃ n ∈ counts, ¬ WithinLimit n) :
    (run program files (counts.map toString ++ ["--quantile", numeral])).result = .ok 2 := by
  obtain ⟨m, hm⟩ := misuse_of_not_withinLimit hcount
  have hread : readArguments (counts.map toString ++ ["--quantile", numeral]) =
      .error (.misuse m) := by
    rw [readArguments_quantile hnumeral hlevel, hm]
    rfl
  rw [run, hread]

end Arguments

/-! ## The report -/

section Report

variable {program : String} {files : Files} {arguments : List String} {h : Histogram}
  {levels : List Binary64}

/-- No count has more digits than the total. -/
theorem withinLimit_of_total (htotal : WithinLimit h.total) :
    ∀ n ∈ h.map fun (count : Nat) ↦ (count : Int), WithinLimit n := by
  rw [List.forall_mem_map]
  intro count hcount
  rw [h.total_eq_sum] at htotal
  exact withinLimit_of_le (List.le_sum_of_mem hcount) htotal

/-- What is reported can be written. -/
theorem withinLimit_of_result (hread : readArguments arguments =
      .ok (Request.plain (h.map fun (count : Nat) ↦ (count : Int)) levels))
    (hend : (run program files arguments).result = .ok 0) :
    WithinLimit h.total ∧ WithinLimit h.weightedSum := by
  obtain ⟨report, text, hprepare, _, htext, _⟩ := exists_report hread hend
  obtain ⟨_, h', hcounts, hsummary⟩ := exists_run_of_prepare hprepare
  obtain rfl : h = h' := List.map_injective_iff.2 Nat.cast_injective hcounts
  obtain ⟨_, mean, _, hfigures⟩ := Run.summarize_eq_ok_iff.1 hsummary
  obtain ⟨lines, hlines, _⟩ := bind_eq_ok_iff.1 htext
  obtain ⟨⟨hsum, hcount, _⟩, _⟩ := reportLines_eq_ok_iff.1 hlines
  rw [hfigures] at hsum hcount
  exact ⟨hcount, hsum⟩

/-- Where the totals can be written, there is a report. -/
theorem run_of_plain (hread : readArguments arguments =
      .ok (Request.plain (h.map fun (count : Nat) ↦ (count : Int)) levels))
    (hlevels : ∀ level ∈ levels, level.inUnitInterval = true) (hpos : 0 < h.total)
    (hlength : h.length < Histogram.indexLimit) (hcount : WithinLimit h.total)
    (hsum : WithinLimit h.weightedSum) :
    (run program files arguments).result = .ok 0 ∧ ∃ mean : Binary64.Finite,
      IsNearest ((h.weightedSum : ℚ) / h.total) mean ∧
      (run program files arguments).output =
        String.join ((plainLines h (.finite mean) levels).map (· ++ "\n")) := by
  obtain ⟨rank, hrank, hmean, hnearest⟩ := exists_mean hpos (Nat.le_of_lt hlength)
  have hbuckets :=
    withinLimit_of_mem_quantileEntries hpos hlength (.text Defaults.builtinLabel) levels
  rw [run_of_request hread, execute_of_histogram hlevels rfl hpos hcount hsum hbuckets hmean]
  refine ⟨rfl, _, hnearest, ?_⟩
  simp [Outcome.output, Event.output]

end Report

/-- A single quantile after the counts is rounded to the nearest number, and the bucket reported for
it is the least one that is not empty and reaches that number's share of the total.  It is the bucket
of the decimal as it is written exactly if the decimal's own share is reached at the same buckets.
There is a report if the totals can be written.  No list is as long as `Histogram.indexLimit`. -/
theorem run_quantile_numeral (program : String) (files : Files) {h : Histogram} {d : ℚ}
    {numeral : String} (hnumeral : IsNumeralOf d numeral.toList) (hd : d ≤ 1) (hpos : 0 < h.total)
    (hlength : h.length < Histogram.indexLimit) :
    let outcome := run program files
      (h.map (fun (count : Nat) ↦ toString count) ++ ["--quantile", numeral])
    ∃ (level : Binary64.Finite) (bucket : Nat), level.negative = false ∧ IsNearest d level ∧
      IsLeast (h.reaching (level.value * h.total)) bucket ∧
      (IsLeast (h.reaching (d * h.total)) bucket ↔
        h.reaching (d * h.total) = h.reaching (level.value * h.total)) ∧
      (outcome.result = .ok 0 ↔ WithinLimit h.total ∧ WithinLimit h.weightedSum) ∧
      (outcome.result = .ok 0 → ∃ mean : Binary64.Finite,
        IsNearest ((h.weightedSum : ℚ) / h.total) mean ∧
        outcome.output = String.join ([s!"sum {h.weightedSum} {h.total}",
          s!"mean {String.ofList (writeFixed Defaults.builtinPrecision (.finite mean))}",
          s!"{levelLabel (.finite level)} {bucket}"].map (· ++ "\n"))) := by
  intro outcome
  have hd₀ := nonneg_of_isNumeralOf hnumeral
  obtain ⟨level, hlevel⟩ := exists_roundsTo hd₀ hd
  have hleast := Histogram.quantile_isLeast_of_roundsTo hpos hlevel hd
  have hlevels : ∀ x ∈ [Binary64.finite level], x.inUnitInterval = true :=
    List.forall_mem_singleton.2
      (inUnitInterval_of_value_le_one hlevel.nonnegative (hlevel.value_le_one hd))
  have harguments : h.map (fun (count : Nat) ↦ toString count) =
      (h.map fun (count : Nat) ↦ (count : Int)).map toString := by
    rw [List.map_map]
    rfl
  refine ⟨level, _, hlevel.nonnegative, hlevel.isNearest hd₀, hleast,
    Histogram.isLeast_reaching_iff hleast, ?_⟩
  simp only [outcome, harguments]
  by_cases hlimit : ∀ n ∈ h.map fun (count : Nat) ↦ (count : Int), WithinLimit n
  · have hread := readArguments_plain hnumeral hlevel hlimit
    refine ⟨⟨withinLimit_of_result hread, fun ⟨hcount, hsum⟩ ↦ ?_⟩, fun hend ↦ ?_⟩
    · exact (run_of_plain hread hlevels hpos hlength hcount hsum).1
    · obtain ⟨hcount, hsum⟩ := withinLimit_of_result hread hend
      exact (run_of_plain hread hlevels hpos hlength hcount hsum).2
  · -- neither can such a count be read nor the total be written
    have hfails : ¬ WithinLimit h.total := fun htotal ↦ hlimit (withinLimit_of_total htotal)
    have hcount : ∃ n ∈ h.map fun (count : Nat) ↦ (count : Int), ¬ WithinLimit n := by
      by_contra hall
      exact hlimit fun n hn ↦ by_contra fun hout ↦ hall ⟨n, hn, hout⟩
    rw [result_of_not_withinLimit hnumeral hlevel hcount]
    refine ⟨⟨fun hend ↦ absurd hend (by decide), fun hfits ↦ absurd hfits.1 hfails⟩, fun hend ↦ ?_⟩
    exact absurd hend (by decide)

theorem isNumeralOf_half : IsNumeralOf (1 / 2) "0.5".toList := by
  have hdigits : valueOf (['0'] ++ ['5']) = 5 := rfl
  apply @isNumeralOf_point _ ['0'] ['5'] (.inl (List.cons_ne_nil _ _))
    (List.forall_mem_singleton.2 rfl) (List.forall_mem_singleton.2 rfl)
  rw [hdigits]
  norm_num

/-- A half is a binary64 number. -/
theorem run_quantile_numeral_of_half :
    let h : Histogram := [0, 1, 1]
    let outcome := run "histogram-mean" (Directory.toFiles []) ["0", "1", "1", "--quantile", "0.5"]
    ∃ (level : Binary64.Finite) (bucket : Nat), IsNearest (1 / 2) level ∧
      IsLeast (h.reaching (level.value * h.total)) bucket ∧ outcome.result = .ok 0 ∧
      ∃ mean : Binary64.Finite, outcome.output = String.join (["sum 3 2",
        s!"mean {String.ofList (writeFixed Defaults.builtinPrecision (.finite mean))}",
        s!"{levelLabel (.finite level)} {bucket}"].map (· ++ "\n")) := by
  obtain ⟨level, bucket, _, hnearest, hleast, _, hresult, houtput⟩ :=
    @run_quantile_numeral "histogram-mean" (Directory.toFiles []) [0, 1, 1] (1 / 2) "0.5"
      isNumeralOf_half (by norm_num) (by decide) (by decide +kernel)
  have hend := hresult.2 ⟨by decide, by decide⟩
  obtain ⟨mean, _, htext⟩ := houtput hend
  exact ⟨level, bucket, hnearest, hleast, hend, mean, htext⟩

/-- The number nearest to a tenth is greater, so a tenth of ten observations is reported one bucket
late. -/
theorem tenth_of_ten_reported_late :
    let h : Histogram := [1, 9]
    let outcome := run "histogram-mean" (Directory.toFiles []) ["1", "9", "--quantile", "0.1"]
    IsNumeralOf (1 / 10) "0.1".toList ∧ IsLeast (h.reaching (1 / 10 * h.total)) 0 ∧
      outcome.result = .ok 0 ∧ outcome.output = "sum 9 10\nmean 0.9000\nq0.1 1\n" := by
  refine ⟨?_, ⟨⟨by decide, ?_⟩, fun bucket _ ↦ Nat.zero_le bucket⟩, by decide +kernel,
    by decide +kernel⟩
  · have hdigits : valueOf (['0'] ++ ['1']) = 1 := rfl
    apply @isNumeralOf_point _ ['0'] ['1'] (.inl (List.cons_ne_nil _ _))
      (List.forall_mem_singleton.2 rfl) (List.forall_mem_singleton.2 rfl)
    rw [hdigits]
    norm_num
  · norm_num [Histogram.total, Histogram.cumulative]

end Command

end BucketStats

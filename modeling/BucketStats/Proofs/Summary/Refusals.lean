import BucketStats.Proofs.Summary.Quantiles
/-!
# What quantiles refuse

A quantile reads and checks the counts as the mean does, and at a level that is a binary64 number,
`nan` and the infinities among them, nothing after the check can fail.  So the mean and the quantiles
refuse the same counts with the same fault.  In a summary the quantiles come after the mean, and
requesting them adds their entries and changes nothing else, failures included.
-/

namespace BucketStats

/-! ## Counts -/

namespace Histogram

variable {counts : Value} {level : Binary64} {fault : Fault}

/-- What a quantile does before it looks at the level is what the mean does. -/
theorem quantileOf_eq (counts : Value) (level : Binary64) :
    quantileOf counts (.float level) =
      ofValue counts >>= fun h ↦ h.weightedMean >>= fun _ ↦ .ok (h.quantile level) := by
  unfold quantileOf
  congr 1
  funext h
  unfold weightedMean
  split_ifs <;> rfl

theorem quantileOf_eq_error_iff :
    quantileOf counts (.float level) = .error fault ↔ weightedMeanOf counts = .error fault := by
  rw [quantileOf_eq, weightedMeanOf, bind_eq_error_iff, bind_eq_error_iff]
  simp [bind_eq_error_iff]

end Histogram

/-! ## Runs -/

namespace Run

/-- A run next to its summary, with the quantiles at some levels in it. -/
def withQuantiles (levels : List Binary64) (entry : Run × Summary) : Run × Summary :=
  (entry.1, { entry.2 with quantiles := entry.1.quantileEntries levels })

theorem summarize_levels (run : Run) (levels : List Binary64) :
    run.summarize (levels.map .float) =
      (run.summarize []).map fun s ↦ { s with quantiles := run.quantileEntries levels } := by
  have hquantiles : (levels.map Value.float).foldlM run.addQuantile [] =
      .ok (run.quantileEntries levels) := run.foldlM_addQuantile levels []
  unfold summarize
  cases run.counts.weightedMean with
  | error fault => rfl
  | ok totals =>
    rw [ok_bind, ok_bind]
    cases totals.mean with
    | error fault => rfl
    | ok mean =>
      rw [ok_bind, hquantiles]
      rfl

theorem readAndSummarize_levels (levels : List Binary64) (v : Value) :
    readAndSummarize (levels.map .float) v =
      (readAndSummarize [] v).map (withQuantiles levels) := by
  unfold readAndSummarize
  cases ofValue v with
  | error fault => rfl
  | ok run =>
    rw [ok_bind, ok_bind, run.summarize_levels]
    cases run.summarize [] <;> rfl

/-- The counts that a summary is of have the mean in it and a quantile at every level. -/
theorem exists_counts_of_readAndSummarize {levels : List Value} {v : Value} {entry : Run × Summary}
    (h : readAndSummarize levels v = .ok entry) :
    ∃ counts, v.item "counts" = .ok counts ∧
      Histogram.weightedMeanOf counts = .ok entry.2.totals ∧
      ∀ level, Histogram.quantileOf counts (.float level) =
        .ok (entry.1.counts.quantile level) := by
  obtain ⟨hrun, hsummary⟩ := readAndSummarize_eq_ok_iff.1 h
  obtain ⟨hpos, mean, quantiles, -, -, hentry⟩ := summarize_values_eq_ok_iff.1 hsummary
  unfold ofValue at hrun
  obtain ⟨counts, hcounts, hrun⟩ := bind_eq_ok_iff.1 hrun
  obtain ⟨label, -, hrun⟩ := bind_eq_ok_iff.1 hrun
  obtain ⟨size, -, hrun⟩ := bind_eq_ok_iff.1 hrun
  obtain ⟨counted, hcounted, hrun⟩ := bind_eq_ok_iff.1 hrun
  obtain rfl : counted = entry.1.counts := by
    rw [← Except.ok.inj hrun]
  have hmean := Histogram.weightedMean_eq_ok_iff.2 ⟨hpos, rfl⟩
  refine ⟨counts, hcounts, ?_, fun level ↦ ?_⟩
  · rw [Histogram.weightedMeanOf, hcounted, ok_bind, hmean, hentry]
  · rw [Histogram.quantileOf_eq, hcounted, ok_bind, hmean, ok_bind]

end Run

theorem summarizeRuns_levels (runs : Value) (levels : List Binary64) :
    summarizeRuns runs (.list (levels.map .float)) =
      (summarizeRuns runs (.list [])).map (List.map (Run.withQuantiles levels)) := by
  have hone : Run.readAndSummarize (levels.map .float) =
      fun v ↦ (Run.readAndSummarize [] v).map (Run.withQuantiles levels) :=
    funext (Run.readAndSummarize_levels levels)
  unfold summarizeRuns
  rw [levelsOf_list, levelsOf_list, ok_bind, ok_bind]
  cases runs.items with
  | error fault => rfl
  | ok items =>
    rw [ok_bind, ok_bind, hone]
    exact mapM_map_result _ _ items

/-- Whatever the counts and the level are, the mean and the quantile fail with the same fault or not at
all.  So summaries of which quantiles are requested fail as those without them do and differ from them
in the quantiles alone, and these are the quantiles of counts that have a mean. -/
theorem quantiles_add_no_fault :
    (∀ (counts : Value) (level : Binary64) (fault : Fault),
      Histogram.weightedMeanOf counts = .error fault ↔
        Histogram.quantileOf counts (.float level) = .error fault) ∧
    (∀ (runs : Value) (levels : List Binary64),
      summarizeRuns runs (.list (levels.map .float)) =
        (summarizeRuns runs (.list [])).map (List.map (Run.withQuantiles levels))) ∧
    ∀ (v : Value) (levels : List Value) (entry : Run × Summary),
      Run.readAndSummarize levels v = .ok entry →
        ∃ counts, v.item "counts" = .ok counts ∧
          Histogram.weightedMeanOf counts = .ok entry.2.totals ∧
          ∀ level, Histogram.quantileOf counts (.float level) =
            .ok (entry.1.counts.quantile level) :=
  ⟨fun _ _ _ ↦ Histogram.quantileOf_eq_error_iff.symm, summarizeRuns_levels,
    fun _ _ _ ↦ Run.exists_counts_of_readAndSummarize⟩

/-- At a level that is no number, counts of which one is a truth value, and a run that has a mean. -/
theorem quantiles_add_no_fault_at_nan :
    let run : Run := ⟨.text "items", [0, 2]⟩
    Histogram.quantileOf (.tuple [.int 0, .bool true]) (.float (.nan 0)) =
        .error (.countNotInteger 1 "True") ∧
      ∃ entry, Run.readAndSummarize [] run.toValue = .ok entry ∧
        summarizeRuns (.list [run.toValue]) (.list [.float (.nan 0)]) =
          .ok [Run.withQuantiles [.nan 0] entry] ∧
        ∃ counts, run.toValue.item "counts" = .ok counts ∧
          Histogram.quantileOf counts (.float (.nan 0)) = .ok (entry.1.counts.quantile (.nan 0)) := by
  intro run
  obtain ⟨hfaults, hsummaries, hcounts⟩ := quantiles_add_no_fault
  obtain ⟨summary, hsummary⟩ := @Run.exists_summary run [] (by decide) (by decide)
  have hentry : Run.readAndSummarize [] run.toValue = .ok (run, summary) :=
    Run.readAndSummarize_eq_ok_iff.2 ⟨run.ofValue_toValue, hsummary⟩
  obtain ⟨counts, hitem, -, hquantile⟩ := hcounts run.toValue [] (run, summary) hentry
  refine ⟨(hfaults _ _ _).1 (by decide +kernel), _, hentry, ?_, counts, hitem, hquantile _⟩
  have hplain : summarizeRuns (.list [run.toValue]) (.list []) = .ok [(run, summary)] := by
    rw [summarizeRuns_list, List.mapM_cons, hentry]
    rfl
  have hlevels := hsummaries (.list [run.toValue]) [.nan 0]
  rw [hplain] at hlevels
  exact hlevels

end BucketStats

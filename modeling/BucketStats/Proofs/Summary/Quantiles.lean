import BucketStats.Proofs.Entries
import BucketStats.Proofs.Histogram.Observations
import BucketStats.Proofs.Transcript
import BucketStats.Summary.Basic
/-!
# Quantiles in summaries

A summary has one entry for each label of the requested levels, and levels that share a label share
it: the bucket in it is that of the last of them.  So every level has its own bucket under its label
exactly if levels that share a label share their bucket.
-/

namespace BucketStats

/-- A run as a value. -/
def Run.toValue (run : Run) : Value :=
  .dict [(.text "label", run.label), (.text "counts", run.counts.toValue)]

@[simp]
theorem Run.ofValue_toValue (run : Run) : Run.ofValue run.toValue = .ok run := by
  have hcounts : run.toValue.item "counts" = .ok run.counts.toValue := rfl
  have hlabel : run.toValue.item "label" = .ok run.label := rfl
  have hsize : run.counts.toValue.size = .ok run.counts.length := by
    simp [Histogram.toValue, Value.size]
  unfold Run.ofValue
  rw [hcounts, ok_bind, hlabel, ok_bind, hsize, ok_bind, Histogram.ofValue_toValue, ok_bind]

theorem Run.mapM_ofValue_toValue (runs : List Run) :
    (runs.map Run.toValue).mapM Run.ofValue = .ok runs := by
  have hruns := mapM_map_eq_ok fun run (_ : run ∈ runs) ↦ run.ofValue_toValue
  rwa [List.map_id'] at hruns

/-- The quantiles of a run under their labels. -/
def Run.quantileEntries (run : Run) (levels : List Binary64) : Entries String Nat :=
  Entries.ofList (levels.map fun level ↦ (levelLabel level, run.counts.quantile level))

theorem Run.foldlM_addQuantile (run : Run) (levels : List Binary64) (found : Entries String Nat) :
    (levels.map Value.float).foldlM run.addQuantile found =
      .ok (found.putAll (levels.map fun level ↦ (levelLabel level, run.counts.quantile level))) := by
  induction levels generalizing found with
  | nil => rfl
  | cons level rest ih =>
    have hone : run.addQuantile found (.float level) =
        .ok (found.put (levelLabel level) (run.counts.quantile level)) := rfl
    rw [List.map_cons, List.foldlM_cons, hone, ok_bind, ih]
    rfl

theorem Histogram.weightedMean_eq_ok_iff {h : Histogram} {totals : WeightedMean} :
    h.weightedMean = .ok totals ↔ 0 < h.total ∧ totals = ⟨h.total, h.weightedSum⟩ := by
  unfold weightedMean
  rw [ite_error_eq_ok_iff, Nat.pos_iff_ne_zero]

/-- A summary has the totals and the mean whatever kinds of levels are requested. -/
theorem Run.summarize_values_eq_ok_iff {run : Run} {levels : List Value} {summary : Summary} :
    run.summarize levels = .ok summary ↔
      0 < run.counts.total ∧ ∃ mean quantiles,
        WeightedMean.mean ⟨run.counts.total, run.counts.weightedSum⟩ = .ok mean ∧
        levels.foldlM run.addQuantile [] = .ok quantiles ∧
        summary = ⟨run.label, run.counts.length, ⟨run.counts.total, run.counts.weightedSum⟩, mean,
          quantiles⟩ := by
  unfold Run.summarize
  rw [bind_eq_ok_iff]
  constructor
  · rintro ⟨totals, htotals, h⟩
    obtain ⟨hpos, rfl⟩ := Histogram.weightedMean_eq_ok_iff.1 htotals
    obtain ⟨mean, hmean, h⟩ := bind_eq_ok_iff.1 h
    obtain ⟨quantiles, hquantiles, h⟩ := bind_eq_ok_iff.1 h
    cases h
    exact ⟨hpos, mean, quantiles, hmean, hquantiles, rfl⟩
  · rintro ⟨hpos, mean, quantiles, hmean, hquantiles, rfl⟩
    refine ⟨_, Histogram.weightedMean_eq_ok_iff.2 ⟨hpos, rfl⟩, ?_⟩
    rw [hmean, ok_bind, hquantiles]
    rfl

theorem Run.summarize_eq_ok_iff {run : Run} {levels : List Binary64} {summary : Summary} :
    run.summarize (levels.map .float) = .ok summary ↔
      0 < run.counts.total ∧ ∃ mean,
        WeightedMean.mean ⟨run.counts.total, run.counts.weightedSum⟩ = .ok mean ∧
        summary = ⟨run.label, run.counts.length, ⟨run.counts.total, run.counts.weightedSum⟩, mean,
          run.quantileEntries levels⟩ := by
  have hquantiles : (levels.map Value.float).foldlM run.addQuantile [] =
      .ok (run.quantileEntries levels) := run.foldlM_addQuantile levels []
  rw [Run.summarize_values_eq_ok_iff, hquantiles]
  simp

/-- A level adds a bucket that is not empty. -/
theorem Run.nonEmpty_of_addQuantile {run : Run} (hpos : 0 < run.counts.total)
    {found next : Entries String Nat} {level : Value}
    (hfound : ∀ e ∈ found, run.counts.getD e.2 0 ≠ 0)
    (h : run.addQuantile found level = .ok next) : ∀ e ∈ next, run.counts.getD e.2 0 ≠ 0 := by
  obtain ⟨label, _, h⟩ := bind_eq_ok_iff.1 h
  obtain ⟨x, _, h⟩ := bind_eq_ok_iff.1 h
  cases h
  exact Entries.forall_mem_put (p := fun bucket ↦ run.counts.getD bucket 0 ≠ 0)
    (Histogram.quantile_isFirstReaching hpos x).nonEmpty hfound

theorem Run.nonEmpty_of_foldlM_addQuantile {run : Run} (hpos : 0 < run.counts.total)
    {levels : List Value} {found quantiles : Entries String Nat}
    (hfound : ∀ e ∈ found, run.counts.getD e.2 0 ≠ 0)
    (h : levels.foldlM run.addQuantile found = .ok quantiles) :
    ∀ e ∈ quantiles, run.counts.getD e.2 0 ≠ 0 := by
  induction levels generalizing found with
  | nil =>
    cases h
    exact hfound
  | cons level rest ih =>
    obtain ⟨next, hnext, h⟩ := bind_eq_ok_iff.1 h
    exact ih (Run.nonEmpty_of_addQuantile hpos hfound hnext) h

/-- The buckets at quantiles are buckets of the run. -/
theorem Run.lt_of_mem_quantileEntries {run : Run} (hpos : 0 < run.counts.total)
    (levels : List Binary64) : ∀ e ∈ run.quantileEntries levels, e.2 < run.counts.length := by
  intro e he
  have hquantiles := run.foldlM_addQuantile levels []
  exact Histogram.lt_length_of_getD_ne_zero
    (Run.nonEmpty_of_foldlM_addQuantile hpos (by simp) hquantiles e he)

/-- A run with observations has a summary. -/
theorem Run.exists_summary {run : Run} (levels : List Binary64) (hpos : 0 < run.counts.total)
    (hlength : run.counts.length < Histogram.indexLimit) :
    ∃ summary, run.summarize (levels.map .float) = .ok summary := by
  have hlimit : run.counts.length ≤ 2 ^ 63 := hlength.le
  obtain ⟨_, _, hmean, _⟩ := exists_mean hpos hlimit
  exact ⟨_, Run.summarize_eq_ok_iff.2 ⟨hpos, _, hmean, rfl⟩⟩

theorem levelsOf_list (levels : List Value) : levelsOf (.list levels) = .ok levels := by
  cases levels with
  | nil => rfl
  | cons => rfl

/-- Quantiles are read before runs are. -/
theorem summarizeRuns_eq (runs quantiles : Value) :
    summarizeRuns runs quantiles =
      levelsOf quantiles >>= fun levels ↦ summarizeRuns runs (.list levels) := by
  unfold summarizeRuns
  simp only [levelsOf_list, ok_bind]

theorem summarizeRuns_list (items levels : List Value) :
    summarizeRuns (.list items) (.list levels) = items.mapM (Run.readAndSummarize levels) := by
  have hitems : (Value.list items).items = .ok items := rfl
  unfold summarizeRuns
  rw [levelsOf_list, ok_bind, hitems, ok_bind]

theorem Run.readAndSummarize_eq_ok_iff {levels : List Value} {v : Value} {entry : Run × Summary} :
    Run.readAndSummarize levels v = .ok entry ↔
      Run.ofValue v = .ok entry.1 ∧ entry.1.summarize levels = .ok entry.2 := by
  unfold Run.readAndSummarize
  rw [bind_eq_ok_iff]
  constructor
  · rintro ⟨run, hrun, h⟩
    obtain ⟨summary, hsummary, h⟩ := bind_eq_ok_iff.1 h
    cases h
    exact ⟨hrun, hsummary⟩
  · rintro ⟨hrun, hsummary⟩
    refine ⟨entry.1, hrun, ?_⟩
    rw [hsummary]
    rfl

/-- Runs are summarized one by one, each next to its summary. -/
theorem summarizeRuns_eq_ok_iff {runs : List Run} {levels : List Binary64}
    {found : List (Run × Summary)} :
    summarizeRuns (.list (runs.map Run.toValue)) (.list (levels.map .float)) = .ok found ↔
      found.map (·.1) = runs ∧
        ∀ entry ∈ found, entry.1.summarize (levels.map .float) = .ok entry.2 := by
  have hone (run : Run) (entry : Run × Summary) :
      Run.readAndSummarize (levels.map .float) run.toValue = .ok entry ↔
        entry.1 = run ∧ entry.1.summarize (levels.map .float) = .ok entry.2 := by
    rw [Run.readAndSummarize_eq_ok_iff, Run.ofValue_toValue, Except.ok.injEq, eq_comm]
  rw [summarizeRuns_list, mapM_eq_ok_iff, List.forall₂_map_left_iff]
  simp only [hone]
  induction found generalizing runs with
  | nil => simp [eq_comm]
  | cons entry rest ih =>
    rw [List.forall₂_cons_right_iff, List.forall_mem_cons, List.map_cons]
    constructor
    · rintro ⟨run, others, ⟨rfl, hentry⟩, hrest, rfl⟩
      obtain ⟨rfl, hsummaries⟩ := ih.1 hrest
      exact ⟨rfl, hentry, hsummaries⟩
    · rintro ⟨rfl, hentry, hsummaries⟩
      exact ⟨entry.1, _, ⟨rfl, hentry⟩, ih.2 ⟨rfl, hsummaries⟩, rfl⟩

theorem exists_summarizeRuns {runs : List Run} (levels : List Binary64)
    (hpos : ∀ run ∈ runs, 0 < run.counts.total)
    (hlength : ∀ run ∈ runs, run.counts.length < Histogram.indexLimit) :
    ∃ found, summarizeRuns (.list (runs.map Run.toValue)) (.list (levels.map .float)) =
      .ok found := by
  simp only [summarizeRuns_eq_ok_iff]
  induction runs with
  | nil => exact ⟨[], rfl, by simp⟩
  | cons run rest ih =>
    obtain ⟨summary, hsummary⟩ := Run.exists_summary levels (hpos run List.mem_cons_self)
      (hlength run List.mem_cons_self)
    obtain ⟨found, hruns, hfound⟩ := ih (fun r hr ↦ hpos r (List.mem_cons_of_mem run hr))
      (fun r hr ↦ hlength r (List.mem_cons_of_mem run hr))
    refine ⟨(run, summary) :: found, ?_, List.forall_mem_cons.2 ⟨hsummary, hfound⟩⟩
    rw [List.map_cons, hruns]

/-! ## Levels that share a label -/

section Alike

variable {levels : List Binary64} {level : Binary64}

/-- The last of some levels that has the label of a level. -/
def lastAlike (levels : List Binary64) (level : Binary64) : Binary64 :=
  (levels.reverse.find? fun other ↦ levelLabel other == levelLabel level).getD level

theorem find?_alike (hmem : level ∈ levels) :
    levels.reverse.find? (fun other ↦ levelLabel other == levelLabel level) =
      some (lastAlike levels level) := by
  unfold lastAlike
  cases hfind : levels.reverse.find? fun other ↦ levelLabel other == levelLabel level with
  | some other => rfl
  | none =>
    rw [List.find?_eq_none] at hfind
    exact absurd (beq_self_eq_true _) (hfind level (List.mem_reverse.2 hmem))

theorem lastAlike_mem (hmem : level ∈ levels) : lastAlike levels level ∈ levels :=
  List.mem_reverse.1 (List.mem_of_find?_eq_some (find?_alike hmem))

theorem levelLabel_lastAlike (hmem : level ∈ levels) :
    levelLabel (lastAlike levels level) = levelLabel level := by
  have hfound := List.find?_some (find?_alike hmem)
  exact eq_of_beq hfound

/-- Under the label of a requested level stands the bucket of the last level with that label. -/
theorem Run.find?_quantileEntries (run : Run) (hmem : level ∈ levels) :
    (run.quantileEntries levels).find? (levelLabel level) =
      some (run.counts.quantile (lastAlike levels level)) := by
  unfold Run.quantileEntries
  rw [Entries.find?_ofList, ← List.map_reverse, List.find?_map, Option.map_map]
  exact congrArg (Option.map _) (find?_alike hmem)

/-- Whether levels that share a label share their bucket. -/
def LabelsTell (levels : List Binary64) (h : Histogram) : Prop :=
  ∀ p ∈ levels, ∀ q ∈ levels, levelLabel p = levelLabel q → h.quantile p = h.quantile q

instance (levels : List Binary64) (h : Histogram) : Decidable (LabelsTell levels h) :=
  inferInstanceAs (Decidable (∀ p ∈ levels, ∀ q ∈ levels,
    levelLabel p = levelLabel q → h.quantile p = h.quantile q))

theorem labelsTell_iff {h : Histogram} :
    LabelsTell levels h ↔
      ∀ level ∈ levels, h.quantile (lastAlike levels level) = h.quantile level := by
  constructor
  · intro htell level hmem
    exact htell _ (lastAlike_mem hmem) level hmem (levelLabel_lastAlike hmem)
  · intro hlast p hp q hq hlabel
    have hsame : some (lastAlike levels p) = some (lastAlike levels q) := by
      rw [← find?_alike hp, ← find?_alike hq, hlabel]
    rw [← hlast p hp, ← hlast q hq, Option.some.inj hsame]

end Alike

end BucketStats

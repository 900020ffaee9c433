import BucketStats.Proofs.Workbook.Stages
/-!
# The summary sheet

A workbook begins with the summary sheet.  Its row for a run has the run's totals and mean, and then
one cell for each requested level, which is looked up in the run's summary by the level's label.  So
the cells of levels that share a label are the same, and a level has its own bucket in its column
exactly if levels that share a label share their bucket.
-/

namespace BucketStats

/-- The cell in a row and a column, both counted from zero.  The header is the first row. -/
def Sheet.cell? (s : Sheet) (row column : Nat) : Option Cell :=
  s.cells[row]?.bind (·[column]?)

namespace Workbook

theorem mapM_quantileLabel (levels : List Binary64) :
    (levels.map .float).mapM quantileLabel = .ok (levels.map levelLabel) :=
  mapM_map_eq_ok fun _ _ ↦ rfl

/-- The cells of a run's quantiles. -/
def quantileCells (levels : List Binary64) (run : Run) : List Cell :=
  levels.map fun level ↦ .int (run.counts.quantile (lastAlike levels level))

theorem filterMap_quantileEntries (levels : List Binary64) (run : Run) :
    ((levels.map levelLabel).filterMap fun key ↦
      ((run.quantileEntries levels).find? key).map fun (n : Nat) ↦ Cell.int n) =
      quantileCells levels run := by
  rw [List.filterMap_map]
  apply List.filterMap_eq_map_iff_forall_eq_some.2
  intro level hmem
  rw [Function.comp_apply, run.find?_quantileEntries hmem]
  rfl

/-- The row of a run in the summary sheet. -/
def IsRowOf (levels : List Binary64) (entry : Run × Summary) (row : List Cell) : Prop :=
  ∃ label, row = [label, .int entry.2.totals.totalCount, .int entry.2.totals.totalWeightedSum,
    .float entry.2.mean] ++ quantileCells levels entry.1

theorem isRowOf_of_summaryRow {library : Library} {levels : List Binary64} {entry : Run × Summary}
    {row : List Cell} (hsummary : entry.1.summarize (levels.map .float) = .ok entry.2)
    (h : library.summaryRow (levels.map levelLabel) entry.2 = .ok row) : IsRowOf levels entry row := by
  obtain ⟨_, mean, _, hsummary⟩ := Run.summarize_eq_ok_iff.1 hsummary
  obtain ⟨label, _, h⟩ := bind_eq_ok_iff.1 h
  rw [hsummary] at h
  rw [filterMap_quantileEntries] at h
  cases h
  exact ⟨label, by rw [hsummary]⟩

/-- A workbook that is saved begins with a summary sheet that has a row for each run. -/
theorem exists_summarySheet {library : Library} {refusal : Option Fault} {runs : List Run}
    {levels : List Binary64} {precision : Value} {path : String} {summaries : List Summary}
    {book : Workbook}
    (h : (library.write refusal (.list (runs.map Run.toValue)) (.list (levels.map .float)) precision
      path).result = .ok (summaries, book)) :
    ∃ found sheet others,
      summarizeRuns (.list (runs.map Run.toValue)) (.list (levels.map .float)) = .ok found ∧
      summaries = found.map (·.2) ∧
      book.sheets = sheet :: others ∧ sheet.title = "Summary" ∧
      sheet.header = summaryHeader (levels.map levelLabel) ∧
      List.Forall₂ (IsRowOf levels) found sheet.rows := by
  obtain ⟨levels', found, labels, sheet, others, hlevels, hfound, rfl, hlabels, hsheet, _, rfl⟩ :=
    exists_sheets_of_write h
  obtain rfl : levels.map .float = levels' := Except.ok.inj ((levelsOf_list _).symm.trans hlevels)
  obtain rfl : levels.map levelLabel = labels :=
    Except.ok.inj ((mapM_quantileLabel levels).symm.trans hlabels)
  obtain ⟨htitle, hheader, hrows⟩ := rows_of_summarySheet hsheet
  refine ⟨found, sheet, others, hfound, rfl, rfl, htitle, hheader, ?_⟩
  obtain ⟨_, hsummaries⟩ := summarizeRuns_eq_ok_iff.1 hfound
  rw [List.forall₂_map_left_iff] at hrows
  apply ((List.forall₂_and_left _ _).2 ⟨hsummaries, hrows⟩).imp
  rintro entry row ⟨hsummary, hrow⟩
  exact isRowOf_of_summaryRow hsummary hrow

section Cells

variable {levels : List Binary64} {sheet : Sheet} {found : List (Run × Summary)}

theorem cell?_label (hheader : sheet.header = summaryHeader (levels.map levelLabel)) (i : Nat) :
    sheet.cell? 0 (4 + i) = levels[i]?.map fun level ↦ .text (levelLabel level) := by
  simp [Sheet.cell?, Sheet.cells, hheader, summaryHeader, Nat.add_comm 4, Function.comp_def]

theorem cell?_bucket {run : Run} {k : Nat}
    (hrows : List.Forall₂ (IsRowOf levels) found sheet.rows)
    (hrun : (found.map (·.1))[k]? = some run) (i : Nat) :
    sheet.cell? (k + 1) (4 + i) =
      levels[i]?.map fun level ↦ .int (run.counts.quantile (lastAlike levels level)) := by
  rw [List.getElem?_map, Option.map_eq_some_iff] at hrun
  obtain ⟨entry, hentry, rfl⟩ := hrun
  obtain ⟨row, hrow, label, rfl⟩ := exists_getElem?_of_forall₂ hrows hentry
  simp [Sheet.cell?, Sheet.cells, hrow, quantileCells, Nat.add_comm 4]

end Cells

/-- All levels are reported with their own buckets, under their labels in the summaries and in their
columns of the summary sheet, exactly if levels that share a label share their bucket in every run.
No list is as long as `Histogram.indexLimit`. -/
theorem own_buckets_iff (runs : List Run) (levels : List Binary64)
    (hpos : ∀ run ∈ runs, 0 < run.counts.total)
    (hlength : ∀ run ∈ runs, run.counts.length < Histogram.indexLimit) :
    ∃ found,
      summarizeRuns (.list (runs.map Run.toValue)) (.list (levels.map .float)) = .ok found ∧
      found.map (·.1) = runs ∧
      ((∀ entry ∈ found, ∀ level ∈ levels, entry.2.quantiles.find? (levelLabel level) =
        some (entry.1.counts.quantile level)) ↔ ∀ run ∈ runs, LabelsTell levels run.counts) ∧
      ∀ (library : Library) refusal precision path summaries book,
        (library.write refusal (.list (runs.map Run.toValue)) (.list (levels.map .float)) precision
          path).result = .ok (summaries, book) →
        summaries = found.map (·.2) ∧
        ∃ sheet others, book.sheets = sheet :: others ∧ sheet.title = "Summary" ∧
          (∀ i level, levels[i]? = some level →
            sheet.cell? 0 (4 + i) = some (.text (levelLabel level))) ∧
          ((∀ k run i level, runs[k]? = some run → levels[i]? = some level →
            sheet.cell? (k + 1) (4 + i) = some (.int (run.counts.quantile level))) ↔
            ∀ run ∈ runs, LabelsTell levels run.counts) := by
  obtain ⟨found, hfound⟩ := exists_summarizeRuns levels hpos hlength
  obtain ⟨hruns, hsummaries⟩ := summarizeRuns_eq_ok_iff.1 hfound
  refine ⟨found, hfound, hruns, ?_, ?_⟩
  · have hentries : ∀ entry ∈ found, entry.2.quantiles = entry.1.quantileEntries levels := by
      intro entry hentry
      obtain ⟨_, mean, _, hsummary⟩ := Run.summarize_eq_ok_iff.1 (hsummaries entry hentry)
      rw [hsummary]
    simp only [← hruns, List.forall_mem_map, labelsTell_iff]
    refine forall₂_congr fun entry hentry ↦ forall₂_congr fun level hlevel ↦ ?_
    rw [hentries entry hentry, entry.1.find?_quantileEntries hlevel, Option.some_inj]
  · intro library refusal precision path summaries book hwrite
    obtain ⟨found', sheet, others, hfound', hsummaries', hbook, htitle, hheader, hrows⟩ :=
      exists_summarySheet hwrite
    obtain rfl : found = found' := Except.ok.inj (hfound.symm.trans hfound')
    refine ⟨hsummaries', sheet, others, hbook, htitle, ?_, ?_⟩
    · intro i level hlevel
      rw [cell?_label hheader, hlevel]
      rfl
    · have hcell {k : Nat} {run : Run} {i : Nat} {level : Binary64} (hrun : runs[k]? = some run)
          (hlevel : levels[i]? = some level) : sheet.cell? (k + 1) (4 + i) =
            some (.int (run.counts.quantile (lastAlike levels level))) := by
        rw [cell?_bucket hrows (hruns ▸ hrun), hlevel]
        rfl
      simp only [labelsTell_iff]
      constructor
      · intro hown run hrun level hlevel
        obtain ⟨k, hk⟩ := List.mem_iff_getElem?.1 hrun
        obtain ⟨i, hi⟩ := List.mem_iff_getElem?.1 hlevel
        have hsame := (hcell hk hi).symm.trans (hown k run i level hk hi)
        simpa using hsame
      · intro hlast k run i level hrun hlevel
        rw [hcell hrun hlevel, hlast run (List.mem_of_getElem? hrun) level
          (List.mem_of_getElem? hlevel)]

/-- The median and the maximum have labels of their own. -/
theorem own_buckets_of_median_and_maximum :
    let run : Run := ⟨.text "items", [0, 1, 1]⟩
    let levels : List Binary64 :=
      [.ofRank false (1022 * twoPow 52), .ofRank false (1023 * twoPow 52)]
    (∃ found, summarizeRuns (.list [run.toValue]) (.list (levels.map .float)) = .ok found ∧
      ∀ entry ∈ found, ∀ level ∈ levels, entry.2.quantiles.find? (levelLabel level) =
        some (entry.1.counts.quantile level)) ∧
    ∃ saved, (write none (.list [run.toValue]) (.list (levels.map .float)) (.int 4)
        "out.xlsx").result = .ok saved ∧
      ∃ sheet others, saved.2.sheets = sheet :: others ∧
        sheet.cell? 1 4 = some (.int 1) ∧ sheet.cell? 1 5 = some (.int 2) := by
  intro run levels
  have htell : ∀ r ∈ [run], LabelsTell levels r.counts := by decide +kernel
  obtain ⟨found, hfound, _, hown, hbook⟩ :=
    own_buckets_iff [run] levels (by decide +kernel) (by decide +kernel)
  refine ⟨⟨found, hfound, hown.2 htell⟩, ?_⟩
  obtain ⟨saved, hsaved⟩ : ∃ saved, (write none (.list [run.toValue]) (.list (levels.map .float))
      (.int 4) "out.xlsx").result = .ok saved := exists_of_isOk (by decide +kernel)
  obtain ⟨_, sheet, others, hsheets, _, _, hcells⟩ := hbook _ _ _ _ _ _ hsaved
  refine ⟨saved, hsaved, sheet, others, hsheets, ?_, ?_⟩
  · have hmedian : run.counts.quantile (.ofRank false (1022 * twoPow 52)) = 1 := by
      decide +kernel
    rw [hcells.2 htell 0 run 0 (.ofRank false (1022 * twoPow 52)) rfl rfl, hmedian]
    rfl
  · have hmaximum : run.counts.quantile (.ofRank false (1023 * twoPow 52)) = 2 := by
      decide +kernel
    rw [hcells.2 htell 0 run 1 (.ofRank false (1023 * twoPow 52)) rfl rfl, hmaximum]
    rfl

/-- Two levels that agree in six digits share a label, and the first loses its bucket. -/
theorem close_levels_share_a_bucket :
    let run : Run := ⟨.text "distribution", [5, 5]⟩
    let levels : List Binary64 :=
      [.ofRank false (1022 * twoPow 52), .ofRank false (1022 * twoPow 52 + 900719925)]
    levels.map run.counts.quantile = [0, 1] ∧ levels.map levelLabel = ["q0.5", "q0.5"] ∧
      (summarizeRuns (.list [run.toValue]) (.list (levels.map .float))).map
        (·.map (·.2.quantiles)) = .ok [[("q0.5", 1)]] ∧
      (write none (.list [run.toValue]) (.list (levels.map .float)) (.int 4) "out.xlsx").result.map
        (fun saved ↦ saved.2.sheets.head?.map fun sheet ↦ (sheet.cell? 1 4, sheet.cell? 1 5)) =
        .ok (some (some (.int 1), some (.int 1))) := by
  decide +kernel

end Workbook

end BucketStats

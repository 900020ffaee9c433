import BucketStats.Proofs.Decimal.Integers
import BucketStats.Proofs.Workbook.Stages
/-!
# Bucket sheets

After the summary sheet a workbook has one sheet for each run, with a row for each bucket.  The rows
are filled from a count of their own that runs along with them, while the totals in the summary come
from the summaries.  The two agree in every run of every workbook that is saved.
-/

namespace BucketStats

theorem map_mapIdx {α β γ : Type} (f : Nat → α → β) (g : β → γ) (as : List α) :
    (as.mapIdx f).map g = as.mapIdx fun i a ↦ g (f i a) := by
  apply List.ext_getElem?
  intro i
  rw [List.getElem?_map, List.getElem?_mapIdx, List.getElem?_mapIdx, Option.map_map]
  rfl

/-! ## Shares -/

namespace Histogram

/-- The share of the observations up to a bucket in all observations. -/
def share (h : Histogram) (bucket : Nat) : ℚ :=
  h.cumulative bucket / h.total

variable (h : Histogram)

theorem share_nonneg (bucket : Nat) : 0 ≤ h.share bucket :=
  div_nonneg (Nat.cast_nonneg _) (Nat.cast_nonneg _)

theorem share_mono : Monotone h.share := by
  intro bucket later hle
  exact div_le_div_of_nonneg_right (Nat.cast_le.2 (h.cumulative_mono hle)) (Nat.cast_nonneg _)

theorem share_le_one (bucket : Nat) : h.share bucket ≤ 1 :=
  div_le_one_of_le₀ (Nat.cast_le.2 (h.cumulative_le_total bucket)) (Nat.cast_nonneg _)

theorem share_of_all {h : Histogram} (hpos : 0 < h.total) {bucket : Nat}
    (hall : h.cumulative bucket = h.total) : h.share bucket = 1 := by
  rw [share, hall, div_self (Nat.cast_ne_zero.2 hpos.ne')]

end Histogram

/-! ## Rows -/

/-- The cells of a column below the header. -/
def Sheet.column (s : Sheet) (index : Nat) : List (Option Cell) :=
  s.rows.map (·[index]?)

namespace Workbook

/-- The cells of a bucket, given the number of observations up to it and their share. -/
def bucketCells (bucket count observed : Nat) (share : Binary64.Finite) : List Cell :=
  [.int bucket, .int count, .int (bucket * count : Nat), .int observed, .float (.finite share)]

/-- The count that runs along with the rows is the cumulative count. -/
theorem exists_shares_of_bucketRowsFrom {total bucket before : Nat} {h : Histogram}
    {rows : List (List Cell)} (htotal : 0 < total)
    (hrows : bucketRowsFrom total bucket before h = .ok rows) :
    ∃ share : Nat → Binary64.Finite,
      (∀ i < h.length,
        Binary64.RoundsTo (((before + h.cumulative i : ℕ) : ℚ) / total) (share i)) ∧
      rows = h.mapIdx fun i count ↦
        bucketCells (bucket + i) count (before + h.cumulative i) (share i) := by
  induction h generalizing bucket before rows with
  | nil =>
    cases hrows
    exact ⟨fun _ ↦ ⟨false, 0, by decide⟩, fun i hi ↦ absurd hi (Nat.not_lt_zero i), rfl⟩
  | cons count rest ih =>
    obtain ⟨row, hrow, hrows⟩ := bind_eq_ok_iff.1 hrows
    obtain ⟨x, hshare, hrow⟩ := bind_eq_ok_iff.1 hrow
    obtain ⟨later, hlater, hrows⟩ := bind_eq_ok_iff.1 hrows
    obtain ⟨first, rfl, hfirst⟩ := exists_of_quotient_natCast htotal hshare
    obtain ⟨share, hshares, rfl⟩ := ih hlater
    cases hrow
    cases hrows
    refine ⟨fun i ↦ i.casesOn first share, ?_, ?_⟩
    · intro i hi
      cases i with
      | zero =>
        rw [Histogram.cumulative_cons_zero]
        exact hfirst
      | succ i =>
        rw [Histogram.cumulative_cons_succ, ← Nat.add_assoc]
        exact hshares i (Nat.lt_of_succ_lt_succ hi)
    · rw [List.mapIdx_cons, Histogram.cumulative_cons_zero]
      congr 2
      funext i next
      rw [Histogram.cumulative_cons_succ, Nat.add_right_comm, Nat.add_assoc before]
      rfl

/-- The row of a run in the summary sheet begins with its label, its totals and its mean. -/
def IsSummaryRow (library : Library) (run : Run) (row : List Cell) : Prop :=
  ∃ label mean, library.ofValue run.label = .ok label ∧ mean.negative = false ∧
    Binary64.IsNearest ((run.counts.weightedSum : ℚ) / run.counts.total) mean ∧
    [label, .int run.counts.total, .int run.counts.weightedSum, .float (.finite mean)] <+: row

/-- Whether a sheet has the buckets of a run in its rows. -/
structure IsBucketSheet (run : Run) (sheet : Sheet) : Prop where
  header : sheet.header = bucketHeader
  length : sheet.rows.length = run.counts.length
  rows : ∀ i count, run.counts[i]? = some count → ∃ share,
    share.negative = false ∧
    Binary64.IsNearest ((run.counts.cumulative i : ℚ) / run.counts.total) share ∧
    sheet.rows[i]? = some (bucketCells i count (run.counts.cumulative i) share)

/-- Whether the columns of a bucket sheet add up to a row of the summary sheet. -/
structure Agrees (row : List Cell) (sheet : Sheet) : Prop where
  counts : ∃ counts : List Nat, sheet.column 1 = counts.map (fun n ↦ some (.int n)) ∧
    row[1]? = some (.int counts.sum)
  products : ∃ products : List Nat, sheet.column 2 = products.map (fun n ↦ some (.int n)) ∧
    row[2]? = some (.int products.sum)
  observed : ∃ cell, (sheet.column 3).getLast? = some (some cell) ∧ row[1]? = some cell
  shares : ∃ shares : List Binary64.Finite,
    sheet.column 4 = shares.map (fun share ↦ some (.float (.finite share))) ∧
    shares.Pairwise (fun share later ↦ share.value ≤ later.value) ∧
    (∀ share ∈ shares, 0 ≤ share.value ∧ share.value ≤ 1) ∧
    ∃ last, shares.getLast? = some last ∧ last.value = 1

section Sheets

variable {library : Library} {run : Run} {sheet : Sheet} {row : List Cell} {title : String}

theorem title_of_bucketSheet (h : bucketSheet title run = .ok sheet) : sheet.title = title := by
  obtain ⟨_, _, hsheet⟩ := bind_eq_ok_iff.1 h
  cases hsheet
  rfl

theorem exists_rows_of_bucketSheet (hpos : 0 < run.counts.total)
    (h : bucketSheet title run = .ok sheet) :
    sheet.header = bucketHeader ∧ ∃ share : Nat → Binary64.Finite,
      (∀ i < run.counts.length, Binary64.RoundsTo (run.counts.share i) (share i)) ∧
      sheet.rows = run.counts.mapIdx fun i count ↦
        bucketCells i count (run.counts.cumulative i) (share i) := by
  obtain ⟨rows, hrows, hsheet⟩ := bind_eq_ok_iff.1 h
  obtain ⟨share, hshares, rfl⟩ := exists_shares_of_bucketRowsFrom hpos hrows
  cases hsheet
  refine ⟨rfl, share, ?_, ?_⟩
  · simpa only [Nat.zero_add, Histogram.share] using hshares
  · simp only [Nat.zero_add]

theorem isBucketSheet_of_bucketSheet (hpos : 0 < run.counts.total)
    (h : bucketSheet title run = .ok sheet) : IsBucketSheet run sheet := by
  obtain ⟨hheader, share, hshares, hrows⟩ := exists_rows_of_bucketSheet hpos h
  refine ⟨hheader, by rw [hrows, List.length_mapIdx], ?_⟩
  intro i count hcount
  obtain ⟨hi, _⟩ := List.getElem?_eq_some_iff.1 hcount
  refine ⟨share i, (hshares i hi).nonnegative,
    (hshares i hi).isNearest (run.counts.share_nonneg i), ?_⟩
  rw [hrows, List.getElem?_mapIdx, hcount]
  rfl

/-- The last row of a histogram with observations is about all of them. -/
theorem getLast?_mapIdx_cumulative {α : Type} {h : Histogram} (hpos : 0 < h.total)
    (f : Nat → Nat → α) : ∃ last < h.length, h.cumulative last = h.total ∧
      ∃ count, (h.mapIdx f).getLast? = some (f last count) := by
  have hne : h ≠ [] := by
    rintro rfl
    exact lt_irrefl 0 hpos
  have hlength := List.length_pos_iff.2 hne
  refine ⟨h.length - 1, Nat.sub_lt hlength one_pos, ?_, h.getLast hne, ?_⟩
  · exact Histogram.cumulative_of_length_le (Nat.sub_add_cancel hlength).ge
  · rw [List.getLast?_mapIdx, List.getLast?_eq_some_getLast hne]
    rfl

/-- A bucket sheet adds up to the totals, and its shares rise to the whole. -/
theorem agrees_of_bucketSheet (hpos : 0 < run.counts.total)
    (hsheet : bucketSheet title run = .ok sheet) (hrow : IsSummaryRow library run row) :
    Agrees row sheet := by
  obtain ⟨_, share, hshares, hrows⟩ := exists_rows_of_bucketSheet hpos hsheet
  obtain ⟨label, mean, _, _, _, rest, rfl⟩ := hrow
  have hcolumn (index : Nat) : sheet.column index = run.counts.mapIdx fun i count ↦
      (bucketCells i count (run.counts.cumulative i) (share i))[index]? := by
    rw [Sheet.column, hrows, map_mapIdx]
  constructor
  · refine ⟨run.counts, ?_, by rw [← Histogram.total_eq_sum]; rfl⟩
    rw [hcolumn]
    apply List.ext_getElem?
    intro i
    rw [List.getElem?_mapIdx, List.getElem?_map]
    rfl
  · refine ⟨_, ?_, by rw [← Histogram.weightedSum_eq_sum]; rfl⟩
    rw [hcolumn, map_mapIdx]
    rfl
  · obtain ⟨last, _, hall, count, hlast⟩ := getLast?_mapIdx_cumulative hpos fun i count ↦
      (bucketCells i count (run.counts.cumulative i) (share i))[3]?
    refine ⟨.int run.counts.total, ?_, rfl⟩
    rw [hcolumn, hlast, hall]
    rfl
  · refine ⟨run.counts.mapIdx fun i _ ↦ share i, ?_, ?_, ?_, ?_⟩
    · rw [hcolumn, map_mapIdx]
      rfl
    · rw [List.pairwise_iff_getElem]
      intro i j hi hj hlt
      rw [List.length_mapIdx] at hi hj
      rw [List.getElem_mapIdx, List.getElem_mapIdx]
      exact (hshares i hi).value_mono (hshares j hj) (run.counts.share_mono hlt.le)
    · intro x hx
      obtain ⟨i, hi, rfl⟩ := List.mem_mapIdx.1 hx
      exact ⟨(hshares i hi).value_nonneg, (hshares i hi).value_le_one (run.counts.share_le_one i)⟩
    · obtain ⟨last, hlt, hall, _, hlast⟩ := getLast?_mapIdx_cumulative hpos fun i _ ↦ share i
      have hwhole := hshares last hlt
      rw [Histogram.share_of_all hpos hall] at hwhole
      exact ⟨share last, hlast, hwhole.value_one⟩

end Sheets

/-! ## Titles -/

theorem summary_ne_bucketTitle (runs index : Nat) : "Summary" ≠ bucketTitle runs index := by
  have hletter : (toString "Buckets_").toList.head? = some 'B' := by decide
  intro h
  have hfirst := congrArg (·.toList.head?) h
  unfold bucketTitle at hfirst
  split at hfirst
  · exact absurd hfirst (by decide)
  · rw [String.toList_append, List.head?_append, hletter, Option.some_or] at hfirst
    exact absurd hfirst (by decide)

/-- Only the sheet of a single run has no number in its title. -/
theorem bucketTitle_inj {runs i j : Nat} (hi : i < runs) (hj : j < runs)
    (h : bucketTitle runs (i + 1) = bucketTitle runs (j + 1)) : i = j := by
  unfold bucketTitle at h
  split at h
  · omega
  · have hnumber := Decimal.toString_nat_injective ((String.append_right_inj _).1 h)
    exact Nat.succ.inj hnumber

/-- Titles are distinct. -/
theorem titles_nodup (runs : List Run) :
    ("Summary" :: runs.zipIdx.map fun entry ↦ bucketTitle runs.length (entry.2 + 1)).Nodup := by
  have hindices : (runs.zipIdx.map fun entry ↦ bucketTitle runs.length (entry.2 + 1)) =
      (List.range runs.length).map fun i ↦ bucketTitle runs.length (i + 1) := by
    rw [List.range_eq_range', ← List.zipIdx_map_snd 0 runs, List.map_map]
    rfl
  rw [hindices, List.nodup_cons]
  constructor
  · intro hmem
    obtain ⟨i, _, htitle⟩ := List.mem_map.1 hmem
    exact summary_ne_bucketTitle _ _ htitle.symm
  · apply List.nodup_range.map_on
    intro i hi j hj
    exact bucketTitle_inj (List.mem_range.1 hi) (List.mem_range.1 hj)

/-! ## Workbooks -/

/-- Runs with summaries were read one by one. -/
theorem runs_of_summarizeRuns {items levels : List Value} {found : List (Run × Summary)}
    (h : summarizeRuns (.list items) (.list levels) = .ok found) :
    items.mapM Run.ofValue = .ok (found.map (·.1)) ∧
      ∀ entry ∈ found, entry.1.summarize levels = .ok entry.2 := by
  rw [summarizeRuns_list, mapM_eq_ok_iff] at h
  constructor
  · rw [mapM_eq_ok_iff, List.forall₂_map_right_iff]
    exact h.imp fun _ _ hentry ↦ (Run.readAndSummarize_eq_ok_iff.1 hentry).1
  · intro entry hmem
    obtain ⟨i, hi, rfl⟩ := List.mem_iff_getElem.1 hmem
    exact (Run.readAndSummarize_eq_ok_iff.1 (h.get (h.length_eq ▸ hi) hi)).2

theorem isSummaryRow_of_summaryRow {library : Library} {run : Run} {summary : Summary}
    {levels : List Value} {labels : List String} {row : List Cell}
    (hsummary : run.summarize levels = .ok summary)
    (h : library.summaryRow labels summary = .ok row) : IsSummaryRow library run row := by
  obtain ⟨hpos, mean, quantiles, hmean, _, rfl⟩ := Run.summarize_values_eq_ok_iff.1 hsummary
  obtain ⟨label, hlabel, h⟩ := bind_eq_ok_iff.1 h
  obtain ⟨rounded, rfl, hrounded⟩ := exists_of_quotient_natCast hpos hmean
  have hnearest := hrounded.isNearest (div_nonneg (Nat.cast_nonneg _) (Nat.cast_nonneg _))
  cases h
  exact ⟨label, rounded, hlabel, hrounded.nonnegative, hnearest, List.prefix_append _ _⟩

/-- The sheets of runs in order. -/
theorem forall₂_of_populateAll {runs : List Run} {sheets : List Sheet}
    (h : (populateAll runs).result = .ok sheets) :
    List.Forall₂ (fun entry sheet ↦
      bucketSheet (bucketTitle runs.length (entry.2 + 1)) entry.1 = .ok sheet)
      runs.zipIdx sheets := by
  apply (Transcript.result_mapM_eq_ok_iff.1 h).imp
  intro entry sheet hentry
  obtain ⟨_, _, hentry⟩ := Transcript.result_bind_eq_ok_iff.1 hentry
  obtain ⟨_, _, hentry⟩ := Transcript.result_bind_eq_ok_iff.1 hentry
  exact hentry

/-- The sheets of a workbook that is saved.  The first one has a row for each run, and the others
are the bucket sheets of the runs in order.  Each agrees with its run's row. -/
theorem sheets_of_write {library : Library} {refusal : Option Fault} {items : List Value}
    {quantiles precision : Value} {path : String} {summaries : List Summary} {book : Workbook}
    (hwrite : (library.write refusal (.list items) quantiles precision path).result =
      .ok (summaries, book)) :
    ∃ runs, items.mapM Run.ofValue = .ok runs ∧
      book.sheets.length = 1 + runs.length ∧ (book.sheets.map (·.title)).Nodup ∧
      ∃ first, book.sheets[0]? = some first ∧ first.title = "Summary" ∧
        first.cells.length = 1 + runs.length ∧
        ∀ k run, runs[k]? = some run → ∃ row sheet,
          first.cells[k + 1]? = some row ∧ IsSummaryRow library run row ∧
          book.sheets[k + 1]? = some sheet ∧ sheet.title = bucketTitle runs.length (k + 1) ∧
          IsBucketSheet run sheet ∧ Agrees row sheet := by
  obtain ⟨levels, found, labels, first, others, _, hfound, rfl, _, hfirst, hothers, rfl⟩ :=
    exists_sheets_of_write hwrite
  obtain ⟨hruns, hsummaries⟩ := runs_of_summarizeRuns hfound
  obtain ⟨htitle, _, hrows⟩ := rows_of_summarySheet hfirst
  rw [List.forall₂_map_left_iff] at hrows
  have hsheets : List.Forall₂ _ (found.map (·.1)).zipIdx others := forall₂_of_populateAll hothers
  refine ⟨_, hruns, ?_, ?_, first, rfl, htitle, ?_, ?_⟩
  · rw [List.length_cons, ← hsheets.length_eq, List.length_zipIdx, Nat.add_comm]
  · have htitles : (found.map (·.1)).zipIdx.map (fun entry ↦
        bucketTitle (found.map (·.1)).length (entry.2 + 1)) = others.map (·.title) := by
      rw [← List.forall₂_eq_eq_eq, List.forall₂_map_left_iff, List.forall₂_map_right_iff]
      exact hsheets.imp fun _ _ hsheet ↦ (title_of_bucketSheet hsheet).symm
    rw [List.map_cons, htitle, ← htitles]
    exact titles_nodup _
  · rw [Sheet.cells, List.length_cons, ← hrows.length_eq, List.length_map, Nat.add_comm]
  · intro k run hrun
    rw [List.getElem?_map, Option.map_eq_some_iff] at hrun
    obtain ⟨entry, hentry, rfl⟩ := hrun
    have hsummary := hsummaries entry (List.mem_of_getElem? hentry)
    have hpos : 0 < entry.1.counts.total := (Run.summarize_values_eq_ok_iff.1 hsummary).1
    have hindexed : (found.map (·.1)).zipIdx[k]? = some (entry.1, k) := by
      rw [List.getElem?_zipIdx, List.getElem?_map, hentry, Nat.zero_add]
      rfl
    obtain ⟨row, hrow, hcells⟩ := exists_getElem?_of_forall₂ hrows hentry
    obtain ⟨sheet, hsheet, hbuckets⟩ := exists_getElem?_of_forall₂ hsheets hindexed
    have hsummaryRow := isSummaryRow_of_summaryRow hsummary hcells
    exact ⟨row, sheet, hrow, hsummaryRow, hsheet, title_of_bucketSheet hbuckets,
      isBucketSheet_of_bucketSheet hpos hbuckets, agrees_of_bucketSheet hpos hbuckets hsummaryRow⟩

/-- The second of two runs stands in the third row of the summary and has the third sheet. -/
theorem sheets_of_write_of_two_runs :
    let runs : List Run := [⟨.text "first", [1, 2]⟩, ⟨.text "second", [0, 4, 3]⟩]
    ∃ saved, (write none (.list (runs.map Run.toValue)) (.list []) (.int 4) "out.xlsx").result =
        .ok saved ∧ saved.2.sheets.length = 3 ∧
      ∃ first row sheet, saved.2.sheets[0]? = some first ∧ first.cells[2]? = some row ∧
        saved.2.sheets[2]? = some sheet ∧ sheet.title = "Buckets_2" ∧
        row[1]? = some (.int 7) ∧ row[2]? = some (.int 10) ∧ Agrees row sheet := by
  intro runs
  obtain ⟨saved, hsaved⟩ : ∃ saved, (write none (.list (runs.map Run.toValue)) (.list []) (.int 4)
      "out.xlsx").result = .ok saved := exists_of_isOk (by decide +kernel)
  obtain ⟨runs', hruns', hlength, _, first, hfirst, _, _, hrows⟩ := sheets_of_write hsaved
  obtain rfl : runs = runs' := Except.ok.inj ((Run.mapM_ofValue_toValue runs).symm.trans hruns')
  obtain ⟨row, sheet, hrow, ⟨label, mean, _, _, _, rest, rfl⟩, hsheet, htitle, _, hagrees⟩ :=
    hrows 1 _ rfl
  exact ⟨saved, hsaved, hlength, first, _, sheet, hfirst, hrow, hsheet, htitle, rfl, rfl, hagrees⟩

end Workbook

end BucketStats

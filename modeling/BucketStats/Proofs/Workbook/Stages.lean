import BucketStats.Proofs.Summary.Quantiles
import BucketStats.Workbook.Standard
/-!
# The stages of writing a workbook

Writing a workbook summarizes all runs first and in silence, then fills the sheets and tells what it
does, and saves them at the end.  So a run without a summary leaves no trace, and what stops the
filling of sheets leaves a beginning of the messages.  The whole of them is told exactly if the
workbook is there to be saved.
-/

namespace BucketStats

/-- Whether a value is a run that has observations. -/
def Run.HasObservations (v : Value) : Prop :=
  ∃ run, Run.ofValue v = .ok run ∧ 0 < run.counts.total

theorem Run.hasObservations_of_readAndSummarize {levels : List Value} {v : Value}
    {entry : Run × Summary} (h : Run.readAndSummarize levels v = .ok entry) :
    Run.HasObservations v := by
  obtain ⟨hrun, hsummary⟩ := Run.readAndSummarize_eq_ok_iff.1 h
  exact ⟨entry.1, hrun, (Run.summarize_values_eq_ok_iff.1 hsummary).1⟩

namespace Workbook

/-- Fills the sheets of runs and their summaries. -/
def Library.fill (library : Library) (runs : List Run) (levels : List Value)
    (summaries : List Summary) (precision : Value) : Transcript String Fault Workbook := do
  Transcript.note "Creating workbook"
  let labels ← Transcript.ofExcept (levels.mapM quantileLabel)
  let first ← Transcript.ofExcept (library.summarySheet labels summaries precision)
  let others ← populateAll runs
  pure ⟨first :: others⟩

section Stages

variable {library : Library} {refusal : Option Fault} {runs quantiles precision : Value}
  {path : String}

theorem write_eq (library : Library) (refusal : Option Fault) (runs quantiles precision : Value)
    (path : String) :
    library.write refusal runs quantiles precision path = (do
      let levels ← Transcript.ofExcept (levelsOf quantiles)
      let found ← Transcript.ofExcept (summarizeRuns runs (.list levels))
      let book ← library.fill (remainingRuns runs found) levels (found.map (·.2)) precision
      Transcript.note s!"Saving {path}"
      Transcript.ofExcept (library.save refusal book)
      pure (found.map (·.2), book)) := by
  unfold Library.write Library.fill
  simp only [bind_assoc, pure_bind]

/-- Without summaries nothing is told and nothing is saved. -/
theorem write_of_error {fault : Fault} (h : summarizeRuns runs quantiles = .error fault) :
    library.write refusal runs quantiles precision path = ⟨[], .error fault⟩ := by
  rw [summarizeRuns_eq, bind_eq_error_iff] at h
  rw [write_eq]
  rcases h with hlevels | ⟨levels, hlevels, hfound⟩
  · rw [hlevels]
    rfl
  · rw [hlevels, Transcript.ofExcept_ok_bind, hfound]
    rfl

/-- With summaries the sheets are filled and saved. -/
theorem write_of_ok (library : Library) (refusal : Option Fault) (precision : Value) (path : String)
    {found : List (Run × Summary)} (h : summarizeRuns runs quantiles = .ok found) :
    ∃ levels, levelsOf quantiles = .ok levels ∧ summarizeRuns runs (.list levels) = .ok found ∧
      library.write refusal runs quantiles precision path = (do
        let book ← library.fill (remainingRuns runs found) levels (found.map (·.2)) precision
        Transcript.note s!"Saving {path}"
        Transcript.ofExcept (library.save refusal book)
        pure (found.map (·.2), book)) := by
  rw [summarizeRuns_eq, bind_eq_ok_iff] at h
  obtain ⟨levels, hlevels, hfound⟩ := h
  refine ⟨levels, hlevels, hfound, ?_⟩
  rw [write_eq, hlevels, Transcript.ofExcept_ok_bind, hfound, Transcript.ofExcept_ok_bind]

/-- What a workbook that was saved is made of. -/
theorem exists_sheets_of_write {summaries : List Summary} {book : Workbook}
    (h : (library.write refusal runs quantiles precision path).result = .ok (summaries, book)) :
    ∃ levels found labels first others, levelsOf quantiles = .ok levels ∧
      summarizeRuns runs (.list levels) = .ok found ∧ summaries = found.map (·.2) ∧
      levels.mapM quantileLabel = .ok labels ∧
      library.summarySheet labels summaries precision = .ok first ∧
      (populateAll (remainingRuns runs found)).result = .ok others ∧ book = ⟨first :: others⟩ := by
  unfold Library.write at h
  obtain ⟨levels, hlevels, h⟩ := Transcript.result_bind_eq_ok_iff.1 h
  obtain ⟨found, hfound, h⟩ := Transcript.result_bind_eq_ok_iff.1 h
  obtain ⟨_, _, h⟩ := Transcript.result_bind_eq_ok_iff.1 h
  obtain ⟨labels, hlabels, h⟩ := Transcript.result_bind_eq_ok_iff.1 h
  obtain ⟨first, hfirst, h⟩ := Transcript.result_bind_eq_ok_iff.1 h
  obtain ⟨others, hothers, h⟩ := Transcript.result_bind_eq_ok_iff.1 h
  obtain ⟨_, _, h⟩ := Transcript.result_bind_eq_ok_iff.1 h
  obtain ⟨_, _, h⟩ := Transcript.result_bind_eq_ok_iff.1 h
  cases h
  exact ⟨levels, found, labels, first, others, hlevels, hfound, rfl, hlabels, hfirst, hothers, rfl⟩

/-- The summary sheet has a row for each summary. -/
theorem rows_of_summarySheet {labels : List String} {summaries : List Summary} {sheet : Sheet}
    (h : library.summarySheet labels summaries precision = .ok sheet) :
    sheet.title = "Summary" ∧ sheet.header = summaryHeader labels ∧
      List.Forall₂ (fun s row ↦ library.summaryRow labels s = .ok row) summaries sheet.rows := by
  obtain ⟨rows, hrows, h⟩ := bind_eq_ok_iff.1 h
  obtain ⟨format, _, h⟩ := bind_eq_ok_iff.1 h
  cases h
  exact ⟨rfl, rfl, mapM_eq_ok_iff.1 hrows⟩

end Stages

/-! ## Messages -/

/-- The message about one of some runs, given the text of its label. -/
def populating (shown : Value → String) (runs : Nat) (entry : Run × Nat) : String :=
  s!"Populating {bucketTitle runs (entry.2 + 1)} ({shown entry.1.label})"

/-- All that is told about runs while they are written to a path. -/
def messages (shown : Value → String) (runs : List Run) (path : String) : List String :=
  "Creating workbook" :: (runs.zipIdx.map (populating shown runs.length) ++ [s!"Saving {path}"])

section Messages

variable {shown : Value → String}

/-- A run is told about once, before its sheet is made. -/
theorem says_populate (hshown : ∀ v text, v.display = .ok text → shown v = text) (runs : Nat)
    (entry : Run × Nat) : (populate runs entry).Says [populating shown runs entry] := by
  apply (Transcript.says_ofExcept entry.1.label.display).bind
  intro label hlabel
  rw [populating, hshown _ _ hlabel]
  apply (Transcript.says_note _).bind
  intro _ _
  exact Transcript.says_ofExcept _

/-- Filling the sheets tells about all runs in order. -/
theorem says_fill (hshown : ∀ v text, v.display = .ok text → shown v = text) (library : Library)
    (runs : List Run) (levels : List Value) (summaries : List Summary) (precision : Value) :
    (library.fill runs levels summaries precision).Says
      ("Creating workbook" :: runs.zipIdx.map (populating shown runs.length)) := by
  apply (Transcript.says_note "Creating workbook").bind
  intro _ _
  apply (Transcript.says_ofExcept (levels.mapM quantileLabel)).bind
  intro labels _
  apply (Transcript.says_ofExcept (library.summarySheet labels summaries precision)).bind
  intro first _
  rw [← List.append_nil (runs.zipIdx.map _)]
  apply (Transcript.Says.mapM fun entry _ ↦ says_populate hshown runs.length entry).bind
  intro others _
  exact Transcript.says_pure _

end Messages

/-- Writing a workbook is all or nothing.  Where some run is invalid or empty, the fault of the
first run that fails is the one of the summaries, and nothing is told or saved.  A failure after
that leaves a proper beginning of the messages, unless only saving failed.  A workbook that is
saved, with the summaries of the runs, has all messages told.  `shown` gives the texts of labels;
for a label that has none it may give any.  It does not matter which library stores workbooks. -/
theorem write_atomic (library : Library) (refusal : Option Fault) (items : List Value)
    (quantiles precision : Value) (path : String) {shown : Value → String}
    (hshown : ∀ v text, v.display = .ok text → shown v = text) :
    let summarized := summarizeRuns (.list items) quantiles
    let written := library.write refusal (.list items) quantiles precision path
    (∀ levels, levelsOf quantiles = .ok levels → (∃ v ∈ items, ¬ Run.HasObservations v) →
      ∃ before v after fault, items = before ++ v :: after ∧
        Run.readAndSummarize levels v = .error fault ∧
        (∀ earlier ∈ before, ∃ entry, Run.readAndSummarize levels earlier = .ok entry) ∧
        summarized = .error fault) ∧
    (∀ fault, summarized = .error fault → written = ⟨[], .error fault⟩) ∧
    ∀ found, summarized = .ok found →
      let all := messages shown (found.map (·.1)) path
      (∀ fault, written.result = .error fault →
        (written.notes <+: all ∧ written.notes ≠ all) ∨
          (written.notes = all ∧ ∃ book, library.save refusal book = .error fault)) ∧
      ∀ summaries book, written.result = .ok (summaries, book) →
        written.notes = all ∧ library.save refusal book = .ok () ∧ summaries = found.map (·.2) := by
  intro summarized written
  refine ⟨?_, fun fault h ↦ write_of_error h, ?_⟩
  · rintro levels hlevels ⟨v, hv, hinvalid⟩
    have hfails : ∃ v ∈ items, ∀ entry, Run.readAndSummarize levels v ≠ .ok entry :=
      ⟨v, hv, fun entry h ↦ hinvalid (Run.hasObservations_of_readAndSummarize h)⟩
    obtain ⟨before, v, after, fault, hsplit, hv, hbefore, hfault⟩ := exists_first_error hfails
    refine ⟨before, v, after, fault, hsplit, hv, hbefore, ?_⟩
    rw [← hfault, ← summarizeRuns_list]
    simp only [summarized]
    rw [summarizeRuns_eq, hlevels, ok_bind]
  · intro found hfound all
    obtain ⟨levels, _, _, hwrite⟩ := write_of_ok library refusal precision path hfound
    have htold := says_fill hshown library (found.map (·.1)) levels (found.map (·.2)) precision
    have hremaining : remainingRuns (.list items) found = found.map (·.1) := rfl
    rw [hremaining] at hwrite
    simp only [written, all, messages, hwrite]
    rw [← List.cons_append]
    generalize "Creating workbook" :: ((found.map (·.1)).zipIdx.map
      (populating shown (found.map (·.1)).length)) = told at htold
    cases hfill : (library.fill (found.map (·.1)) levels (found.map (·.2)) precision).result with
    | error fault =>
      rw [Transcript.bind_of_error hfill]
      refine ⟨fun _ _ ↦ .inl ⟨htold.notes_initial.trans (List.prefix_append _ _), ?_⟩, ?_⟩
      · intro hsame
        have hlength := htold.notes_initial.length_le
        rw [hsame, List.length_append, List.length_singleton] at hlength
        omega
      · intro summaries book hresult
        cases hresult
    | ok book =>
      rw [Transcript.notes_bind_of_ok hfill, Transcript.result_bind_of_ok hfill,
        htold.notes_eq book hfill]
      cases hsave : library.save refusal book with
      | error fault =>
        refine ⟨fun fault' hfault ↦ .inr ⟨rfl, book, ?_⟩, ?_⟩
        · cases hfault
          exact hsave
        · intro summaries book' hresult
          cases hresult
      | ok _ =>
        constructor
        · intro fault hresult
          cases hresult
        · intro summaries book' hresult
          cases hresult
          exact ⟨rfl, hsave, rfl⟩

/-- An integer with too many digits may stand in a cell, but no message can show it. -/
theorem write_atomic_with_unwritten_label :
    let shown (v : Value) : String := v.display.toOption.getD ""
    let runs : List Run := [⟨.text "first", [1]⟩, ⟨.int (tenPow 4300), [2]⟩]
    let written := write none (.list (runs.map Run.toValue)) (.list []) (.int 4) "out.xlsx"
    (∀ v text, v.display = .ok text → shown v = text) ∧
      written.notes = ["Creating workbook", "Populating Buckets_1 (first)"] ∧
      written.notes <+: messages shown runs "out.xlsx" ∧
      written.notes ≠ messages shown runs "out.xlsx" := by
  intro shown runs written
  have hshown : ∀ v text, v.display = .ok text → shown v = text := by
    intro v text htext
    simp only [shown, htext]
    rfl
  have hnotes : written.notes = ["Creating workbook", "Populating Buckets_1 (first)"] := by
    decide +kernel
  obtain ⟨found, hfound⟩ := @exists_summarizeRuns runs [] (by decide) (by decide +kernel)
  obtain ⟨hruns, _⟩ := summarizeRuns_eq_ok_iff.1 hfound
  have hwritten := (write_atomic .standard none (runs.map Run.toValue) (.list []) (.int 4) "out.xlsx"
    hshown).2.2 found hfound
  rw [hruns] at hwritten
  refine ⟨hshown, hnotes, ?_⟩
  cases hresult : written.result with
  | ok saved =>
    have hstops : written.result.isOk = false := by decide +kernel
    rw [hresult] at hstops
    cases hstops
  | error fault =>
    refine (hwritten.1 fault hresult).resolve_right fun hall ↦ ?_
    have hlength : written.notes.length = (messages shown runs "out.xlsx").length :=
      congrArg List.length hall.1
    rw [hnotes] at hlength
    cases hlength

end Workbook

end BucketStats

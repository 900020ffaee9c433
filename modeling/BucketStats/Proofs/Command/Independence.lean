import BucketStats.Proofs.Command.Insertion
import BucketStats.Proofs.Command.Outputs
/-!
# What settings leave as it is

The lines of a report do not show its label, the JSON document does not depend on the precision, and a
workbook that is saved changes nothing about the text.  So two commands that differ in one such setting
alone end in the same way and print the same.
-/

namespace BucketStats

/-! ## Labels -/

/-- The same summary under another label. -/
def Summary.labelled (s : Summary) (label : Value) : Summary :=
  { s with label := label }

/-- Only the label of a summary comes from the label of the run. -/
theorem Run.summarize_labelled (label label' : Value) (h : Histogram) (levels : List Value) :
    Run.summarize ⟨label', h⟩ levels =
      (Run.summarize ⟨label, h⟩ levels).map (·.labelled label') := by
  have hquantiles : levels.foldlM (Run.addQuantile ⟨label', h⟩) [] =
      levels.foldlM (Run.addQuantile ⟨label, h⟩) [] := rfl
  unfold Run.summarize
  rw [hquantiles]
  cases h.weightedMean with
  | error f => rfl
  | ok totals =>
    simp only [ok_bind]
    cases totals.mean with
    | error f => rfl
    | ok mean => cases levels.foldlM (Run.addQuantile ⟨label, h⟩) [] <;> rfl

/-- The lines of a report do not show the label. -/
theorem reportLines_labelled (s : Summary) (label precision : Value) :
    reportLines (s.labelled label).toValue precision = reportLines s.toValue precision := by
  have htotals : totalsLine (s.labelled label).toValue = totalsLine s.toValue := rfl
  have hmean : meanLine (s.labelled label).toValue precision = meanLine s.toValue precision := rfl
  have hquantiles : quantileLines (s.labelled label).toValue = quantileLines s.toValue := by
    obtain ⟨_, _, _, _, quantiles⟩ := s
    cases quantiles <;> rfl
  unfold reportLines
  rw [htotals, hmean, hquantiles]

namespace Command

open Steps

variable {program : String} {files : Files} {r : Request}

theorem summarizeRun_labelled (label label' : String) (counts : List Int) (levels : List Value) :
    summarizeRun program (runValue label' counts) levels =
      (·.labelled (.text label')) <$> summarizeRun program (runValue label counts) levels := by
  unfold summarizeRun
  rw [readAndSummarize_runValue, readAndSummarize_runValue]
  cases Histogram.ofValue (.list (counts.map .int)) with
  | error f =>
    simp only [bind, Except.bind]
    cases f.family <;> rfl
  | ok h =>
    rw [ok_bind, ok_bind, Run.summarize_labelled (.text label)]
    cases Run.summarize ⟨.text label, h⟩ levels with
    | error f =>
      simp only [bind, Except.bind, Except.map]
      cases f.family <;> rfl
    | ok summary => rfl

theorem outputText_labelled (label label' : String) (s : Summary) (v : Value) (precision : Nat) :
    outputText false label' (s.labelled v) precision = outputText false label s precision := by
  simp only [outputText, reportLines_labelled, Bool.false_eq_true, if_false]

/-- A run that only prints lines does not depend on the label. -/
theorem execute_labelled (hjson : r.json = false) (hxlsx : nonEmpty r.xlsx = none)
    (label : Given String) :
    execute program files { r with label := label } = execute program files r := by
  unfold execute
  simp only [hjson, hxlsx]
  refine bind_congr fun defaults ↦ bind_congr fun precision ↦ bind_congr fun quantiles ↦
    bind_congr fun _ ↦ ?_
  rw [summarizeRun_labelled ((nonEmpty r.label).getD defaults.label), bind_map_left]
  refine bind_congr fun summary ↦ ?_
  rw [outputText_labelled ((nonEmpty r.label).getD defaults.label)]

/-- Whether two requests differ in the label at most. -/
def Request.SameButLabel (r r' : Request) : Prop :=
  ∃ label, r' = { r with label := label }

theorem isKept_sameButLabel : IsKept Request.SameButLabel := by
  rintro change hchange r _ ⟨label, rfl⟩
  cases hchange with
  | label s => exact ⟨s, rfl⟩
  | _ => exact ⟨label, rfl⟩

/-! ## Precisions -/

/-- A run that only prints a JSON document does not depend on the precision. -/
theorem execute_precision (hjson : r.json = true) (hxlsx : nonEmpty r.xlsx = none) {n : Nat}
    (hprecision : r.precision = .value n) (n' : Nat) :
    execute program files { r with precision := .value n' } = execute program files r := by
  simp only [execute, hjson, hxlsx, hprecision, choosePrecision_value, pure_bind, outputText,
    if_true]

/-- Whether two requests differ in the precision at most, and then ask for one that can be used. -/
def Request.SameButPrecision (r r' : Request) : Prop :=
  r' = r ∨ ∃ n n' : Nat, r.precision = .value n ∧ r' = { r with precision := .value n' }

theorem isKept_sameButPrecision : IsKept Request.SameButPrecision := by
  rintro change hchange r _ (rfl | ⟨n, n', hprecision, rfl⟩)
  · exact .inl rfl
  · cases hchange with
    | precision n => exact .inl rfl
    | _ => exact .inr ⟨n, n', hprecision, rfl⟩

/-! ## Workbooks -/

/-- Whether two requests differ in the workbook at most. -/
def Request.SameButBook (r r' : Request) : Prop :=
  ∃ path, r' = { r with xlsx := path }

theorem isKept_sameButBook : IsKept Request.SameButBook := by
  rintro change hchange r _ ⟨path, rfl⟩
  cases hchange with
  | xlsx s => exact ⟨s, rfl⟩
  | _ => exact ⟨path, rfl⟩

variable {report : Report} {arguments : List String} {r' : Request}

/-- Until a workbook has been saved there are only messages. -/
theorem isMessage_of_saveBook_error {stop : Stop}
    (h : (saveBook files r report).result = .error stop) :
    ∀ e ∈ (saveBook files r report).notes, e.IsMessage := by
  unfold saveBook at h ⊢
  cases hpath : nonEmpty r.xlsx with
  | none =>
    rw [hpath] at h
    cases h
  | some path =>
    rw [hpath] at h
    simp only [writeWorkbook] at h ⊢
    generalize files.library.write _ _ _ _ _ = written at h ⊢
    obtain ⟨notes, result⟩ := written
    cases result with
    | ok entry => cases h
    | error f =>
      exact ((within_say _).bind fun _ _ ↦ within_translate_progress ⟨notes, .error f⟩).notes

/-- A run that saved a workbook has prepared its report and saved it to the end. -/
theorem exists_saved (hread : readArguments arguments = .ok r)
    (hbook : (run program files arguments).workbook? ≠ none) :
    ∃ report, (prepare program files r).result = .ok report ∧
      (saveBook files r report).result = .ok () := by
  have hevents : ¬ ∀ e ∈ (execute program files r).notes, e.IsMessage := by
    intro hmessages
    apply hbook
    rw [run_of_request hread]
    exact findSome?_workbook_eq_none hmessages
  rw [execute_eq] at hevents
  have hmessages := (within_prepare program files r).notes
  cases hprepare : (prepare program files r).result with
  | error stop =>
    rw [Transcript.bind_of_error hprepare] at hevents
    exact absurd hmessages hevents
  | ok report =>
    refine ⟨report, rfl, ?_⟩
    cases hsave : (saveBook files r report).result with
    | ok _ => rfl
    | error stop =>
      rw [Transcript.notes_bind_of_ok hprepare, deliver, Transcript.bind_of_error hsave] at hevents
      refine absurd (fun e he ↦ ?_) hevents
      rcases List.mem_append.1 he with he | he
      · exact hmessages e he
      · exact isMessage_of_saveBook_error hsave e he

/-- Two deliveries of one report that save what they are to save print the same. -/
theorem deliver_eq (hjson : r.json = r'.json) (hsave : (saveBook files r report).result = .ok ())
    (hsave' : (saveBook files r' report).result = .ok ()) :
    (deliver files r report).result = (deliver files r' report).result ∧
      String.join ((deliver files r report).notes.map Event.output) =
        String.join ((deliver files r' report).notes.map Event.output) := by
  have hsilent := (within_saveBook files r report).notes
  have hsilent' := (within_saveBook files r' report).notes
  unfold deliver
  rw [Transcript.result_bind_of_ok hsave, Transcript.result_bind_of_ok hsave',
    Transcript.notes_bind_of_ok hsave, Transcript.notes_bind_of_ok hsave', List.map_append,
    List.map_append, String.join_append, String.join_append, join_output_eq_empty hsilent,
    join_output_eq_empty hsilent', hjson]
  exact ⟨rfl, rfl⟩

/-- Where everything that is asked for is saved, a workbook more or less changes neither the end of a
run nor what it prints. -/
theorem run_of_saved {arguments' : List String} (hread : readArguments arguments = .ok r)
    (hread' : readArguments arguments' = .ok r') (hsame : r.SameButBook r')
    (hbook : nonEmpty r.xlsx ≠ none → (run program files arguments).workbook? ≠ none)
    (hbook' : (run program files arguments').workbook? ≠ none) :
    (run program files arguments').result = (run program files arguments).result ∧
      (run program files arguments').output = (run program files arguments).output := by
  obtain ⟨report, hprepare', hsave'⟩ := exists_saved hread' hbook'
  obtain ⟨path, rfl⟩ := hsame
  have hprepare : (prepare program files r).result = .ok report := hprepare'
  have hsave : (saveBook files r report).result = .ok () := by
    cases hpath : nonEmpty r.xlsx with
    | none =>
      unfold saveBook
      rw [hpath]
      rfl
    | some s =>
      obtain ⟨report', hprepared, hsave⟩ := exists_saved hread (hbook (by simp [hpath]))
      obtain rfl : report = report' := Except.ok.inj (hprepare.symm.trans hprepared)
      exact hsave
  have hjson : ({ r with xlsx := path } : Request).json = r.json := rfl
  obtain ⟨hresult, houtput⟩ := deliver_eq hjson hsave' hsave
  rw [run_of_request hread, run_of_request hread', execute_eq, execute_eq]
  unfold Outcome.output
  dsimp only
  rw [Transcript.result_bind_of_ok hprepare, Transcript.result_bind_of_ok hprepare',
    Transcript.notes_bind_of_ok hprepare, Transcript.notes_bind_of_ok hprepare', hresult,
    List.map_append, List.map_append, String.join_append, String.join_append, houtput]
  exact ⟨rfl, rfl⟩

/-! ## Commands -/

/-- Commands whose requests are carried out alike have the same outcome. -/
theorem run_eq_of_agree {arguments' : List String} {related : Request → Request → Prop}
    (hagree : Agree related (readArguments arguments) (readArguments arguments'))
    (hexecute : ∀ r r', readArguments arguments = .ok r → related r r' →
      execute program files r' = execute program files r ∧ r'.quiet = r.quiet) :
    run program files arguments = run program files arguments' := by
  unfold run
  revert hagree hexecute
  cases readArguments arguments with
  | error ending =>
    cases readArguments arguments' with
    | error ending' =>
      rintro rfl _
      rfl
    | ok r' => exact fun hagree _ ↦ hagree.elim
  | ok r =>
    cases readArguments arguments' with
    | error ending' => exact fun hagree _ ↦ hagree.elim
    | ok r' =>
      intro hagree hexecute
      obtain ⟨hexecute, hquiet⟩ := hexecute r r' rfl hagree
      dsimp only
      rw [hexecute, hquiet]

/-- Each setting matters only where it is shown.  Where lines are printed and no workbook is asked for,
all labels have the same outcome; where a JSON document is printed and no workbook is asked for, all
precisions have that can be used.  A workbook that is saved changes neither how a run ends nor what it
prints, as long as any workbook that is asked for without it is saved as well.  The options stand
before any separator, after which they would be operands. -/
theorem run_without_interference (program : String) (files : Files) (before after : List String)
    (hbefore : "--" ∉ before) :
    (∀ given given' label label', Chooses given (.label label) → Chooses given' (.label label') →
      (∀ r ∈ (readArguments (before ++ given ++ after)).toOption,
        r.json = false ∧ nonEmpty r.xlsx = none) →
      run program files (before ++ given ++ after) =
        run program files (before ++ given' ++ after)) ∧
    (∀ given given' (n n' : Nat), Chooses given (.precision n) → Chooses given' (.precision n') →
      (∀ r ∈ (readArguments (before ++ given ++ after)).toOption,
        r.json = true ∧ nonEmpty r.xlsx = none) →
      run program files (before ++ given ++ after) =
        run program files (before ++ given' ++ after)) ∧
    (∀ given path, Chooses given (.xlsx path) →
      (run program files (before ++ given ++ after)).workbook? ≠ none →
      (∀ r ∈ (readArguments (before ++ after)).toOption, nonEmpty r.xlsx ≠ none →
        (run program files (before ++ after)).workbook? ≠ none) →
      (run program files (before ++ given ++ after)).result =
          (run program files (before ++ after)).result ∧
        (run program files (before ++ given ++ after)).output =
          (run program files (before ++ after)).output) := by
  refine ⟨?_, ?_, ?_⟩
  · intro given given' label label' hgiven hgiven' hlines
    have hset (r : Request) :
        ((Choice.label label).set r).SameButLabel ((Choice.label label').set r) :=
      ⟨.value label', rfl⟩
    apply run_eq_of_agree (readArguments_agree isKept_sameButLabel hgiven hgiven' hset hbefore)
    rintro r _ hread ⟨s, rfl⟩
    obtain ⟨hjson, hxlsx⟩ := hlines r (by rw [hread]; rfl)
    exact ⟨execute_labelled hjson hxlsx s, rfl⟩
  · intro given given' n n' hgiven hgiven' hdocument
    have hset (r : Request) :
        ((Choice.precision n).set r).SameButPrecision ((Choice.precision n').set r) :=
      .inr ⟨n, n', rfl, rfl⟩
    apply run_eq_of_agree (readArguments_agree isKept_sameButPrecision hgiven hgiven' hset hbefore)
    rintro r _ hread (rfl | ⟨m, m', hprecision, rfl⟩)
    · exact ⟨rfl, rfl⟩
    · obtain ⟨hjson, hxlsx⟩ := hdocument r (by rw [hread]; rfl)
      exact ⟨execute_precision hjson hxlsx hprecision m', rfl⟩
  · intro given path hgiven hsaved hsaved'
    have hset (r : Request) : r.SameButBook ((Choice.xlsx path).set r) := ⟨.value path, rfl⟩
    cases hread : readArguments (before ++ given ++ after) with
    | error ending =>
      refine absurd ?_ hsaved
      unfold run
      rw [hread]
      cases ending <;> rfl
    | ok r' =>
      obtain ⟨r, hread', hsame⟩ :=
        exists_request_without isKept_sameButBook hgiven hset hbefore hread
      exact run_of_saved hread' hread hsame (hsaved' r (by rw [hread']; rfl)) hsaved

/-- Two labels, two precisions and a workbook, each beside two counts. -/
theorem run_without_interference_on_two_counts :
    let run := run "histogram-mean" (Directory.toFiles [])
    run ["1", "2", assigned "--label" "rolls"] = run ["1", "2", assigned "--label" "draws"] ∧
      run ["1", "2", "--json", assigned "--precision" "0"] =
        run ["1", "2", "--json", assigned "--precision" "1000"] ∧
      (run ["1", "2", assigned "--xlsx" "out.xlsx"]).result = (run ["1", "2"]).result ∧
      (run ["1", "2", assigned "--xlsx" "out.xlsx"]).output = (run ["1", "2"]).output := by
  intro run
  have hrolls : Choice.read? .label "rolls" = some (.label "rolls") := rfl
  have hdraws : Choice.read? .label "draws" = some (.label "draws") := rfl
  have hzero : Choice.read? .precision "0" = some (.precision 0) := by decide +kernel
  have hlarge : Choice.read? .precision "1000" = some (.precision 1000) := by decide +kernel
  have hout : Choice.read? .xlsx "out.xlsx" = some (.xlsx "out.xlsx") := rfl
  obtain ⟨hlabel, _, hbook⟩ := run_without_interference "histogram-mean" (Directory.toFiles [])
    ["1", "2"] [] (by decide)
  obtain ⟨_, hprecision, _⟩ := run_without_interference "histogram-mean" (Directory.toFiles [])
    ["1", "2", "--json"] [] (by decide)
  have hlabels := hlabel _ _ _ _ (chooses_assigned hrolls) (chooses_assigned hdraws)
    (by decide +kernel)
  have hprecisions := hprecision _ _ 0 1000 (chooses_assigned hzero) (chooses_assigned hlarge)
    (by decide +kernel)
  have hsaved := hbook _ _ (chooses_assigned hout) (by decide +kernel) (by decide +kernel)
  exact ⟨hlabels, hprecisions, hsaved⟩

end Command

end BucketStats

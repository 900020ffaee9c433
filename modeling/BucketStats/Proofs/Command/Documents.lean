import BucketStats.Proofs.Command.Breakdown
import BucketStats.Proofs.Command.Options
import BucketStats.Proofs.Command.Outputs
import BucketStats.Proofs.Summary.Documents
/-!
# Documents of runs

A run that is asked for JSON and succeeds prints a document in ASCII.  Whoever reads it finds the
label as it was given, the exact totals, the very number that the mean is, and the bucket at each
quantile that was asked for.
-/

namespace BucketStats

namespace Command

variable {program : String} {files : Files} {r : Request}

/-- A label and the wish for JSON at the end of the arguments are heard. -/
theorem readArguments_label_json {before : List String} {label : String}
    (hseparator : "--" ∉ before) (hread : readArguments before = .ok r) (hlabel : label ≠ "--") :
    readArguments (before ++ [assigned "--label" label, "--json"]) =
      .ok { r with label := .value label, json := true } := by
  have hchoices : [WrittenOption.attached .label label, .flag .json].map WrittenOption.choice? =
      [Choice.label label, .json].map some := by
    simp [WrittenOption.choice?, Choice.read?, hlabel]
  have happend := readArguments_append_options hseparator hchoices
  rw [hread] at happend
  exact happend

/-- Whatever label a run for JSON is given, what it prints is in ASCII and is read as the figures of
its counts under that label. -/
theorem read_output_of_label {before : List String} {label : String} (hseparator : "--" ∉ before)
    (hread : readArguments before = .ok r) (hlabel : label ≠ "") (hlabel' : label ≠ "--")
    (hend : (run program files (before ++ [assigned "--label" label, "--json"])).result = .ok 0) :
    ∃ (h : Histogram) (defaults : Defaults) (levels : List Binary64) (mean : Binary64),
      r.counts = (h.map fun (count : Nat) ↦ (count : Int)) ∧
      DefaultsInUse files r.config defaults ∧
      quantilesAsked r.quantiles defaults.quantiles = levels.map .value ∧
      (∀ level ∈ levels, level.inUnitInterval = true) ∧
      Run.summarize ⟨.text label, h⟩ (levels.map .float) =
        .ok ⟨.text label, h.length, ⟨h.total, h.weightedSum⟩, mean,
          Run.quantileEntries ⟨.text label, h⟩ levels⟩ ∧
      (∀ c ∈ (run program files (before ++ [assigned "--label" label, "--json"])).output.toList,
        c.toNat < 0x80) ∧
      Document.read (run program files (before ++ [assigned "--label" label, "--json"])).output =
        some (h.document label levels mean) := by
  obtain ⟨report, text, hprepare, _, htext, houtput, _⟩ :=
    exists_report (readArguments_label_json hseparator hread hlabel') hend
  obtain ⟨document, hwrite, rfl⟩ := text_eq_document htext
  obtain ⟨defaults, hdefaults, _, hquantiles, hsummarize, hreport⟩ :=
    result_prepare_eq_ok_iff.1 hprepare
  obtain ⟨h, hcounts, hsummary⟩ := result_summarizeRun_eq_ok_iff.1 hsummarize
  obtain ⟨hasked, hunit⟩ := quantilesAsked_of_chooseQuantiles hquantiles
  rw [nonEmpty_value hlabel, Option.getD_some] at hreport
  rw [hreport] at hsummary hwrite
  obtain ⟨hascii, hdocument⟩ := Summary.read_toJson hsummary hwrite
  obtain ⟨_, mean, _, hfigures⟩ := Run.summarize_eq_ok_iff.1 hsummary
  rw [hfigures] at hsummary hdocument
  rw [houtput]
  exact ⟨h, defaults, report.quantiles, mean, hcounts, result_loadDefaults_eq_ok_iff.1 hdefaults,
    hasked, hunit, hsummary, hascii, hdocument⟩

/-- A label may hold marks of JSON, controls and characters past the first plane. -/
theorem read_output_of_label_with_marks :
    let label := String.ofList [Text.doubleQuote, '\\', '\n', Char.ofNat 0x1f600]
    let before := ["0", "2", "1", "--quantile", "0.5"]
    let output := (run "histogram-mean" (Directory.toFiles [])
      (before ++ [assigned "--label" label, "--json"])).output
    ∃ (h : Histogram) (levels : List Binary64) (mean : Binary64),
      [0, 2, 1] = (h.map fun (count : Nat) ↦ (count : Int)) ∧
      [Given.value (.ofRank false (1022 * twoPow 52))] = levels.map .value ∧
      (∀ c ∈ output.toList, c.toNat < 0x80) ∧
      Document.read output = some (h.document label levels mean) := by
  intro label before output
  let request : Request :=
    { Request.empty with
      counts := [0, 2, 1]
      quantiles := [.value (.ofRank false (1022 * twoPow 52))] }
  have hread : readArguments before = .ok request := by decide +kernel
  have hend : (run "histogram-mean" (Directory.toFiles [])
      (before ++ [assigned "--label" label, "--json"])).result = .ok 0 := by
    decide +kernel
  obtain ⟨h, _, levels, mean, hcounts, _, hlevels, _, _, hascii, hdocument⟩ :=
    read_output_of_label (by decide) hread (by decide) (by decide) hend
  exact ⟨h, levels, mean, hcounts, hlevels, hascii, hdocument⟩

end Command

end BucketStats

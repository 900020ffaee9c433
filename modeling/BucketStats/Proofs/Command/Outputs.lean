import BucketStats.Proofs.Command.Stages
import BucketStats.Proofs.Command.Summaries
import BucketStats.Proofs.Summary.Documents
import BucketStats.Proofs.Summary.Means
import BucketStats.Proofs.Workbook.Summary
/-!
# The outputs of one report

A report can be delivered as lines of text, as a JSON document and as a workbook.  All three show the
same figures: the lines and the document go through the entries of the summary, and the summary sheet
has a column for each requested level, in which it shows the entry under the level's label.
-/

namespace BucketStats.Command

variable {program : String} {files : Files} {r r' : Request} {report : Report}

/-- A report that was prepared has the precision in use and the summary of the counts. -/
theorem exists_run_of_prepare (hprepare : (prepare program files r).result = .ok report) :
    (∃ defaults, (loadDefaults program files r.config).result = .ok defaults ∧
      (choosePrecision program r.precision defaults.precision).result = .ok report.precision) ∧
    ∃ h : Histogram, r.counts = (h.map fun (count : Nat) ↦ (count : Int)) ∧
      Run.summarize ⟨.text report.label, h⟩ report.levels = .ok report.summary := by
  obtain ⟨defaults, hdefaults, hprecision, _, hsummary, _⟩ := result_prepare_eq_ok_iff.1 hprepare
  exact ⟨⟨defaults, hdefaults, hprecision⟩, result_summarizeRun_eq_ok_iff.1 hsummary⟩

/-! ## Each output -/

theorem text_eq_document {text : String} (h : report.text true = .ok text) :
    ∃ document, (report.summary.toJson report.label).write 0 = .ok document ∧
      text = document ++ "\n" := by
  obtain ⟨document, hdocument, h⟩ := bind_eq_ok_iff.1 h
  cases h
  exact ⟨document, hdocument, rfl⟩

end BucketStats.Command

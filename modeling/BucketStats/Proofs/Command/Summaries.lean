import BucketStats.Command.Run
import BucketStats.Proofs.Histogram.Checked
import BucketStats.Proofs.Histogram.Totals
import BucketStats.Proofs.Summary.Quantiles
/-!
# Summaries of counts

The only run of the command is made of the counts that were given.  It has a summary exactly if none
of them is negative and they hold observations; otherwise the command refuses it or has no data, and
nothing else can happen to it.
-/

namespace BucketStats.Command

open Steps

variable {program : String} {counts : List Int}

theorem readAndSummarize_runValue (label : String) (counts : List Int) (levels : List Value) :
    Run.readAndSummarize levels (runValue label counts) =
      Histogram.ofValue (.list (counts.map .int)) >>= fun h ↦
        Run.summarize ⟨.text label, h⟩ levels >>= fun summary ↦ .ok (⟨.text label, h⟩, summary) := by
  have hcounts : (runValue label counts).item "counts" = .ok (.list (counts.map .int)) := rfl
  have hlabel : (runValue label counts).item "label" = .ok (.text label) := rfl
  have hsize : (Value.list (counts.map .int)).size = .ok (counts.map Value.int).length := rfl
  unfold Run.readAndSummarize Run.ofValue
  simp only [hcounts, hlabel, hsize, ok_bind]
  cases Histogram.ofValue (.list (counts.map .int)) with
  | error f => rfl
  | ok h => rfl

theorem readAndSummarize_of_negative (label : String) (levels : List Value) {first : Nat}
    {count : Int} (hfirst : counts.findIdx? (· < 0) = some first)
    (hcount : counts[first]? = some count) (hlimit : Decimal.WithinLimit count) :
    Run.readAndSummarize levels (runValue label counts) =
      .error (.negativeCount first (toString count)) := by
  rw [readAndSummarize_runValue, Histogram.ofValue_ints_eq_error hfirst hcount hlimit]
  rfl

theorem readAndSummarize_of_histogram (label : String) (levels : List Value) {h : Histogram}
    (hcounts : counts = h.map fun (count : Nat) ↦ (count : Int)) :
    Run.readAndSummarize levels (runValue label counts) =
      Run.summarize ⟨.text label, h⟩ levels >>= fun summary ↦ .ok (⟨.text label, h⟩, summary) := by
  rw [readAndSummarize_runValue, Histogram.ofValue_ints_eq_ok_iff.2 hcounts]
  rfl

theorem readAndSummarize_of_zeros (label : String) (levels : List Value)
    (hzeros : ∀ n ∈ counts, n = 0) :
    Run.readAndSummarize levels (runValue label counts) =
      .error (.noObservations counts.length) := by
  have hcounts : counts =
      (List.replicate counts.length 0).map fun (count : Nat) ↦ (count : Int) := by
    rw [List.map_replicate]
    exact List.eq_replicate_of_mem hzeros
  have htotal : Histogram.total (List.replicate counts.length 0) = 0 :=
    Histogram.total_replicate_zero _
  rw [readAndSummarize_of_histogram label levels hcounts]
  unfold Run.summarize Histogram.weightedMean
  rw [if_pos htotal, List.length_replicate]
  rfl

/-- The counts of a run that is summarized are a histogram. -/
theorem result_summarizeRun_eq_ok_iff {label : String} {levels : List Value} {summary : Summary} :
    (summarizeRun program (runValue label counts) levels).result = .ok summary ↔
      ∃ h : Histogram, counts = (h.map fun (count : Nat) ↦ (count : Int)) ∧
        Run.summarize ⟨.text label, h⟩ levels = .ok summary := by
  unfold summarizeRun
  constructor
  · intro h
    cases hread : Run.readAndSummarize levels (runValue label counts) with
    | error f =>
      rw [hread] at h
      dsimp only at h
      split at h <;> cases h
    | ok entry =>
      rw [hread] at h
      cases h
      rw [readAndSummarize_runValue] at hread
      obtain ⟨h, hcounts, hread⟩ := bind_eq_ok_iff.1 hread
      obtain ⟨summary, hsummary, hread⟩ := bind_eq_ok_iff.1 hread
      cases hread
      exact ⟨h, Histogram.ofValue_ints_eq_ok_iff.1 hcounts, hsummary⟩
  · rintro ⟨h, hcounts, hsummary⟩
    rw [readAndSummarize_of_histogram label levels hcounts, hsummary]
    rfl

end BucketStats.Command

import BucketStats.Proofs.Histogram.Totals
import BucketStats.Proofs.Json.RoundTrip
import BucketStats.Proofs.Summary.Quantiles
/-!
# Documents of summaries

A summary is written as a document in ASCII.  Whoever reads it finds the figures of the histogram that
was summarized: its label, the exact totals, the very number that the mean is, and the bucket at each
level.
-/

namespace BucketStats

/-- The figures of a histogram under a label: quantiles are there if any levels are. -/
def Histogram.document (h : Histogram) (label : String) (levels : List Binary64)
    (mean : Binary64) : Document :=
  .object ([("label", .text label), ("buckets", .integer h.length), ("total_count", .integer h.total),
      ("total_weighted_sum", .integer h.weightedSum), ("mean", .number mean)] ++
    if levels.isEmpty then []
    else [("quantiles", .object ((Run.quantileEntries ⟨.text label, h⟩ levels).map
      fun e ↦ (e.1, .integer e.2)))])

namespace Summary

variable {label : String} {h : Histogram} {levels : List Binary64} {summary : Summary}

theorem numbers_toJson (label : String) (s : Summary) : (s.toJson label).numbers = [s.mean] := by
  have hquantiles : Json.fieldNumbers (if s.quantiles.isEmpty then []
      else [("quantiles", .object (s.quantiles.map fun e ↦ (e.1, .integer e.2)))]) = [] := by
    cases s.quantiles with
    | nil => rfl
    | cons e rest =>
      rw [List.isEmpty_cons, if_neg Bool.false_ne_true, Json.fieldNumbers, Json.numbers,
        Json.fieldNumbers_map_integer]
      rfl
  unfold toJson
  simp only [Json.numbers, List.cons_append, List.nil_append, Json.fieldNumbers, hquantiles]

/-- There is an entry exactly if there is a level. -/
theorem isEmpty_quantileEntries (run : Run) (levels : List Binary64) :
    (run.quantileEntries levels).isEmpty = levels.isEmpty := by
  cases levels with
  | nil => rfl
  | cons level rest =>
    have hfound := run.find?_quantileEntries (List.mem_cons_self : level ∈ level :: rest)
    cases hentries : run.quantileEntries (level :: rest) with
    | nil =>
      rw [hentries] at hfound
      cases hfound
    | cons e more => rfl

/-- What the document with a summary says. -/
theorem document_toJson (hsummary : Run.summarize ⟨.text label, h⟩ (levels.map .float) = .ok summary) :
    (summary.toJson label).document = h.document label levels summary.mean := by
  obtain ⟨_, mean, _, rfl⟩ := Run.summarize_eq_ok_iff.1 hsummary
  have hentries : Entries.ofList ((Run.quantileEntries ⟨.text label, h⟩ levels).map
      fun e ↦ (e.1, Document.integer e.2)) =
      (Run.quantileEntries ⟨.text label, h⟩ levels).map fun e ↦ (e.1, .integer e.2) := by
    apply Entries.ofList_of_nodup
    rw [List.map_map]
    exact Entries.nodup_keys_ofList _
  unfold toJson Histogram.document
  dsimp only
  rw [isEmpty_quantileEntries]
  cases levels with
  | nil => rfl
  | cons level rest =>
    rw [List.isEmpty_cons, if_neg Bool.false_ne_true, if_neg Bool.false_ne_true]
    simp only [Json.document, List.cons_append, List.nil_append, Json.fieldDocuments,
      Json.fieldDocuments_map_integer, hentries]
    rfl

/-- The text of a summary is in ASCII and is read as the figures of its histogram. -/
theorem read_toJson {text : String}
    (hsummary : Run.summarize ⟨.text label, h⟩ (levels.map .float) = .ok summary)
    (hwrite : (summary.toJson label).write 0 = .ok text) :
    (∀ c ∈ (text ++ "\n").toList, c.toNat < 0x80) ∧
      Document.read (text ++ "\n") = some (h.document label levels summary.mean) := by
  have hfinite : ∀ x ∈ (summary.toJson label).numbers, ∃ y, x = .finite y := by
    obtain ⟨hpos, mean, hmean, rfl⟩ := Run.summarize_eq_ok_iff.1 hsummary
    rw [numbers_toJson, List.forall_mem_singleton]
    obtain ⟨rounded, hrounded, _⟩ := exists_of_quotient_natCast hpos hmean
    exact ⟨rounded, hrounded⟩
  have hfeed : Json.AllAscii "\n" := List.all_iff_forall_prop.1 (by decide)
  refine ⟨(Json.allAscii_write 0 _ hfinite text hwrite).append hfeed, ?_⟩
  rw [Json.read_write hfinite hwrite, document_toJson hsummary]

end Summary

end BucketStats

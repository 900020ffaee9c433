import BucketStats.Command.Run
import BucketStats.Proofs.Json
import BucketStats.Proofs.Summary.Lines
import BucketStats.Proofs.Summary.Quantiles
/-!
# Texts that can be written

The document with a summary holds its totals, and the lines of a report its totals and its mean.
Everything else in them is a size or an index, so the text is written unless a total has too many
digits or, as lines, the precision asks for too many places.
-/

namespace BucketStats

theorem Summary.integers_toJson (label : String) (s : Summary) :
    (s.toJson label).integers =
      [(s.buckets : Int), (s.totals.totalCount : Int), (s.totals.totalWeightedSum : Int)] ++
        s.quantiles.map fun e ↦ (e.2 : Int) := by
  have hobject (fields : List (String × Json)) :
      Json.fieldIntegers [("quantiles", .object fields)] = Json.fieldIntegers fields := by
    rw [Json.fieldIntegers, Json.integers]
    exact List.append_nil _
  have hquantiles : Json.fieldIntegers (if s.quantiles.isEmpty then []
      else [("quantiles", .object (s.quantiles.map fun e ↦ (e.1, .integer e.2)))]) =
      s.quantiles.map fun e ↦ (e.2 : Int) := by
    cases s.quantiles with
    | nil => rfl
    | cons e rest =>
      have hempty : ¬ (e :: rest).isEmpty = true := Bool.false_ne_true
      rw [if_neg hempty, hobject, Json.fieldIntegers_map_integer]
  unfold Summary.toJson
  rw [Json.integers, Json.fieldIntegers_append, hquantiles]
  rfl

namespace Command

variable {label : String} {summary : Summary}

theorem exists_outputText_document_iff {precision : Nat} :
    (∃ text, outputText true label summary precision = .ok text) ↔
      ∀ n ∈ (summary.toJson label).integers, Decimal.WithinLimit n := by
  rw [← Json.exists_write_iff 0]
  unfold outputText
  simp only [if_true, bind_eq_ok_iff]
  constructor
  · rintro ⟨_, text, htext, _⟩
    exact ⟨text, htext⟩
  · rintro ⟨text, htext⟩
    exact ⟨_, text, htext, rfl⟩

theorem exists_outputText_lines_iff {precision : Nat} :
    (∃ text, outputText false label summary precision = .ok text) ↔
      ∃ lines, reportLines summary.toValue (.int precision) = .ok lines := by
  unfold outputText
  simp only [Bool.false_eq_true, if_false, bind_eq_ok_iff]
  constructor
  · rintro ⟨_, lines, hlines, _⟩
    exact ⟨lines, hlines⟩
  · rintro ⟨lines, hlines⟩
    exact ⟨_, lines, hlines, rfl⟩

/-- Sizes and indices can be written. -/
theorem withinLimit_of_lt_indexLimit {n : Nat} (h : n < Histogram.indexLimit) :
    Decimal.WithinLimit n :=
  Decimal.withinLimit_of_lt 19 (by decide) (h.trans (by decide))

/-- The buckets at quantiles can be written. -/
theorem withinLimit_of_mem_quantileEntries {h : Histogram} (hpos : 0 < h.total)
    (hlength : h.length < Histogram.indexLimit) (label : Value) (levels : List Binary64) :
    ∀ e ∈ Run.quantileEntries ⟨label, h⟩ levels, Decimal.WithinLimit e.2 := by
  intro e he
  have hlt : e.2 < h.length := Run.lt_of_mem_quantileEntries hpos levels e he
  exact withinLimit_of_lt_indexLimit (hlt.trans hlength)

/-- The text with a summary of counts is written unless a total has too many digits or, as lines, the
precision asks for too many places. -/
theorem exists_outputText_iff {json : Bool} {h : Histogram} {levels : List Binary64}
    {precision : Nat} (hlength : h.length < Histogram.indexLimit)
    (hsummary : Run.summarize ⟨.text label, h⟩ (levels.map .float) = .ok summary) :
    (∃ text, outputText json label summary precision = .ok text) ↔
      Decimal.WithinLimit h.total ∧ Decimal.WithinLimit h.weightedSum ∧
        (json = false → precision < NumberFormat.placesLimit) := by
  obtain ⟨hpos, mean, _, rfl⟩ := Run.summarize_eq_ok_iff.1 hsummary
  have hbuckets := withinLimit_of_mem_quantileEntries hpos hlength (.text label) levels
  cases json with
  | true =>
    have hlast : ∀ n ∈ (Run.quantileEntries ⟨.text label, h⟩ levels).map fun e ↦ (e.2 : Int),
        Decimal.WithinLimit n := by
      intro n hn
      obtain ⟨e, he, rfl⟩ := List.mem_map.1 hn
      exact hbuckets e he
    have hsize : Decimal.WithinLimit h.length := withinLimit_of_lt_indexLimit hlength
    rw [exists_outputText_document_iff, Summary.integers_toJson, List.forall_mem_append,
      List.forall_mem_cons, List.forall_mem_cons, List.forall_mem_singleton]
    constructor
    · rintro ⟨⟨_, hcount, hsum⟩, _⟩
      exact ⟨hcount, hsum, fun hfalse ↦ by cases hfalse⟩
    · rintro ⟨hcount, hsum, _⟩
      exact ⟨⟨hsize, hcount, hsum⟩, hlast⟩
  | false =>
    rw [exists_outputText_lines_iff]
    constructor
    · rintro ⟨lines, hlines⟩
      obtain ⟨⟨hsum, hcount, hprecision, _⟩, _⟩ := reportLines_eq_ok_iff.1 hlines
      exact ⟨hcount, hsum, fun _ ↦ hprecision⟩
    · rintro ⟨hcount, hsum, hprecision⟩
      exact ⟨_, reportLines_eq_ok_iff.2 ⟨⟨hsum, hcount, hprecision rfl, hbuckets⟩, rfl⟩⟩

end Command

end BucketStats

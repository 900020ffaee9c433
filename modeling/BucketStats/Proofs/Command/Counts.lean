import BucketStats.Proofs.Command.Operands
import BucketStats.Proofs.Command.Outputs
/-!
# Runs on counts alone

A command line that holds nothing but integers ends in one of three ways.  The first negative count
is refused by its index; without observations there is nothing to report; and otherwise the run
prints the totals and the mean, which is rounded once to binary64 and once to four places.
-/

namespace BucketStats.Command

open Steps

variable {program : String} {files : Files} {counts : List Int}

/-- What a run on counts alone tells the user before it summarizes them. -/
def computing (counts : List Int) : String :=
  s!"Computing mean over {counts.length} bucket(s)"

/-- A request for a report on counts at levels that leaves everything else open. -/
def Request.plain (counts : List Int) (levels : List Binary64) : Request :=
  { Request.empty with
    counts := counts
    quantiles := levels.map .value }

theorem chooseQuantiles_value {levels : List Binary64}
    (hlevels : ∀ level ∈ levels, level.inUnitInterval = true) :
    chooseQuantiles program (levels.map .value) [] = pure levels := by
  have hcheck : (levels.map Given.value).mapM (checkQuantile program) = pure levels := by
    induction levels with
    | nil => rfl
    | cons level rest ih =>
      obtain ⟨hlevel, hrest⟩ := List.forall_mem_cons.1 hlevels
      have hone : checkQuantile program (.value level) = pure level := by
        simp only [checkQuantile, if_pos hlevel]
      rw [List.map_cons, List.mapM_cons, hone, pure_bind, ih hrest, pure_bind]
  unfold chooseQuantiles
  rw [← hcheck]
  cases levels <;> rfl

theorem execute_plain {levels : List Binary64}
    (hlevels : ∀ level ∈ levels, level.inUnitInterval = true) :
    execute program files (Request.plain counts levels) = (do
      say (computing counts)
      let summary ← summarizeRun program (runValue Defaults.builtinLabel counts) (levels.map .float)
      let text ← orFail (outputText false Defaults.builtinLabel summary Defaults.builtinPrecision)
      print text
      say "Done") := by
  have hdefaults : loadDefaults program files .absent =
      pure ⟨Defaults.builtinLabel, Defaults.builtinPrecision, []⟩ := rfl
  have hprecision : choosePrecision program .absent Defaults.builtinPrecision =
      pure Defaults.builtinPrecision := rfl
  unfold execute Request.plain
  simp only [Request.empty, hdefaults, pure_bind, hprecision, chooseQuantiles_value hlevels]
  rfl

theorem execute_counts : execute program files { Request.empty with counts := counts } = (do
    say (computing counts)
    let summary ← summarizeRun program (runValue Defaults.builtinLabel counts) []
    let text ← orFail (outputText false Defaults.builtinLabel summary Defaults.builtinPrecision)
    print text
    say "Done") :=
  execute_plain fun _ hlevel ↦ absurd hlevel List.not_mem_nil

theorem run_toString (hlimit : ∀ n ∈ counts, Decimal.WithinLimit n) :
    run program files (counts.map toString) =
      let steps := execute program files { Request.empty with counts := counts }
      ⟨steps.notes, resultOf steps.result, false⟩ := by
  unfold run
  rw [readArguments_toString hlimit]
  rfl

theorem length_usage (program : String) : s!"usage: {program} ".length = program.length + 8 := by
  have htext : s!"usage: {program} " = "usage: " ++ (program ++ " ") := String.append_assoc
  have hfirst : "usage: ".length = 7 := by decide
  have hlast : " ".length = 1 := by decide
  rw [htext, String.length_append, String.length_append, hfirst, hlast]
  omega

/-- A mistake is told after the usage, whose lines stand below one another. -/
theorem misuseText_eq (program : String) (m : Misuse) :
    let margin := String.ofList (List.replicate (program.length + 8) ' ')
    misuseText program m = String.join [
      s!"usage: {program} [-h] [--label LABEL] [--precision PRECISION]\n",
      margin ++ "[--config CONFIG] [--quantile QUANTILE] [--json]\n",
      margin ++ "[--xlsx XLSX] [--quiet]\n",
      margin ++ "[counts ...]\n",
      s!"{program}: error: {m.message}\n"] := by
  have hspace : " " ++ "[-h] [--label LABEL] [--precision PRECISION]\n" =
      " [-h] [--label LABEL] [--precision PRECISION]\n" := by
    simp only [String.reduceAppend]
  have hfirst : s!"usage: {program} " ++ "[-h] [--label LABEL] [--precision PRECISION]\n" =
      s!"usage: {program} [-h] [--label LABEL] [--precision PRECISION]\n" :=
    String.append_assoc.trans (congrArg _ hspace)
  have hend : toString "\n" ++ "" = toString "\n" := String.append_empty
  unfold misuseText usageText
  dsimp only
  rw [length_usage, hfirst]
  simp only [String.join_cons, String.join_nil, String.append_assoc, hend]

theorem progressLine_computing (counts : List Int) : progressLine (computing counts) =
    s!"[   0.0s] Computing mean over {counts.length} bucket(s)\n" := by
  have hself (s : String) : toString s = s := rfl
  have hstart : "[   0.0s] Computing mean over " = "[   0.0s] " ++ "Computing mean over " := by
    simp only [String.reduceAppend]
  have hend : " bucket(s)\n" = " bucket(s)" ++ "\n" := by
    simp only [String.reduceAppend]
  unfold progressLine computing
  simp only [hself, hstart, hend, String.append_assoc]

theorem errorLine_of_negative (program : String) (first : Nat) (count : Int) :
    let m : Misuse := .invalidInput s!"count at index {first} is negative: {count}"
    s!"{program}: error: {m.message}\n" =
      s!"{program}: error: count at index {first} is negative: {count}\n" := by
  have hself (s : String) : toString s = s := rfl
  have hstart : ": error: count at index " = ": error: " ++ "count at index " := by
    simp only [String.reduceAppend]
  unfold Misuse.message
  simp only [hself, hstart, String.append_assoc]

/-- The first negative count is refused by its index. -/
theorem run_of_negative (hlimit : ∀ n ∈ counts, Decimal.WithinLimit n) {first : Nat} {count : Int}
    (hfirst : counts.findIdx? (· < 0) = some first) (hcount : counts[first]? = some count) :
    run program files (counts.map toString) =
      ⟨[.progress (computing counts), .diagnostic (misuseText program
        (.invalidInput s!"count at index {first} is negative: {count}"))], .ok 2, false⟩ := by
  have hread := readAndSummarize_of_negative Defaults.builtinLabel [] hfirst hcount
    (hlimit count (List.mem_of_getElem? hcount))
  rw [run_toString hlimit, execute_counts]
  simp only [summarizeRun, hread]
  rfl

/-- Without observations there is nothing to report. -/
theorem run_of_zeros (hlimit : ∀ n ∈ counts, Decimal.WithinLimit n)
    (hzeros : ∀ n ∈ counts, n = 0) :
    run program files (counts.map toString) =
      ⟨[.progress (computing counts), .diagnostic
        s!"no data: {(Fault.noObservations counts.length).message}\n"], .ok 1, false⟩ := by
  have hread := readAndSummarize_of_zeros Defaults.builtinLabel [] hzeros
  rw [run_toString hlimit, execute_counts]
  simp only [summarizeRun, hread]
  rfl

/-- A mean with the default precision. -/
theorem writeFixed_builtinPrecision (x : Binary64.Finite) (hsign : x.negative = false) :
    ∃ steps : Nat, Decimal.IsRounded (x.value * 10 ^ 4) steps ∧
      String.ofList (Decimal.writeFixed Defaults.builtinPrecision (.finite x)) =
        s!"{steps / 10 ^ 4}.{String.ofList (Decimal.padded 4 (steps % 10 ^ 4))}" := by
  obtain ⟨negative, rank, hrank⟩ := x
  obtain rfl : negative = false := hsign
  refine ⟨_, Decimal.isRounded_steps 4 rank, ?_⟩
  have hfixed := Decimal.fixedMagnitude_succ 3 rank
  have htext : Decimal.writeFixed Defaults.builtinPrecision (.finite ⟨false, rank, hrank⟩) =
      Decimal.fixedMagnitude (3 + 1) rank := rfl
  rw [htext, hfixed, String.ofList_append, String.ofList_cons, ← String.append_assoc]
  rfl

/-- The lines of a report on a histogram, with the default label and precision. -/
def plainLines (h : Histogram) (mean : Binary64) (levels : List Binary64) : List String :=
  s!"sum {h.weightedSum} {h.total}" ::
    s!"mean {String.ofList (Decimal.writeFixed Defaults.builtinPrecision mean)}" ::
    (Run.quantileEntries ⟨.text Defaults.builtinLabel, h⟩ levels).map fun e ↦ s!"{e.1} {e.2}"

/-- The counts of a histogram with observations are reported, with the bucket at each level. -/
theorem execute_of_histogram {h : Histogram} {levels : List Binary64}
    (hlevels : ∀ level ∈ levels, level.inUnitInterval = true)
    (hcounts : counts = h.map fun (count : Nat) ↦ (count : Int)) (hpos : 0 < h.total)
    (hcount : Decimal.WithinLimit h.total) (hsum : Decimal.WithinLimit h.weightedSum)
    (hbuckets : ∀ e ∈ Run.quantileEntries ⟨.text Defaults.builtinLabel, h⟩ levels,
      Decimal.WithinLimit e.2)
    {mean : Binary64} (hmean : WeightedMean.mean ⟨h.total, h.weightedSum⟩ = .ok mean) :
    execute program files (Request.plain counts levels) =
      ⟨[.progress (computing counts),
        .printed (String.join ((plainLines h mean levels).map (· ++ "\n"))), .progress "Done"],
        .ok ()⟩ := by
  let summary : Summary := ⟨.text Defaults.builtinLabel, h.length, ⟨h.total, h.weightedSum⟩, mean,
    Run.quantileEntries ⟨.text Defaults.builtinLabel, h⟩ levels⟩
  have hsummary : Run.summarize ⟨.text Defaults.builtinLabel, h⟩ (levels.map .float) =
      .ok summary :=
    Run.summarize_eq_ok_iff.2 ⟨hpos, mean, hmean, rfl⟩
  have hread : Run.readAndSummarize (levels.map .float) (runValue Defaults.builtinLabel counts) =
      .ok (⟨.text Defaults.builtinLabel, h⟩, summary) := by
    rw [readAndSummarize_of_histogram Defaults.builtinLabel _ hcounts]
    exact congrArg (· >>= _) hsummary
  have hlines : reportLines summary.toValue (.int Defaults.builtinPrecision) =
      .ok (plainLines h mean levels) :=
    reportLines_eq_ok_iff.2 ⟨⟨hsum, hcount, by decide, hbuckets⟩, rfl⟩
  have htext : outputText false Defaults.builtinLabel summary Defaults.builtinPrecision =
      .ok (String.join ((plainLines h mean levels).map (· ++ "\n"))) := by
    unfold outputText
    rw [if_neg Bool.false_ne_true, hlines]
    rfl
  rw [execute_plain hlevels]
  simp only [summarizeRun, hread, pure_bind, htext]
  rfl

theorem run_of_histogram {h : Histogram} (hlimit : ∀ n ∈ counts, Decimal.WithinLimit n)
    (hcounts : counts = h.map fun (count : Nat) ↦ (count : Int)) (hpos : 0 < h.total)
    (hcount : Decimal.WithinLimit h.total) (hsum : Decimal.WithinLimit h.weightedSum)
    {mean : Binary64} (hmean : WeightedMean.mean ⟨h.total, h.weightedSum⟩ = .ok mean) :
    run program files (counts.map toString) =
      ⟨[.progress (computing counts), .printed (String.join ([s!"sum {h.weightedSum} {h.total}",
        s!"mean {String.ofList (Decimal.writeFixed Defaults.builtinPrecision mean)}"].map
          (· ++ "\n"))), .progress "Done"], .ok 0, false⟩ := by
  have hexecute : execute program files { Request.empty with counts := counts } = _ :=
    @execute_of_histogram _ _ _ _ [] (fun _ hlevel ↦ absurd hlevel List.not_mem_nil) hcounts hpos
      hcount hsum (fun _ he ↦ absurd he List.not_mem_nil) _ hmean
  rw [run_toString hlimit, hexecute]
  rfl

/-- A command line of integers that can be read ends in one of three ways.  No list is as long as
`Histogram.indexLimit`. -/
theorem run_integers (program : String) (files : Files) (counts : List Int)
    (hlimit : ∀ n ∈ counts, Decimal.WithinLimit n)
    (hlength : counts.length < Histogram.indexLimit) :
    let outcome := run program files (counts.map toString)
    let totalCount := counts.sum
    let totalWeightedSum := (counts.mapIdx fun index n ↦ (index : Int) * n).sum
    let margin := String.ofList (List.replicate (program.length + 8) ' ')
    ((∃ n ∈ counts, n < 0) → ∃ first count, counts[first]? = some count ∧ count < 0 ∧
      (∀ n ∈ counts.take first, 0 ≤ n) ∧ outcome.result = .ok 2 ∧ outcome.output = "" ∧
      outcome.errorOutput = String.join [
        s!"[   0.0s] Computing mean over {counts.length} bucket(s)\n",
        s!"usage: {program} [-h] [--label LABEL] [--precision PRECISION]\n",
        margin ++ "[--config CONFIG] [--quantile QUANTILE] [--json]\n",
        margin ++ "[--xlsx XLSX] [--quiet]\n",
        margin ++ "[counts ...]\n",
        s!"{program}: error: count at index {first} is negative: {count}\n"]) ∧
    ((∀ n ∈ counts, n = 0) → outcome.result = .ok 1 ∧ outcome.output = "") ∧
    ((∀ n ∈ counts, 0 ≤ n) → (∃ n ∈ counts, n ≠ 0) → Decimal.WithinLimit totalCount →
      Decimal.WithinLimit totalWeightedSum → outcome.result = .ok 0 ∧
      ∃ (mean : Binary64.Finite) (steps : Nat),
        Binary64.IsNearest ((totalWeightedSum : ℚ) / totalCount) mean ∧
        Decimal.IsRounded (mean.value * 10 ^ 4) steps ∧
        outcome.output = String.join ([s!"sum {totalWeightedSum} {totalCount}",
          s!"mean {steps / 10 ^ 4}.{String.ofList (Decimal.padded 4 (steps % 10 ^ 4))}"].map
            (· ++ "\n"))) := by
  intro outcome totalCount totalWeightedSum margin
  refine ⟨?_, ?_, ?_⟩
  · intro hnegative
    obtain ⟨first, count, hfirst, hcount, hneg, hbefore⟩ :=
      Histogram.exists_first_negative hnegative
    have hrun : outcome = _ := run_of_negative hlimit hfirst hcount
    rw [hrun]
    refine ⟨first, count, hcount, hneg, hbefore, rfl, rfl, ?_⟩
    rw [String.join_cons, ← progressLine_computing, ← errorLine_of_negative, ← misuseText_eq]
    simp [Outcome.errorOutput, Event.errorOutput]
  · intro hzeros
    have hrun : outcome = _ := run_of_zeros hlimit hzeros
    rw [hrun]
    exact ⟨rfl, rfl⟩
  · intro hnonneg hsome hcountLimit hsumLimit
    obtain ⟨h, hcounts⟩ := Histogram.exists_eq_map_cast hnonneg
    have hcount : totalCount = h.total := by
      rw [Histogram.cast_total, ← hcounts]
    have hsum : totalWeightedSum = h.weightedSum := by
      rw [Histogram.cast_weightedSum, ← hcounts]
    have hpos : 0 < h.total := by
      apply Histogram.total_pos_of_ne_zero
      rwa [← hcounts]
    have hlength' : h.length ≤ 2 ^ 63 := by
      rw [hcounts, List.length_map] at hlength
      exact hlength.le
    obtain ⟨rank, hrank, hmean, hnearest⟩ := exists_mean hpos hlength'
    obtain ⟨steps, hsteps, htext⟩ := writeFixed_builtinPrecision ⟨false, rank, hrank⟩ rfl
    rw [hcount] at hcountLimit
    rw [hsum] at hsumLimit
    have hrun : outcome = _ := run_of_histogram hlimit hcounts hpos hcountLimit hsumLimit hmean
    rw [hrun]
    refine ⟨rfl, ⟨false, rank, hrank⟩, steps, ?_, hsteps, ?_⟩
    · rw [hcount, hsum]
      exact hnearest
    · have hprinted (text : String) : String.join ["", text, ""] = text := by simp
      rw [hcount, hsum, htext]
      exact hprinted _

/-- Three observations of one and one of two have the mean five quarters.  Of two negative counts the
first is named. -/
theorem run_three_integers :
    let outcome := run "histogram-mean" (Directory.toFiles []) ["0", "3", "1"]
    let refused := run "histogram-mean" (Directory.toFiles []) ["2", "-3", "-1"]
    (outcome.result = .ok 0 ∧
      ∃ (mean : Binary64.Finite) (steps : Nat), Binary64.IsNearest (5 / 4) mean ∧
        Decimal.IsRounded (mean.value * 10 ^ 4) steps ∧
        outcome.output = String.join (["sum 5 4",
          s!"mean {steps / 10 ^ 4}.{String.ofList (Decimal.padded 4 (steps % 10 ^ 4))}"].map
            (· ++ "\n"))) ∧
    refused.result = .ok 2 ∧ refused.output = "" ∧ refused.errorOutput = String.join [
      "[   0.0s] Computing mean over 3 bucket(s)\n",
      "usage: histogram-mean [-h] [--label LABEL] [--precision PRECISION]\n",
      "                      [--config CONFIG] [--quantile QUANTILE] [--json]\n",
      "                      [--xlsx XLSX] [--quiet]\n",
      "                      [counts ...]\n",
      "histogram-mean: error: count at index 1 is negative: -3\n"] := by
  intro outcome refused
  have hplace (first : Nat) (count : Int) (hcount : [2, -3, -1][first]? = some count)
      (hneg : count < 0) (hbefore : ∀ n ∈ [2, -3, -1].take first, (0 : Int) ≤ n) :
      first = 1 ∧ count = -3 := by
    match first with
    | 0 =>
      cases hcount
      exact absurd hneg (by decide)
    | 1 =>
      cases hcount
      exact ⟨rfl, rfl⟩
    | later + 2 => exact absurd (hbefore (-3) (by simp)) (by decide)
  obtain ⟨hend, mean, steps, hnearest, hsteps, houtput⟩ :=
    (run_integers "histogram-mean" (Directory.toFiles []) [0, 3, 1] (by decide)
      (by decide +kernel)).2.2 (by decide) (by decide) (by decide) (by decide)
  obtain ⟨first, count, hcount, hneg, hbefore, hend', houtput', herror⟩ :=
    (run_integers "histogram-mean" (Directory.toFiles []) [2, -3, -1] (by decide)
      (by decide +kernel)).1 (by decide)
  refine ⟨⟨hend, mean, steps, ?_, hsteps, houtput⟩, hend', houtput', herror.trans ?_⟩
  · have hquotient : (((5 : Int) : ℚ) / ((4 : Int) : ℚ)) = 5 / 4 := by norm_num
    rw [← hquotient]
    exact hnearest
  · obtain ⟨rfl, rfl⟩ := hplace first count hcount hneg hbefore
    decide +kernel

end BucketStats.Command

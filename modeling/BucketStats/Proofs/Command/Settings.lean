import BucketStats.Proofs.Command.Operands
import BucketStats.Proofs.Command.Requests
import BucketStats.Proofs.Command.Stages
import BucketStats.Proofs.Settings.RoundTrip
/-!
# Two ways to give the same settings

A settings file that gives a label, a precision and quantiles, and the options that give the same
ones, make the same run: but for the line about the file, the run tells, prints and saves the same
and ends in the same way.  What else stands on the command line does not matter.
-/

namespace BucketStats.Command

open Steps

/-! ## Settings on the command line -/

/-- The options that give a label, a precision and quantiles. -/
def settingOptions (label : String) (precision : Nat) (quantiles : List Binary64.Finite) :
    List String :=
  assigned "--label" label :: assigned "--precision" (toString precision) ::
    quantiles.map fun x ↦ assigned "--quantile" (binary64Text (.finite x))

/-- The settings that the options give. -/
def optionSettings (label : String) (precision : Nat) (quantiles : List Binary64.Finite) : Request :=
  { Request.empty with
    label := .value label
    precision := .value precision
    quantiles := quantiles.map fun x ↦ .value (.finite x) }

/-- The settings that come from a file. -/
def fileSettings (path : String) : Request :=
  { Request.empty with config := .value path }

section Options

variable {label path : String} {precision : Nat} {quantiles : List Binary64.Finite} {p : Intake}

theorem given_of_ne {s : String} (hs : s ≠ "--") : given s = .value s :=
  if_neg hs

theorem readPrecision_toString (hle : precision ≤ 2 ^ 53) :
    readPrecision (toString precision) = .ok (.value precision) := by
  have htext : toString precision = toString (precision : Int) := rfl
  have hlimit : Decimal.WithinLimit precision :=
    Decimal.withinLimit_of_lt 16 (by decide) (hle.trans_lt (by decide))
  unfold readPrecision
  rw [htext, given_of_ne (toString_ne_separator precision)]
  simp only [Decimal.readInteger_toString, if_pos hlimit]

theorem readQuantile_text (x : Binary64.Finite) :
    readQuantile (binary64Text (.finite x)) = .ok (.value (.finite x)) := by
  have htext : (binary64Text (.finite x)).toList = Decimal.writeShortest (.finite x) :=
    String.toList_ofList
  have hseparator : binary64Text (.finite x) ≠ "--" := by
    intro hseparator
    have hnone : Decimal.readDecimal "--".toList = none := by decide
    rw [← hseparator, htext, Decimal.readDecimal_writeShortest] at hnone
    cases hnone
  unfold readQuantile
  rw [given_of_ne hseparator]
  simp only [htext, Decimal.readDecimal_writeShortest]

theorem tokens_quantiles (quantiles : List Binary64.Finite) :
    tokens (quantiles.map fun x ↦ assigned "--quantile" (binary64Text (.finite x))) =
      .ok (quantiles.map fun x ↦
        .option .quantile "--quantile" (some (binary64Text (.finite x)))) := by
  have hspelling : ("--quantile", OptionName.quantile) ∈ OptionName.spellings := by decide
  induction quantiles with
  | nil => rfl
  | cons x rest ih =>
    rw [List.map_cons, tokens, if_neg (assigned_ne_separator hspelling _),
      classify_assigned hspelling, ok_bind, ih]
    rfl

theorem readTokens_quantiles (quantiles : List Binary64.Finite) (p : Intake) (rest : List Token) :
    readTokens p [] ((quantiles.map fun x ↦
      .option .quantile "--quantile" (some (binary64Text (.finite x)))) ++ rest) =
    readTokens (p.setRequest { p.request with
      quantiles := p.request.quantiles ++ quantiles.map fun x ↦ .value (.finite x) }) [] rest := by
  induction quantiles generalizing p with
  | nil =>
    rw [List.map_nil, List.map_nil, List.append_nil, List.nil_append]
    rfl
  | cons x more ih =>
    have hset : p.request.setValue .quantile (binary64Text (.finite x)) =
        .ok { p.request with quantiles := p.request.quantiles ++ [.value (.finite x)] } := by
      unfold Request.setValue
      rw [readQuantile_text]
      rfl
    rw [List.map_cons, List.cons_append, readTokens_attached rfl hset, ih]
    simp [Intake.setRequest]

theorem gives_options (hlabel : label ≠ "--") (hprecision : precision ≤ 2 ^ 53)
    (quantiles : List Binary64.Finite) :
    Gives (settingOptions label precision quantiles)
      (optionSettings label precision quantiles) := by
  have hlabel' : ("--label", OptionName.label) ∈ OptionName.spellings := by decide
  have hprecision' : ("--precision", OptionName.precision) ∈ OptionName.spellings := by decide
  have hquantile' : ("--quantile", OptionName.quantile) ∈ OptionName.spellings := by decide
  refine ⟨?_, .label, "--label", some label,
    .option .precision "--precision" (some (toString precision)) :: quantiles.map fun x ↦
      .option .quantile "--quantile" (some (binary64Text (.finite x))), ?_, ?_⟩
  · unfold settingOptions
    simp only [List.mem_cons, List.mem_map, not_or]
    refine ⟨(assigned_ne_separator hlabel' _).symm, (assigned_ne_separator hprecision' _).symm, ?_⟩
    rintro ⟨x, _, hx⟩
    exact assigned_ne_separator hquantile' _ hx
  · unfold settingOptions
    rw [tokens, if_neg (assigned_ne_separator hlabel' _), classify_assigned hlabel', ok_bind,
      tokens, if_neg (assigned_ne_separator hprecision' _), classify_assigned hprecision', ok_bind,
      tokens_quantiles]
    rfl
  · intro p rest hp
    have hlabelSet : p.request.setValue .label label =
        .ok { p.request with label := .value label } := by
      rw [Request.setValue, given_of_ne hlabel]
    have hprecisionSet (p : Intake) : p.request.setValue .precision (toString precision) =
        .ok { p.request with precision := .value precision } := by
      rw [Request.setValue, readPrecision_toString hprecision]
      rfl
    rw [List.cons_append, List.cons_append, readTokens_attached rfl hlabelSet,
      readTokens_attached rfl (hprecisionSet _), readTokens_quantiles, ← hp]
    rfl

theorem gives_file (hpath : classify path = .ok (.operand path)) :
    Gives ["--config", path] (fileSettings path) := by
  have hseparator : path ≠ "--" := by
    rintro rfl
    exact classify_separator _ hpath
  have hconfig : classify "--config" = .ok (.option .config "--config" none) := by decide
  apply gives_separate hconfig rfl hpath
  intro r
  rw [Request.setValue, given_of_ne hseparator]
  rfl

end Options

/-! ## Carrying out -/

section Execute

variable {program : String} {files : Files} {label path : String} {precision : Nat}
  {quantiles : List Binary64.Finite} {bytes : List UInt8}

theorem loadDefaults_file (hpath : path ≠ "")
    (hfile : files.lookUp (Path.ofText path) = .file bytes) :
    loadDefaults program files (.value path) = (do
      say s!"Loading config ({(Path.ofText path).name})"
      pure (Defaults.ofSettings (Settings.ofBytes bytes))) := by
  unfold loadDefaults
  simp only [nonEmpty_value hpath, hfile]

theorem chooseQuantiles_values (hne : quantiles ≠ []) (otherwise : List Binary64) :
    chooseQuantiles program (quantiles.map fun x ↦ .value (.finite x)) otherwise =
      chooseQuantiles program [] (quantiles.map .finite) := by
  have hempty : (quantiles.map fun x ↦ Given.value (Binary64.finite x)).isEmpty = false := by
    rw [List.isEmpty_eq_false_iff]
    exact fun hnil ↦ hne (List.map_eq_nil_iff.1 hnil)
  have hempty' : ([] : List (Given Binary64)).isEmpty = true := rfl
  unfold chooseQuantiles
  rw [hempty, hempty', if_neg Bool.false_ne_true, if_pos rfl, List.map_map]
  rfl

theorem say_bind (message : String) (steps : Steps Unit) :
    (do say message; steps) = ⟨.progress message :: steps.notes, steps.result⟩ := rfl

/-- Settings from a file make the same run as settings from options, after a line about the file. -/
theorem execute_file (program : String) (r : Request) (hlabel : label ≠ "") (hne : quantiles ≠ [])
    (hpath : path ≠ "") (hfile : files.lookUp (Path.ofText path) = .file bytes)
    (hdefaults : Defaults.ofSettings (Settings.ofBytes bytes) =
      ⟨label, precision, quantiles.map .finite⟩) :
    execute program files (r.withSettings (fileSettings path)) = (do
      say s!"Loading config ({(Path.ofText path).name})"
      execute program files (r.withSettings (optionSettings label precision quantiles))) := by
  unfold execute
  simp only [Request.withSettings, fileSettings, optionSettings, Request.empty,
    loadDefaults_file hpath hfile, hdefaults, nonEmpty_value hlabel, choosePrecision_value,
    chooseQuantiles_values hne, bind_assoc, pure_bind]
  rfl

end Execute

/-- Counts name no settings. -/
theorem keepsSettings_toString (n : Int) : KeepsSettings (toString n) := by
  unfold KeepsSettings
  rw [classify_toString]
  rintro token ⟨⟩
  exact trivial

/-- A settings file and options that give the same settings make the same run, whatever else stands
on the command line. -/
theorem run_file_eq_run_options (program : String) (files : Files) {label path : String}
    {precision : Nat} {quantiles : List Binary64.Finite} {before after order : List String}
    {text : String} (hlabel : Settings.IsLabel label) (hseparator : label ≠ "--")
    (hprecision : precision ≤ 2 ^ 53) (hquantiles : quantiles ≠ [])
    (hbefore : "--" ∉ before) (hkeeps : ∀ s ∈ before ++ after, KeepsSettings s)
    (hpath : path ≠ "") (hoperand : classify path = .ok (.operand path))
    (horder : order.Perm (Settings.written label precision quantiles))
    (htext : Text.LaidOut (order.map String.toList) text.toList)
    (hfile : files.lookUp (Path.ofText path) = .file text.toUTF8.data.toList) :
    let byFile := run program files (before ++ ["--config", path] ++ after)
    let byOptions :=
      run program files (before ++ settingOptions label precision quantiles ++ after)
    byFile.result = byOptions.result ∧ byFile.output = byOptions.output ∧
      byFile.workbook? = byOptions.workbook? := by
  intro byFile byOptions
  have hreadFile := readArguments_of_gives (gives_file hoperand) hbefore hkeeps
  have hreadOptions := readArguments_of_gives (gives_options hseparator hprecision quantiles)
    hbefore hkeeps
  cases haround : readAround before after with
  | error ending =>
    rw [haround] at hreadFile hreadOptions
    have hsame : byFile = byOptions := by
      simp only [byFile, byOptions, run, hreadFile, hreadOptions, Except.map]
    rw [hsame]
    exact ⟨rfl, rfl, rfl⟩
  | ok r =>
    rw [haround] at hreadFile hreadOptions
    have hdefaults := Defaults.ofSettings_of_laidOut hlabel hprecision quantiles horder htext
    have hbyFile : byFile = _ := run_of_request hreadFile
    have hbyOptions : byOptions = _ := run_of_request hreadOptions
    rw [hbyFile, hbyOptions,
      execute_file program r hlabel.ne_empty hquantiles hpath hfile hdefaults, say_bind]
    refine ⟨rfl, ?_, rfl⟩
    unfold Outcome.output
    rw [List.map_cons, String.join_cons]
    exact String.empty_append

/-- Counts with a settings file, or with the options that give the same settings. -/
theorem run_file_eq_run_options_on_three_counts :
    let text := "precision = 2\nlabel = \"a = 1\"\r\nquantiles = 0.5, 1.0\n"
    let directory := Directory.ofList [("report.ini", text.toUTF8.data.toList)]
    let counts := [3, 0, 5].map fun (n : Int) ↦ toString n
    let byFile := run "histogram-mean" directory.toFiles
      (counts ++ ["--config", "report.ini"] ++ ["--json", "--xlsx", "out.xlsx"])
    let byOptions := run "histogram-mean" directory.toFiles
      (counts ++ ["--label=a = 1", "--precision=2", "--quantile=0.5", "--quantile=1.0"] ++
        ["--json", "--xlsx", "out.xlsx"])
    byFile.result = byOptions.result ∧ byFile.output = byOptions.output ∧
      byFile.workbook? = byOptions.workbook? := by
  intro text directory counts
  let quantiles : List Binary64.Finite :=
    [⟨false, 1022 * twoPow 52, by decide⟩, ⟨false, 1023 * twoPow 52, by decide⟩]
  have hoptions : ["--label=a = 1", "--precision=2", "--quantile=0.5", "--quantile=1.0"] =
      settingOptions "a = 1" 2 quantiles := by
    decide +kernel
  have horder : ["precision = 2", "label = \"a = 1\"", "quantiles = 0.5, 1.0"].Perm
      (Settings.written "a = 1" 2 quantiles) := by
    decide +kernel
  have htext : "precision = 2".toList ++ (Text.LineEnd.feed.text ++ ("label = \"a = 1\"".toList ++
      (Text.LineEnd.pair.text ++ ("quantiles = 0.5, 1.0".toList ++
        (Text.LineEnd.feed.text ++ []))))) = text.toList := by
    decide +kernel
  have hlaid := Text.LaidOut.cons "precision = 2".toList .feed
    (.cons "label = \"a = 1\"".toList .pair (.cons "quantiles = 0.5, 1.0".toList .feed .nil))
  rw [htext] at hlaid
  have hfile : directory.lookUp (Path.ofText "report.ini") = .file text.toUTF8.data.toList :=
    Directory.lookUp_of_walk (by decide +kernel) (by decide +kernel) (by decide +kernel)
  have hdelivery : ∀ s ∈ ["--json", "--xlsx", "out.xlsx"], KeepsSettings s := by decide
  have hkeeps : ∀ s ∈ counts ++ ["--json", "--xlsx", "out.xlsx"], KeepsSettings s := by
    intro s hs
    rcases List.mem_append.1 hs with hs | hs
    · obtain ⟨n, _, rfl⟩ := List.mem_map.1 hs
      exact keepsSettings_toString n
    · exact hdelivery s hs
  rw [hoptions]
  exact run_file_eq_run_options "histogram-mean" directory.toFiles
    ⟨by decide, by decide, by decide, by decide⟩ (by decide) (by decide)
    (List.cons_ne_nil _ _) (by decide) hkeeps (by decide) (by decide) horder hlaid hfile

end BucketStats.Command

import BucketStats.Proofs.Binary64.Magnitude
import BucketStats.Proofs.Settings.Grammar
import BucketStats.Proofs.Settings.Lists
import BucketStats.Proofs.Settings.RoundTrip
/-!
# Defaults from any file

Each step from a dictionary of settings to the defaults of a report can fail on values of the wrong
kind.  On the settings of a file none does, whatever the bytes of the file are, and the defaults can be
used: the label is not empty, has no blanks around it and stands on one line, and the precision is a
natural number.
-/

namespace BucketStats

open Text

/-! ## Settings as values -/

namespace Settings

def toValue (settings : Settings) : Value :=
  .dict (settings.map fun e ↦ (.text e.1, .text e.2))

/-- The text under a key, or nothing. -/
def valueOf (settings : Settings) (key : String) : Value :=
  ((settings.find? key).map Value.text).getD .null

theorem getOr_toValue (settings : Settings) (key : String) :
    (toValue settings).getOr (.text key) .null = .ok (valueOf settings key) := by
  have hkey (e : String × String) : (Value.text e.1).sameKey (.text key) = (e.1 == key) := by
    simp [Value.sameKey, Value.sameNan, Value.same]
  have hfind : Value.findEntry (.text key) (settings.map fun e ↦ (.text e.1, .text e.2)) =
      (settings.find? key).map Value.text := by
    rw [Value.findEntry, List.find?_map, Entries.find?, Option.map_map, Option.map_map]
    simp only [Function.comp_def, hkey]
  rw [toValue, Value.getOr, hfind]
  rfl

theorem integerUnder_toValue (settings : Settings) (key : String) :
    integerUnder (.text key) settings.toValue =
      .ok ((settings.find? key).bind fun s ↦ integerOfText s.toList) := by
  rw [integerUnder, getOr_toValue, valueOf]
  cases settings.find? key with
  | none => rfl
  | some s => rfl

theorem numbersUnder_toValue (settings : Settings) (key : String) :
    numbersUnder (.text key) settings.toValue =
      .ok (((settings.find? key).map fun s ↦ numbersOfText s.toList).getD []) := by
  rw [numbersUnder, getOr_toValue, valueOf]
  cases settings.find? key with
  | none => rfl
  | some s => exact numbersOf_text s

end Settings

/-! ## Defaults step by step -/

namespace Defaults

open Settings

def toValue (defaults : Defaults) : Value :=
  .dict [(.text "label", .text defaults.label), (.text "precision", .int defaults.precision),
    (.text "quantiles", .list (defaults.quantiles.map .float))]

section Steps

variable (settings : Settings)

/-- The text given as the label, without blanks and quotes around it. -/
def givenLabel : List Char :=
  unquote (trim ((settings.find? "label").getD "").toList)

theorem labelOf_eq : labelOf settings =
    if (givenLabel settings).isEmpty then builtinLabel else String.ofList (givenLabel settings) := by
  unfold labelOf givenLabel
  cases settings.find? "label" with
  | none => rfl
  | some s => rfl

theorem stripped_valueOf :
    stripped (if (valueOf settings "label").isTrue then valueOf settings "label" else .text "") =
      .ok (.text (String.ofList (trim ((settings.find? "label").getD "").toList))) := by
  unfold valueOf
  cases settings.find? "label" with
  | none => rfl
  | some s =>
    rw [Option.map_some, Option.getD_some, Option.getD_some]
    split_ifs with htrue
    · rfl
    · have hempty : s.isEmpty = true := by simpa [Value.isTrue] using htrue
      rw [String.isEmpty_iff.1 hempty]
      rfl

theorem precisionOf_eq : (precisionOf settings : Int) =
    (((settings.find? "precision").bind fun s ↦ integerOfText s.toList).filter (0 ≤ ·)).getD
      builtinPrecision := by
  unfold precisionOf
  cases settings.find? "precision" with
  | none => rfl
  | some s =>
    cases hread : integerOfText s.toList with
    | none => simp [hread]
    | some n =>
      by_cases hn : 0 ≤ n
      · simp [hread, hn, Option.filter_some]
      · simp [hread, hn, Option.filter_some]

theorem quantilesOf_eq : quantilesOf settings =
    ((settings.find? "quantiles").map fun s ↦ numbersOfText s.toList).getD [] := by
  unfold quantilesOf
  cases settings.find? "quantiles" with
  | none => rfl
  | some s =>
    by_cases hempty : s.isEmpty = true
    · rw [String.isEmpty_iff.1 hempty]
      rfl
    · exact if_neg hempty

/-- No step fails on settings that are texts, and the defaults are those that a report uses. -/
theorem read_toValue : read settings.toValue = .ok (ofSettings settings).toValue := by
  have hunquoted : unquoted (.text (String.ofList (trim ((settings.find? "label").getD "").toList))) =
      .ok (.text (String.ofList (givenLabel settings))) := by
    rw [unquoted, String.toList_ofList, givenLabel]
  have htrue (s : List Char) : (Value.text (String.ofList s)).isTrue = !s.isEmpty := by
    rw [Value.isTrue, Bool.not_inj_iff, Bool.eq_iff_iff, String.isEmpty_iff, List.isEmpty_iff,
      ← String.toList_eq_nil_iff, String.toList_ofList]
  have hlabel : (if (Value.text (String.ofList (givenLabel settings))).isTrue then
      Value.text (String.ofList (givenLabel settings)) else .text builtinLabel) =
        .text (labelOf settings) := by
    rw [labelOf_eq, htrue]
    cases givenLabel settings with
    | nil => rfl
    | cons c rest => rfl
  rw [read, getOr_toValue, ok_bind, stripped_valueOf, ok_bind, hunquoted, ok_bind,
    integerUnder_toValue, ok_bind, numbersUnder_toValue, ok_bind, hlabel, ← precisionOf_eq,
    ← quantilesOf_eq]
  rfl

end Steps

/-! ## What files can give -/

section Files

variable {settings : Settings}

theorem isLabel_builtinLabel : IsLabel builtinLabel :=
  ⟨by decide, by decide, ⟨by decide, by decide⟩⟩

theorem onLine_of_mem_ofBytes {bytes : List UInt8} :
    ∀ e ∈ ofBytes bytes, OnLine e.2.toList := by
  intro e he
  obtain ⟨line, hline, hentry⟩ := List.mem_filterMap.1 (Entries.mem_of_mem_ofList he)
  obtain ⟨before, after, -, -, -, rfl, rfl⟩ := exists_of_entryOf hentry
  obtain ⟨hfeed, hreturn⟩ := not_mem_of_mem_lines hline
  rw [String.toList_ofList]
  refine OnLine.of_subset ⟨hfeed, hreturn⟩ fun c hc ↦ ?_
  exact List.mem_append_right _ (List.mem_cons_of_mem _ (mem_of_mem_trimBy hc))

/-- The label is usable if the texts of the settings stand on one line. -/
theorem isLabel_labelOf (hsettings : ∀ e ∈ settings, OnLine e.2.toList) :
    IsLabel (labelOf settings) := by
  rw [labelOf_eq]
  split_ifs with hempty
  · exact isLabel_builtinLabel
  · constructor
    · rw [← String.toList_eq_nil_iff.ne, String.toList_ofList]
      exact fun hnil ↦ hempty (List.isEmpty_iff.2 hnil)
    · rw [String.toList_ofList, givenLabel]
      exact (isTrimmed_trim _).unquote
    · rw [String.toList_ofList]
      cases hfind : settings.find? "label" with
      | none =>
        refine absurd ?_ hempty
        rw [givenLabel, hfind]
        rfl
      | some s =>
        have hs := hsettings _ (Entries.mem_of_find?_eq_some hfind)
        refine hs.of_subset fun c hc ↦ ?_
        rw [givenLabel, hfind] at hc
        exact mem_of_mem_trimBy (mem_of_mem_unquote hc)

/-- A precision other than the built-in one is a whole number that the settings give. -/
theorem exists_of_precisionOf (settings : Settings) : precisionOf settings = builtinPrecision ∨
    ∃ s x, settings.find? "precision" = some s ∧ numberOfText s.toList = some (.finite x) ∧
      x.value = precisionOf settings := by
  have hprecision := precisionOf_eq settings
  cases hgiven : ((settings.find? "precision").bind fun s ↦ integerOfText s.toList).filter
      (0 ≤ ·) with
  | none =>
    rw [hgiven, Option.getD_none] at hprecision
    exact .inl (Int.natCast_inj.1 hprecision)
  | some n =>
    rw [hgiven, Option.getD_some] at hprecision
    obtain ⟨hread, -⟩ := Option.filter_eq_some_iff.1 hgiven
    obtain ⟨s, hfind, hinteger⟩ := Option.bind_eq_some_iff.1 hread
    obtain ⟨y, hnumber, hwhole⟩ := Option.bind_eq_some_iff.1 hinteger
    obtain ⟨x, rfl, hvalue⟩ := Binary64.exists_of_toInt? hwhole
    refine .inr ⟨s, x, hfind, hnumber, ?_⟩
    rw [hvalue, ← hprecision, Int.cast_natCast]

end Files

/-- Whatever the bytes of a file are, all steps to its defaults succeed, and they give those that a
report uses.  The label is usable, and the precision is the built-in one or a whole number of the
file. -/
theorem exists_usable_defaults (bytes : List UInt8) : ∃ defaults,
    read (ofBytes bytes).toValue = .ok (toValue defaults) ∧
      defaults = ofSettings (ofBytes bytes) ∧ IsLabel defaults.label ∧
      (defaults.precision = builtinPrecision ∨ ∃ s x, (ofBytes bytes).find? "precision" = some s ∧
        numberOfText s.toList = some (.finite x) ∧ x.value = defaults.precision) :=
  ⟨_, read_toValue (ofBytes bytes), rfl, isLabel_labelOf onLine_of_mem_ofBytes,
    exists_of_precisionOf (ofBytes bytes)⟩

end Defaults

end BucketStats

import BucketStats.Proofs.Command.Reading
import BucketStats.Proofs.Command.Stages
import BucketStats.Proofs.Command.Summaries
import BucketStats.Proofs.Command.Texts
/-!
# Runs that break down

A run ends with the status 0, 1 or 2 unless something happens that nobody expected.  Where no
workbook is asked for, that can happen in four ways: the settings cannot be read, the precision or a
quantile is given without a value, or the report holds a total or a mean that cannot be written.
-/

namespace BucketStats.Command

/-! ## Steps that break down -/

namespace Steps

variable {α β : Type}

/-- Whether steps end in a fault that nobody expected. -/
def Breaks (t : Steps α) : Prop :=
  ∃ f, t.result = .error (.fault f)

theorem breaks_bind {t : Steps α} {f : α → Steps β} :
    Breaks (t >>= f) ↔ Breaks t ∨ ∃ a, t.result = .ok a ∧ Breaks (f a) := by
  unfold Breaks
  cases ht : t.result with
  | ok a => simp [Transcript.result_bind_of_ok ht]
  | error e => simp [Transcript.bind_of_error ht]

theorem breaks_fail (f : Fault) : Breaks (fail f : Steps α) :=
  ⟨f, rfl⟩

theorem not_breaks_of_ok {t : Steps α} {a : α} (h : t.result = .ok a) : ¬ Breaks t := by
  rintro ⟨f, hf⟩
  rw [h] at hf
  cases hf

theorem not_breaks_of_exit {t : Steps α} {status : Nat} (h : t.result = .error (.exit status)) :
    ¬ Breaks t := by
  rintro ⟨f, hf⟩
  rw [h] at hf
  cases hf

theorem not_breaks_pure (a : α) : ¬ Breaks (pure a : Steps α) :=
  not_breaks_of_ok rfl

theorem not_breaks_say (message : String) : ¬ Breaks (say message) :=
  not_breaks_of_ok rfl

theorem not_breaks_print (text : String) : ¬ Breaks (print text) :=
  not_breaks_of_ok rfl

theorem not_breaks_refuse (program : String) (m : Misuse) :
    ¬ Breaks (refuse program m : Steps α) :=
  not_breaks_of_exit rfl

theorem breaks_orFail_iff {result : Except Fault α} :
    Breaks (orFail result) ↔ ¬ ∃ a, result = .ok a := by
  cases result with
  | ok a =>
    constructor
    · rintro ⟨f, hf⟩
      cases hf
    · intro h
      exact absurd ⟨a, rfl⟩ h
  | error f =>
    constructor
    · rintro _ ⟨a, ha⟩
      cases ha
    · intro _
      exact breaks_fail f

theorem exists_mapM_iff {f : α → Steps β} {as : List α} :
    (∃ bs, (as.mapM f).result = .ok bs) ↔ ∀ a ∈ as, ∃ b, (f a).result = .ok b := by
  induction as with
  | nil => exact ⟨fun _ a ha ↦ absurd ha List.not_mem_nil, fun _ ↦ ⟨[], rfl⟩⟩
  | cons a rest ih =>
    rw [List.forall_mem_cons, ← ih, List.mapM_cons]
    simp only [Transcript.result_bind_eq_ok_iff]
    constructor
    · rintro ⟨_, b, hb, bs, hbs, _⟩
      exact ⟨⟨b, hb⟩, bs, hbs⟩
    · rintro ⟨⟨b, hb⟩, bs, hbs⟩
      exact ⟨b :: bs, b, hb, bs, hbs, rfl⟩

/-- A list of steps breaks down at one of them, if those before it reach their ends. -/
theorem breaks_mapM_iff {f : α → Steps β} {as : List α} :
    Breaks (as.mapM f) ↔ ∃ before a after, as = before ++ a :: after ∧
      (∀ a' ∈ before, ∃ b, (f a').result = .ok b) ∧ Breaks (f a) := by
  induction as with
  | nil =>
    constructor
    · intro h
      exact absurd h (not_breaks_pure [])
    · rintro ⟨before, a, after, has, _⟩
      cases before <;> cases has
  | cons a rest ih =>
    rw [List.mapM_cons, breaks_bind]
    simp only [breaks_bind, ih, not_breaks_pure, and_false, exists_false, or_false]
    constructor
    · rintro (ha | ⟨b, hb, before, a', after, rfl, hbefore, ha'⟩)
      · exact ⟨[], a, rest, rfl, fun a' ha' ↦ absurd ha' List.not_mem_nil, ha⟩
      · exact ⟨a :: before, a', after, rfl, List.forall_mem_cons.2 ⟨⟨b, hb⟩, hbefore⟩, ha'⟩
    · rintro ⟨before, a', after, has, hbefore, ha'⟩
      cases before with
      | nil =>
        cases has
        exact .inl ha'
      | cons first before =>
        cases has
        obtain ⟨⟨b, hb⟩, hbefore⟩ := List.forall_mem_cons.1 hbefore
        exact .inr ⟨b, hb, before, a', after, rfl, hbefore, ha'⟩

end Steps

open Steps

variable {program : String} {files : Files} {r : Request} {report : Report}
  {arguments : List String}

/-! ## The defaults, the precision and the quantiles -/

/-- Whether defaults are in use: those of the settings file, or those that are built in. -/
inductive DefaultsInUse (files : Files) (config : Given String) : Defaults → Prop where
  | builtin (hpath : nonEmpty config = none) : DefaultsInUse files config .builtin
  | file {path : String} {bytes : List UInt8} (hpath : nonEmpty config = some path)
      (hfile : files.lookUp (Path.ofText path) = .file bytes) :
      DefaultsInUse files config (.ofSettings (.ofBytes bytes))

theorem result_loadDefaults_eq_ok_iff {config : Given String} {defaults : Defaults} :
    (loadDefaults program files config).result = .ok defaults ↔
      DefaultsInUse files config defaults := by
  constructor
  · intro h
    unfold loadDefaults at h
    split at h
    · rename_i hpath
      cases h
      exact .builtin hpath
    · rename_i path hpath
      dsimp only at h
      split at h
      case h_4 bytes hfile =>
        cases h
        exact .file hpath hfile
      all_goals cases h
  · rintro (hpath | ⟨hpath, hfile⟩)
    · unfold loadDefaults
      rw [hpath]
      rfl
    · unfold loadDefaults
      simp only [hpath, hfile]
      rfl

/-- Whether settings cannot be read although something stands at their path. -/
def SettingsUnreadable (files : Files) (config : Given String) : Prop :=
  ∃ path, nonEmpty config = some path ∧ (files.lookUp (Path.ofText path) = .directory ∨
    files.lookUp (Path.ofText path) = .nameTooLong)

theorem breaks_loadDefaults_iff {config : Given String} :
    Breaks (loadDefaults program files config) ↔ SettingsUnreadable files config := by
  constructor
  · rintro ⟨f, h⟩
    unfold loadDefaults at h
    split at h
    · cases h
    · rename_i path hpath
      dsimp only at h
      split at h
      case h_2 hfound => exact ⟨path, hpath, .inr hfound⟩
      case h_3 hfound => exact ⟨path, hpath, .inl hfound⟩
      all_goals cases h
  · rintro ⟨path, hpath, hfound⟩
    unfold loadDefaults
    simp only [hpath]
    rcases hfound with hfound | hfound
    · simp only [hfound]
      exact ⟨_, rfl⟩
    · simp only [hfound]
      exact ⟨_, rfl⟩

/-- Whether a precision is in use: one that was given, or that of the defaults. -/
inductive PrecisionInUse (otherwise : Nat) : Given Int → Nat → Prop where
  | absent : PrecisionInUse otherwise .absent otherwise
  | value (n : Nat) : PrecisionInUse otherwise (.value n) n

theorem result_choosePrecision_eq_ok_iff {given : Given Int} {otherwise precision : Nat} :
    (choosePrecision program given otherwise).result = .ok precision ↔
      PrecisionInUse otherwise given precision := by
  constructor
  · intro h
    unfold choosePrecision at h
    split at h
    · cases h
      exact .absent
    · cases h
    · rename_i n
      split at h
      · cases h
      · cases h
        have hcast : (n.toNat : Int) = n := by omega
        have hvalue : PrecisionInUse otherwise (.value n.toNat) n.toNat := .value n.toNat
        rwa [hcast] at hvalue
  · intro h
    cases h with
    | absent => rfl
    | value =>
      rw [choosePrecision_value]
      rfl

theorem breaks_choosePrecision_iff {given : Given Int} {otherwise : Nat} :
    Breaks (choosePrecision program given otherwise) ↔ given = .bare := by
  unfold choosePrecision
  cases given with
  | absent => exact iff_of_false (not_breaks_pure _) (fun h ↦ by cases h)
  | bare => exact iff_of_true (breaks_fail _) rfl
  | value n =>
    apply iff_of_false _ (fun h ↦ by cases h)
    dsimp only
    split
    · exact not_breaks_refuse _ _
    · exact not_breaks_pure _

/-- Whether a quantile is given with a value that is one. -/
def Given.IsQuantile (given : Given Binary64) : Prop :=
  ∃ x, given = .value x ∧ x.inUnitInterval = true

theorem result_checkQuantile_eq_ok_iff {given : Given Binary64} {x : Binary64} :
    (checkQuantile program given).result = .ok x ↔
      given = .value x ∧ x.inUnitInterval = true := by
  constructor
  · intro h
    unfold checkQuantile at h
    split at h
    · split at h
      · cases h
        exact ⟨rfl, ‹_›⟩
      · cases h
    · cases h
  · rintro ⟨rfl, hunit⟩
    simp only [checkQuantile]
    rw [if_pos hunit]
    rfl

theorem exists_checkQuantile_iff {given : Given Binary64} :
    (∃ x, (checkQuantile program given).result = .ok x) ↔ given.IsQuantile := by
  simp only [result_checkQuantile_eq_ok_iff]
  rfl

theorem breaks_checkQuantile_iff {given : Given Binary64} :
    Breaks (checkQuantile program given) ↔ ∀ x, given ≠ .value x := by
  cases given with
  | value x =>
    apply iff_of_false _ fun h ↦ h x rfl
    simp only [checkQuantile]
    split
    · exact not_breaks_pure _
    · exact not_breaks_refuse _ _
  | absent => exact iff_of_true (breaks_fail _) fun x h ↦ by cases h
  | bare => exact iff_of_true (breaks_fail _) fun x h ↦ by cases h

/-- Whether quantiles are given, up to one that has no value. -/
def QuantileBare (givens : List (Given Binary64)) : Prop :=
  ∃ before given after, givens = before ++ given :: after ∧
    (∀ g ∈ before, g.IsQuantile) ∧ ∀ x, given ≠ .value x

/-- The quantiles that a request asks for, or else the defaults. -/
def quantilesAsked (givens : List (Given Binary64)) (otherwise : List Binary64) :
    List (Given Binary64) :=
  if givens.isEmpty then otherwise.map .value else givens

/-- The quantiles in use are those that are asked for, if all of them are quantiles. -/
theorem quantilesAsked_of_chooseQuantiles {givens : List (Given Binary64)}
    {otherwise levels : List Binary64}
    (h : (chooseQuantiles program givens otherwise).result = .ok levels) :
    quantilesAsked givens otherwise = levels.map .value ∧
      ∀ level ∈ levels, level.inUnitInterval = true := by
  have hchecked := Transcript.result_mapM_eq_ok_iff.1 h
  change List.Forall₂ _ (quantilesAsked givens otherwise) levels at hchecked
  simp only [result_checkQuantile_eq_ok_iff] at hchecked
  clear h
  generalize quantilesAsked givens otherwise = asked at hchecked
  induction hchecked with
  | nil => exact ⟨rfl, List.forall_mem_nil _⟩
  | cons hlevel _ ih =>
    obtain ⟨rfl, hunit⟩ := hlevel
    rw [ih.1]
    exact ⟨rfl, List.forall_mem_cons.2 ⟨hunit, ih.2⟩⟩

theorem exists_chooseQuantiles_iff {givens : List (Given Binary64)} {otherwise : List Binary64} :
    (∃ quantiles, (chooseQuantiles program givens otherwise).result = .ok quantiles) ↔
      ∀ given ∈ quantilesAsked givens otherwise, given.IsQuantile := by
  simp only [← @exists_checkQuantile_iff program]
  exact exists_mapM_iff

theorem breaks_chooseQuantiles_iff {givens : List (Given Binary64)} {otherwise : List Binary64} :
    Breaks (chooseQuantiles program givens otherwise) ↔ QuantileBare givens := by
  have hmapM : Breaks (chooseQuantiles program givens otherwise) ↔
      QuantileBare (quantilesAsked givens otherwise) := by
    unfold QuantileBare
    simp only [← @exists_checkQuantile_iff program, ← @breaks_checkQuantile_iff program]
    exact breaks_mapM_iff
  rw [hmapM]
  cases givens with
  | cons given rest => rfl
  | nil =>
    -- The quantiles of the defaults all have a value.
    constructor
    · rintro ⟨before, given, after, hasked, _, hbare⟩
      have hmem : given ∈ otherwise.map Given.value := by
        have hasked' : otherwise.map Given.value = before ++ given :: after := hasked
        simp [hasked']
      obtain ⟨x, _, hx⟩ := List.mem_map.1 hmem
      exact absurd hx.symm (hbare x)
    · rintro ⟨before, given, after, hnil, _⟩
      cases before <;> cases hnil

/-! ## The summary and the text -/

/-- Counts that can be written are summarized, refused or found empty. -/
theorem not_breaks_summarizeRun {counts : List Int} (label : String) (levels : List Binary64)
    (hlimit : ∀ n ∈ counts, Decimal.WithinLimit n)
    (hlength : counts.length < Histogram.indexLimit) :
    ¬ Breaks (summarizeRun program (runValue label counts) (levels.map .float)) := by
  by_cases hnegative : ∃ n ∈ counts, n < 0
  · obtain ⟨first, count, hfirst, hcount, _⟩ := Histogram.exists_first_negative hnegative
    have hread := readAndSummarize_of_negative label (levels.map .float) hfirst hcount
      (hlimit count (List.mem_of_getElem? hcount))
    simp only [summarizeRun, hread]
    exact not_breaks_refuse _ _
  · push Not at hnegative
    by_cases hzeros : ∀ n ∈ counts, n = 0
    · have hread := readAndSummarize_of_zeros label (levels.map .float) hzeros
      simp only [summarizeRun, hread]
      exact not_breaks_of_exit rfl
    · push Not at hzeros
      obtain ⟨h, hcounts⟩ := Histogram.exists_eq_map_cast hnegative
      have hpos : 0 < h.total := by
        apply Histogram.total_pos_of_ne_zero
        rwa [← hcounts]
      have hlength' : h.length < Histogram.indexLimit := by
        rwa [hcounts, List.length_map] at hlength
      obtain ⟨summary, hsummary⟩ := @Run.exists_summary ⟨.text label, h⟩ levels hpos hlength'
      exact not_breaks_of_ok (result_summarizeRun_eq_ok_iff.2 ⟨h, hcounts, hsummary⟩)

/-- Without a workbook only the text can fail. -/
theorem breaks_deliver_iff (hxlsx : nonEmpty r.xlsx = none) :
    Breaks (deliver files r report) ↔ ¬ ∃ text, report.text r.json = .ok text := by
  have hsave : saveBook files r report = pure () := by
    unfold saveBook
    rw [hxlsx]
  unfold deliver
  rw [hsave, pure_bind]
  simp only [breaks_bind, breaks_orFail_iff, not_breaks_say, not_breaks_print, and_false,
    exists_false, or_false]

/-! ## Requests -/

/-- Why a request that saves no workbook breaks down. -/
inductive Request.Breakdown (files : Files) (r : Request) : Prop where
  | settings (hunreadable : SettingsUnreadable files r.config)
  | precision {defaults : Defaults} (hdefaults : DefaultsInUse files r.config defaults)
      (hbare : r.precision = .bare)
  | quantile {defaults : Defaults} {precision : Nat}
      (hdefaults : DefaultsInUse files r.config defaults)
      (hprecision : PrecisionInUse defaults.precision r.precision precision)
      (hbare : QuantileBare r.quantiles)
  | text {defaults : Defaults} {precision : Nat} {h : Histogram}
      (hdefaults : DefaultsInUse files r.config defaults)
      (hprecision : PrecisionInUse defaults.precision r.precision precision)
      (hquantiles : ∀ given ∈ quantilesAsked r.quantiles defaults.quantiles, given.IsQuantile)
      (hcounts : r.counts = h.map fun (count : Nat) ↦ (count : Int)) (hpos : 0 < h.total)
      (hunwritable : ¬ (Decimal.WithinLimit h.total ∧ Decimal.WithinLimit h.weightedSum ∧
        (r.json = false → precision < NumberFormat.placesLimit)))

section Bounded

variable (hlimit : ∀ n ∈ r.counts, Decimal.WithinLimit n)
  (hlength : r.counts.length < Histogram.indexLimit)
include hlimit hlength

theorem breaks_prepare_iff :
    Breaks (prepare program files r) ↔ SettingsUnreadable files r.config ∨
      ∃ defaults, DefaultsInUse files r.config defaults ∧
        (r.precision = .bare ∨ ∃ precision,
          PrecisionInUse defaults.precision r.precision precision ∧ QuantileBare r.quantiles) := by
  unfold prepare
  simp only [breaks_bind, breaks_loadDefaults_iff, result_loadDefaults_eq_ok_iff,
    breaks_choosePrecision_iff, result_choosePrecision_eq_ok_iff, breaks_chooseQuantiles_iff,
    not_breaks_say, not_breaks_summarizeRun _ _ hlimit hlength, not_breaks_pure, and_false,
    exists_false, or_false]

theorem breaks_execute_iff (hxlsx : nonEmpty r.xlsx = none) :
    Breaks (execute program files r) ↔ r.Breakdown files := by
  rw [execute_eq, breaks_bind, breaks_prepare_iff hlimit hlength]
  simp only [breaks_deliver_iff hxlsx]
  constructor
  · rintro ((hunreadable | ⟨defaults, hdefaults, hbare | ⟨precision, hprecision, hbare⟩⟩) |
      ⟨report, hprepare, htext⟩)
    · exact .settings hunreadable
    · exact .precision hdefaults hbare
    · exact .quantile hdefaults hprecision hbare
    · obtain ⟨defaults, hdefaults, hprecision, hquantiles, hsummary, _⟩ :=
        result_prepare_eq_ok_iff.1 hprepare
      obtain ⟨h, hcounts, hsummary⟩ := result_summarizeRun_eq_ok_iff.1 hsummary
      have hpos : 0 < h.total := (Run.summarize_eq_ok_iff.1 hsummary).1
      rw [hcounts, List.length_map] at hlength
      rw [Report.text, exists_outputText_iff hlength hsummary] at htext
      exact .text (result_loadDefaults_eq_ok_iff.1 hdefaults)
        (result_choosePrecision_eq_ok_iff.1 hprecision)
        (exists_chooseQuantiles_iff.1 ⟨_, hquantiles⟩) hcounts hpos htext
  · intro hbreakdown
    cases hbreakdown with
    | settings hunreadable => exact .inl (.inl hunreadable)
    | precision hdefaults hbare => exact .inl (.inr ⟨_, hdefaults, .inl hbare⟩)
    | quantile hdefaults hprecision hbare =>
      exact .inl (.inr ⟨_, hdefaults, .inr ⟨_, hprecision, hbare⟩⟩)
    | @text defaults precision h hdefaults hprecision hquantiles hcounts hpos hunwritable =>
      obtain ⟨quantiles, hquantiles⟩ := (@exists_chooseQuantiles_iff program _ _).2 hquantiles
      let label := (nonEmpty r.label).getD defaults.label
      rw [hcounts, List.length_map] at hlength
      obtain ⟨summary, hsummary⟩ := @Run.exists_summary ⟨.text label, h⟩ quantiles hpos hlength
      refine .inr ⟨⟨label, precision, quantiles, summary⟩, ?_, ?_⟩
      · exact result_prepare_eq_ok_iff.2 ⟨defaults, result_loadDefaults_eq_ok_iff.2 hdefaults,
          result_choosePrecision_eq_ok_iff.2 hprecision, hquantiles,
          result_summarizeRun_eq_ok_iff.2 ⟨h, hcounts, hsummary⟩, rfl⟩
      · rwa [Report.text, exists_outputText_iff hlength hsummary]

end Bounded

/-! ## Exit statuses -/

/-- A request ends with a status unless it breaks down. -/
theorem exists_status_iff (hread : readArguments arguments = .ok r) :
    (∃ status ∈ [0, 1, 2], (run program files arguments).result = .ok status) ↔
      ¬ Breaks (execute program files r) := by
  rw [run_of_request hread]
  cases hexecute : (execute program files r).result with
  | ok _ => exact iff_of_true ⟨0, by decide, rfl⟩ (not_breaks_of_ok hexecute)
  | error stop =>
    cases stop with
    | exit status =>
      have hstatus : status = 1 ∨ status = 2 := (within_execute program files r).stop _ hexecute
      refine iff_of_true ⟨status, ?_, rfl⟩ (not_breaks_of_exit hexecute)
      rcases hstatus with rfl | rfl <;> decide
    | fault f =>
      apply iff_of_false _ fun h ↦ h ⟨f, hexecute⟩
      rintro ⟨status, _, hend⟩
      cases hend

/-- Where no workbook is asked for, a run ends with the status 0, 1 or 2 exactly if its request does
not break down.  No list is as long as `Histogram.indexLimit`. -/
theorem exit_status_iff (program : String) (files : Files) (arguments : List String)
    (hlength : arguments.length < Histogram.indexLimit)
    (hxlsx : ∀ r, readArguments arguments = .ok r → nonEmpty r.xlsx = none) :
    (∃ status ∈ [0, 1, 2], (run program files arguments).result = .ok status) ↔
      ∀ r, readArguments arguments = .ok r → ¬ r.Breakdown files := by
  cases hread : readArguments arguments with
  | ok r =>
    have hbounded := bounded_of_readArguments hread
    have hcounts : r.counts.length < Histogram.indexLimit := hbounded.length_le.trans_lt hlength
    rw [exists_status_iff hread, breaks_execute_iff hbounded.withinLimit hcounts (hxlsx r hread)]
    constructor
    · rintro h r' hr'
      cases hr'
      exact h
    · intro h
      exact h r rfl
  | error ending =>
    apply iff_of_true _ fun r hr ↦ by cases hr
    unfold run
    rw [hread]
    cases ending with
    | help => exact ⟨0, by decide, rfl⟩
    | misuse m => exact ⟨2, by decide, rfl⟩

/-- Settings with a precision that no number can be written with. -/
def hugePrecision : Directory :=
  Directory.ofList [("report.ini", "precision = 1e10\n".toUTF8.data.toList)]

theorem lookUp_hugePrecision : hugePrecision.lookUp (Path.ofText "report.ini") =
    .file "precision = 1e10\n".toUTF8.data.toList :=
  Directory.lookUp_of_walk (by decide +kernel) (by decide +kernel) (by decide +kernel)

/-- A precision that is too big for the lines of a report does not matter to its document. -/
theorem exit_status_of_hugePrecision :
    (¬ ∃ status ∈ [0, 1, 2], (run "histogram-mean" hugePrecision.toFiles
      ["1", "--config=report.ini"]).result = .ok status) ∧
    ∃ status ∈ [0, 1, 2], (run "histogram-mean" hugePrecision.toFiles
      ["1", "--config=report.ini", "--json"]).result = .ok status := by
  let request : Request := { Request.empty with counts := [1], config := .value "report.ini" }
  have hread : readArguments ["1", "--config=report.ini"] = .ok request := by decide +kernel
  have hread' : readArguments ["1", "--config=report.ini", "--json"] =
      .ok { request with json := true } := by
    decide +kernel
  have hdefaults : DefaultsInUse hugePrecision.toFiles request.config _ :=
    .file rfl lookUp_hugePrecision
  have hone : [1] = ([1] : Histogram).map fun (count : Nat) ↦ (count : Int) := rfl
  constructor
  · rw [exit_status_iff _ _ _ (by decide) fun r hr ↦ by cases hread.symm.trans hr; rfl]
    intro h
    refine h request hread (.text hdefaults .absent ?_ hone (by decide) ?_)
    · have hnone : (Defaults.ofSettings
          (.ofBytes "precision = 1e10\n".toUTF8.data.toList)).quantiles = [] := by
        decide +kernel
      rw [hnone]
      exact fun given hgiven ↦ absurd hgiven List.not_mem_nil
    · rintro ⟨_, _, hprecision⟩
      exact absurd (hprecision rfl) (by decide +kernel)
  · rw [exit_status_iff _ _ _ (by decide) fun r hr ↦ by cases hread'.symm.trans hr; rfl]
    intro r hr hbreakdown
    cases hread'.symm.trans hr
    cases hbreakdown with
    | settings hunreadable =>
      obtain ⟨path, hpath, hfound⟩ := hunreadable
      obtain rfl : "report.ini" = path := Option.some.inj hpath
      have hlookUp : hugePrecision.toFiles.lookUp (Path.ofText "report.ini") = _ :=
        lookUp_hugePrecision
      rw [hlookUp] at hfound
      rcases hfound with hfound | hfound <;> cases hfound
    | precision _ hbare => cases hbare
    | quantile _ _ hbare =>
      obtain ⟨before, given, after, hnil, _⟩ := hbare
      cases before <;> cases hnil
    | @text _ _ h _ _ _ hcounts _ hunwritable =>
      have hinjective : Function.Injective fun (count : Nat) ↦ (count : Int) := Nat.cast_injective
      obtain rfl : ([1] : Histogram) = h :=
        List.map_injective_iff.2 hinjective (hone.symm.trans hcounts)
      exact hunwritable ⟨by decide, by decide, fun hlines ↦ by cases hlines⟩

/-- The precision of a settings file that no number can be written with ends a run in a fault. -/
theorem hugePrecision_without_status :
    let outcome := run "histogram-mean" hugePrecision.toFiles
      ["1", "--config", "report.ini", "--quiet"]
    outcome.result = .error .precisionTooBig ∧
      ¬ ∃ status ∈ [0, 1, 2], outcome.result = .ok status := by
  decide +kernel

end BucketStats.Command

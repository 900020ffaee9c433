import BucketStats.Command.Run
import BucketStats.Proofs.Transcript
/-!
# The stages of a run

Carrying out a request first prepares a report and then delivers it: the workbook is saved if one was
asked for, and the text is printed.  The report does not depend on how it is delivered.  Preparing
prints nothing and saves nothing, so whatever a run prints is the text of its report.
-/

namespace BucketStats.Command

open Steps

/-- What a run reports. -/
structure Report where
  label : String
  precision : Nat
  quantiles : List Binary64
  summary : Summary

/-- The levels of a report as values. -/
def Report.levels (report : Report) : List Value :=
  report.quantiles.map .float

/-- Decides on the settings and summarizes the counts. -/
def prepare (program : String) (files : Files) (r : Request) : Steps Report := do
  let defaults ← loadDefaults program files r.config
  let label := (nonEmpty r.label).getD defaults.label
  let precision ← choosePrecision program r.precision defaults.precision
  let quantiles ← chooseQuantiles program r.quantiles defaults.quantiles
  say s!"Computing mean over {r.counts.length} bucket(s)"
  let summary ← summarizeRun program (runValue label r.counts) (quantiles.map .float)
  pure ⟨label, precision, quantiles, summary⟩

theorem nonEmpty_value {s : String} (hs : s ≠ "") : nonEmpty (.value s) = some s := by
  have hempty : s.isEmpty = false := by simpa using hs
  simp only [nonEmpty, hempty]
  rfl

theorem choosePrecision_value {program : String} (precision otherwise : Nat) :
    choosePrecision program (.value precision) otherwise = pure precision := by
  have hnonneg : ¬ (precision : Int) < 0 := Int.not_lt.2 (Int.natCast_nonneg precision)
  unfold choosePrecision
  simp only [if_neg hnonneg, Int.toNat_natCast]

/-- What a report is made of. -/
theorem result_prepare_eq_ok_iff {program : String} {files : Files} {r : Request}
    {report : Report} :
    (prepare program files r).result = .ok report ↔
      ∃ defaults, (loadDefaults program files r.config).result = .ok defaults ∧
        (choosePrecision program r.precision defaults.precision).result = .ok report.precision ∧
        (chooseQuantiles program r.quantiles defaults.quantiles).result = .ok report.quantiles ∧
        (summarizeRun program (runValue report.label r.counts) report.levels).result =
          .ok report.summary ∧
        report.label = (nonEmpty r.label).getD defaults.label := by
  unfold prepare
  simp only [Transcript.result_bind_eq_ok_iff]
  constructor
  · rintro ⟨defaults, hdefaults, precision, hprecision, quantiles, hquantiles, _, _, summary,
      hsummary, hreport⟩
    cases hreport
    exact ⟨defaults, hdefaults, hprecision, hquantiles, hsummary, rfl⟩
  · rintro ⟨defaults, hdefaults, hprecision, hquantiles, hsummary, hlabel⟩
    obtain ⟨label, precision, quantiles, summary⟩ := report
    obtain rfl : label = (nonEmpty r.label).getD defaults.label := hlabel
    exact ⟨defaults, hdefaults, precision, hprecision, quantiles, hquantiles, (), rfl, summary,
      hsummary, rfl⟩

/-- Saves the workbook of a report, if one was asked for. -/
def saveBook (files : Files) (r : Request) (report : Report) : Steps Unit :=
  match nonEmpty r.xlsx with
  | none => pure ()
  | some path =>
    writeWorkbook files (runValue report.label r.counts) report.levels report.precision path

/-- The text of a report. -/
def Report.text (report : Report) (json : Bool) : Except Fault String :=
  outputText json report.label report.summary report.precision

/-- Saves the workbook and prints the text. -/
def deliver (files : Files) (r : Request) (report : Report) : Steps Unit := do
  saveBook files r report
  let text ← orFail (report.text r.json)
  print text
  say "Done"

theorem execute_eq (program : String) (files : Files) (r : Request) :
    execute program files r = prepare program files r >>= deliver files r := by
  unfold execute prepare deliver saveBook
  simp only [bind_assoc, pure_bind]
  cases nonEmpty r.xlsx with
  | none => rfl
  | some path => rfl

/-! ## What the stages do -/

/-- Whether an event neither prints anything nor saves a workbook. -/
def Event.IsMessage (e : Event) : Prop :=
  e.output = "" ∧ e.workbook? = none

/-- Whether a run that ends here has failed, in one of the ways that have a status or otherwise. -/
def Stop.IsFailure : Stop → Prop
  | .exit status => status = 1 ∨ status = 2
  | .fault _ => True

/-- Whether a run that ends here was not meant to. -/
def Stop.IsFault (stop : Stop) : Prop :=
  ∃ f, stop = .fault f

theorem Stop.IsFault.isFailure {stop : Stop} (h : stop.IsFault) : stop.IsFailure := by
  obtain ⟨f, rfl⟩ := h
  trivial

variable {program : String} {files : Files} {q : Stop → Prop}

theorem within_say (message : String) : (say message).Within Event.IsMessage q :=
  Transcript.within_note ⟨rfl, rfl⟩

theorem within_fail {α : Type} (f : Fault) :
    (fail f : Steps α).Within Event.IsMessage Stop.IsFailure :=
  Transcript.within_stop (Stop.IsFault.isFailure ⟨f, rfl⟩)

theorem within_refuse {α : Type} (program : String) (m : Misuse) :
    (refuse program m : Steps α).Within Event.IsMessage Stop.IsFailure := by
  apply (Transcript.within_note ⟨rfl, rfl⟩).bind
  intro _ _
  exact Transcript.within_stop (.inr rfl)

theorem within_loadDefaults (program : String) (files : Files) (config : Given String) :
    (loadDefaults program files config).Within Event.IsMessage Stop.IsFailure := by
  unfold loadDefaults
  split
  · exact Transcript.within_pure _
  · dsimp only
    split
    · exact within_refuse program _
    · exact within_fail _
    · exact (within_say _).bind fun _ _ ↦ within_fail _
    · exact (within_say _).bind fun _ _ ↦ Transcript.within_pure _

theorem within_choosePrecision (program : String) (given : Given Int) (otherwise : Nat) :
    (choosePrecision program given otherwise).Within Event.IsMessage Stop.IsFailure := by
  unfold choosePrecision
  split
  · exact Transcript.within_pure _
  · exact within_fail _
  · split
    · exact within_refuse program _
    · exact Transcript.within_pure _

theorem within_chooseQuantiles (program : String) (given : List (Given Binary64))
    (otherwise : List Binary64) :
    (chooseQuantiles program given otherwise).Within Event.IsMessage Stop.IsFailure := by
  apply Transcript.Within.mapM
  intro level _
  unfold checkQuantile
  split
  · split
    · exact Transcript.within_pure _
    · exact within_refuse program _
  · exact within_fail _

theorem within_summarizeRun (program : String) (run : Value) (levels : List Value) :
    (summarizeRun program run levels).Within Event.IsMessage Stop.IsFailure := by
  unfold summarizeRun
  split
  · exact Transcript.within_pure _
  · split
    · exact within_refuse program _
    · apply (Transcript.within_note ⟨rfl, rfl⟩).bind
      intro _ _
      exact Transcript.within_stop (.inl rfl)
    · exact within_fail _

/-- Preparing a report only tells the user about it. -/
theorem within_prepare (program : String) (files : Files) (r : Request) :
    (prepare program files r).Within Event.IsMessage Stop.IsFailure := by
  apply (within_loadDefaults program files r.config).bind
  intro defaults _
  apply (within_choosePrecision program r.precision defaults.precision).bind
  intro precision _
  apply (within_chooseQuantiles program r.quantiles defaults.quantiles).bind
  intro quantiles _
  apply (within_say _).bind
  intro _ _
  apply (within_summarizeRun program _ _).bind
  intro summary _
  exact Transcript.within_pure _

theorem within_translate_progress {α : Type} (t : Transcript String Fault α) :
    (t.translate .progress .fault).Within Event.IsMessage Stop.IsFault :=
  Transcript.within_translate t (fun _ ↦ ⟨rfl, rfl⟩) fun f ↦ ⟨f, rfl⟩

theorem within_writeWorkbook (files : Files) (run : Value) (levels : List Value) (precision : Nat)
    (path : String) : (writeWorkbook files run levels precision path).Within
      (fun e ↦ e.output = "") Stop.IsFault := by
  apply ((within_say _).mono (fun e he ↦ he.1) fun _ h ↦ h).bind
  intro _ _
  apply ((within_translate_progress _).mono (fun e he ↦ he.1) fun _ h ↦ h).bind
  intro _ _
  exact Transcript.within_note rfl

theorem within_saveBook (files : Files) (r : Request) (report : Report) :
    (saveBook files r report).Within (fun e ↦ e.output = "") Stop.IsFault := by
  unfold saveBook
  split
  · exact Transcript.within_pure _
  · exact within_writeWorkbook _ _ _ _ _

theorem within_orFail {α : Type} {p : Event → Prop} (result : Except Fault α) :
    (orFail result).Within p Stop.IsFault := by
  apply Transcript.within_ofExcept
  intro stop hstop
  cases result with
  | error f =>
    cases hstop
    exact ⟨f, rfl⟩
  | ok a => cases hstop

/-- A report that was prepared is delivered unless something unforeseen happens. -/
theorem within_deliver (files : Files) (r : Request) (report : Report) :
    (deliver files r report).Within (fun _ ↦ True) Stop.IsFault := by
  apply ((within_saveBook files r report).mono (fun _ _ ↦ trivial) fun _ h ↦ h).bind
  intro _ _
  apply (within_orFail _).bind
  intro text _
  apply (Transcript.within_note trivial).bind
  intro _ _
  exact Transcript.within_note trivial

/-! ## How runs end -/

variable {r : Request} {report : Report} {arguments : List String}

/-- A run whose arguments can be read carries out their request. -/
theorem run_of_request (hread : readArguments arguments = .ok r) :
    run program files arguments =
      ⟨(execute program files r).notes, resultOf (execute program files r).result, r.quiet⟩ := by
  unfold run
  rw [hread]

theorem within_execute (program : String) (files : Files) (r : Request) :
    (execute program files r).Within (fun _ ↦ True) Stop.IsFailure := by
  rw [execute_eq]
  apply ((within_prepare program files r).mono (fun _ _ ↦ trivial) fun _ h ↦ h).bind
  intro report _
  exact (within_deliver files r report).mono (fun _ h ↦ h) fun _ h ↦ h.isFailure

/-- A run has succeeded only if it reached its end. -/
theorem execute_result_of_run (hread : readArguments arguments = .ok r)
    (hend : (run program files arguments).result = .ok 0) :
    (execute program files r).result = .ok () := by
  rw [run_of_request hread] at hend
  cases hexecute : (execute program files r).result with
  | ok _ => rfl
  | error stop =>
    rw [hexecute] at hend
    cases stop with
    | exit status =>
      obtain rfl : status = 0 := Except.ok.inj hend
      have hstatus : 0 = 1 ∨ 0 = 2 := (within_execute program files r).stop _ hexecute
      omega
    | fault f => cases hend

theorem join_output_eq_empty {events : List Event} (h : ∀ e ∈ events, e.output = "") :
    String.join (events.map Event.output) = "" := by
  induction events with
  | nil => rfl
  | cons e rest ih =>
    obtain ⟨he, hrest⟩ := List.forall_mem_cons.1 h
    rw [List.map_cons, String.join_cons, he, ih hrest]
    rfl

theorem findSome?_workbook_eq_none {events : List Event} (h : ∀ e ∈ events, e.IsMessage) :
    events.findSome? Event.workbook? = none :=
  List.findSome?_eq_none_iff.2 fun e he ↦ (h e he).2

/-- A run that succeeds prints the text of its report and saves what its delivery saves. -/
theorem exists_report (hread : readArguments arguments = .ok r)
    (hend : (run program files arguments).result = .ok 0) :
    ∃ report text, (prepare program files r).result = .ok report ∧
      (saveBook files r report).result = .ok () ∧ report.text r.json = .ok text ∧
      (run program files arguments).output = text ∧
      (run program files arguments).workbook? =
        (saveBook files r report).notes.findSome? Event.workbook? := by
  have hresult := execute_result_of_run hread hend
  have hevents : (run program files arguments).events = (execute program files r).notes := by
    rw [run_of_request hread]
  rw [execute_eq] at hresult hevents
  obtain ⟨report, hprepare, hdeliver⟩ := Transcript.result_bind_eq_ok_iff.1 hresult
  obtain ⟨_, hsave, htext⟩ := Transcript.result_bind_eq_ok_iff.1 hdeliver
  obtain ⟨text, htext, _⟩ := Transcript.result_bind_eq_ok_iff.1 htext
  have htext' : report.text r.json = .ok text := mapError_eq_ok_iff.1 htext
  have hnotes : (deliver files r report).notes =
      (saveBook files r report).notes ++ [.printed text, .progress "Done"] := by
    unfold deliver
    rw [Transcript.notes_bind_of_ok hsave, Transcript.notes_bind_of_ok htext]
    rfl
  rw [Transcript.notes_bind_of_ok hprepare, hnotes] at hevents
  have hmessages := (within_prepare program files r).notes
  have hsilent := (within_saveBook files r report).notes
  refine ⟨report, text, hprepare, hsave, htext', ?_, ?_⟩
  · unfold Outcome.output
    rw [hevents, List.map_append, List.map_append, String.join_append, String.join_append,
      join_output_eq_empty fun e he ↦ (hmessages e he).1, join_output_eq_empty hsilent]
    simp [Event.output]
  · unfold Outcome.workbook?
    have hend : [Event.printed text, .progress "Done"].findSome? Event.workbook? = none := rfl
    rw [hevents, List.findSome?_append, List.findSome?_append,
      findSome?_workbook_eq_none hmessages, hend, Option.none_or, Option.or_none]

end BucketStats.Command

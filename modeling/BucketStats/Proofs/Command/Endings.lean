import BucketStats.Proofs.Command.Stages
/-!
# What is left when a run fails

Whatever makes a run fail comes before it prints anything, and whatever makes it end with a status of
its own comes before it saves anything.  So the output is the whole text or nothing, and a workbook
is left behind only by success or by something unforeseen.
-/

namespace BucketStats.Command

open Steps

variable {program : String} {files : Files} {r : Request} {report : Report} {arguments : List String}

/-- A delivery that stops has printed nothing. -/
theorem silent_of_deliver {stop : Stop} (hstop : (deliver files r report).result = .error stop) :
    ∀ e ∈ (deliver files r report).notes, e.output = "" := by
  have hsave := (within_saveBook files r report).notes
  unfold deliver at hstop ⊢
  cases hbook : (saveBook files r report).result with
  | error stop' =>
    rw [Transcript.bind_of_error hbook]
    exact hsave
  | ok _ =>
    rw [Transcript.result_bind_of_ok hbook] at hstop
    rw [Transcript.notes_bind_of_ok hbook]
    cases htext : report.text r.json with
    | error f =>
      have hfail : (orFail (Except.error f) : Steps String).result = .error (.fault f) := rfl
      rw [Transcript.bind_of_error hfail]
      intro e he
      exact hsave e ((List.mem_append.1 he).resolve_right List.not_mem_nil)
    | ok text =>
      rw [htext] at hstop
      cases hstop

/-- A request that is not carried out to its end prints nothing. -/
theorem silent_of_execute {stop : Stop} (hstop : (execute program files r).result = .error stop) :
    ∀ e ∈ (execute program files r).notes, e.output = "" := by
  have hmessages := (within_prepare program files r).notes
  rw [execute_eq] at hstop ⊢
  cases hprepare : (prepare program files r).result with
  | error stop' =>
    rw [Transcript.bind_of_error hprepare]
    exact fun e he ↦ (hmessages e he).1
  | ok report =>
    rw [Transcript.result_bind_of_ok hprepare] at hstop
    rw [Transcript.notes_bind_of_ok hprepare]
    intro e he
    rcases List.mem_append.1 he with he | he
    · exact (hmessages e he).1
    · exact silent_of_deliver hstop e he

/-- A request that ends with a status of its own does so before it saves anything. -/
theorem messages_of_execute {status : Nat}
    (hstop : (execute program files r).result = .error (.exit status)) :
    ∀ e ∈ (execute program files r).notes, e.IsMessage := by
  have hmessages := (within_prepare program files r).notes
  rw [execute_eq] at hstop ⊢
  cases hprepare : (prepare program files r).result with
  | error stop' =>
    rw [Transcript.bind_of_error hprepare]
    exact hmessages
  | ok report =>
    rw [Transcript.result_bind_of_ok hprepare] at hstop
    obtain ⟨f, hf⟩ := (within_deliver files r report).stop _ hstop
    cases hf

theorem output_of_failure (hread : readArguments arguments = .ok r)
    (hend : (run program files arguments).result ≠ .ok 0) :
    (run program files arguments).output = "" := by
  rw [run_of_request hread] at hend ⊢
  cases hexecute : (execute program files r).result with
  | ok _ =>
    rw [hexecute] at hend
    exact absurd rfl hend
  | error stop => exact join_output_eq_empty (silent_of_execute hexecute)

theorem workbook?_of_status (hread : readArguments arguments = .ok r) {status : Nat}
    (hend : (run program files arguments).result = .ok status) (hstatus : status ≠ 0) :
    (run program files arguments).workbook? = none := by
  rw [run_of_request hread] at hend ⊢
  cases hexecute : (execute program files r).result with
  | ok _ =>
    rw [hexecute] at hend
    exact absurd (Except.ok.inj hend).symm hstatus
  | error stop =>
    cases stop with
    | exit status' => exact findSome?_workbook_eq_none (messages_of_execute hexecute)
    | fault f =>
      rw [hexecute] at hend
      cases hend

/-- A run prints its whole text or nothing, and leaves no workbook behind if it ends with a status
other than zero. -/
theorem output_all_or_nothing (program : String) (files : Files) (arguments : List String) :
    let outcome := run program files arguments
    (outcome.result ≠ .ok 0 → outcome.output = "") ∧
    (∀ status, outcome.result = .ok status → status ≠ 0 → outcome.workbook? = none) ∧
    (outcome.result = .ok 0 → outcome.output = helpText program ∨
      ∃ r report, readArguments arguments = .ok r ∧
        (prepare program files r).result = .ok report ∧
        report.text r.json = .ok outcome.output) := by
  intro outcome
  cases hread : readArguments arguments with
  | ok r =>
    refine ⟨output_of_failure hread, fun status ↦ workbook?_of_status hread, fun hend ↦ .inr ?_⟩
    obtain ⟨report, text, hprepare, _, htext, houtput, _⟩ := exists_report hread hend
    exact ⟨r, report, rfl, hprepare, by rw [htext, ← houtput]⟩
  | error ending =>
    cases ending with
    | help =>
      have hrun : outcome = ⟨[.printed (helpText program)], .ok 0, false⟩ := by
        simp only [outcome, run, hread]
      rw [hrun]
      refine ⟨fun hne ↦ absurd rfl hne, fun _ hend hne ↦ ?_, fun _ ↦ .inl ?_⟩
      · exact absurd (Except.ok.inj hend).symm hne
      · simp [Outcome.output, Event.output]
    | misuse m =>
      have hrun : outcome = ⟨[.diagnostic (misuseText program m)], .ok 2, false⟩ := by
        simp only [outcome, run, hread]
      rw [hrun]
      refine ⟨fun _ ↦ rfl, fun _ _ _ ↦ rfl, fun hend ↦ ?_⟩
      cases hend

/-- Nothing is printed where the workbook cannot be saved, no workbook is left behind where there are
no observations, and otherwise the whole report is printed. -/
theorem output_of_three_runs :
    let files := Directory.toFiles []
    (run "histogram-mean" files ["1", "--xlsx=missing/out.xlsx"]).output = "" ∧
    (run "histogram-mean" files ["0", "--xlsx=out.xlsx"]).workbook? = none ∧
    ∃ r report, readArguments ["1"] = .ok r ∧
      (prepare "histogram-mean" files r).result = .ok report ∧
      report.text r.json = .ok (run "histogram-mean" files ["1"]).output := by
  intro files
  have hprinted := (output_all_or_nothing "histogram-mean" files ["1"]).2.2 (by decide +kernel)
  exact ⟨(output_all_or_nothing _ _ _).1 (by decide +kernel),
    (output_all_or_nothing _ _ _).2.1 1 (by decide +kernel) (by decide),
    hprinted.resolve_left (by decide +kernel)⟩

end BucketStats.Command

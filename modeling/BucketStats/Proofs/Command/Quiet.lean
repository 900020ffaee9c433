import BucketStats.Proofs.Command.Related
import BucketStats.Proofs.Command.Stages
/-!
# Quiet runs

Whether a run is quiet is read beside everything else that is asked for, and nothing looks at it
before the events of the run are written.  So a quiet run does what the run does without the flag and
ends in the same way, and of what that one writes beside the output it leaves out the progress.
-/

namespace BucketStats.Command

/-- The same request for a quiet run. -/
def Request.quieted (r : Request) : Request :=
  { r with quiet := true }

theorem isKept_quieted : IsKept fun r r' ↦ r.quieted = r' := by
  rintro change hchange r _ rfl
  cases hchange <;> rfl

/-- The flag is set before anything else is read, and nothing resets it. -/
theorem readArguments_quiet (arguments : List String) :
    readArguments ("--quiet" :: arguments) = (readArguments arguments).map Request.quieted := by
  have hflag : (WrittenOption.flag .quiet).choice? = some .quiet := rfl
  have hsorted : tokens ("--quiet" :: arguments) = (do
      let sorted ← tokens arguments
      .ok ((WrittenOption.flag .quiet).tokens ++ sorted)) :=
    tokens_append (WrittenOption.tokens_arguments hflag).1 arguments
  apply Agree.eq_map
  rw [readArguments_eq, readArguments_eq, hsorted]
  cases tokens arguments with
  | error m => exact rfl
  | ok sorted =>
    simp only [Except.mapError, ok_bind]
    rw [WrittenOption.readTokens_tokens hflag]
    have hstart : Intake.Related (fun r r' ↦ r.quieted = r') ⟨.empty, false, []⟩
        (Intake.setRequest ⟨.empty, false, []⟩ (Choice.quiet.set .empty)) :=
      ⟨rfl, rfl, rfl⟩
    exact (readTokens_agree isKept_quieted hstart [] sorted).bind fun _ _ hp ↦ close_agree hp

def Event.isProgress : Event → Bool
  | .progress _ => true
  | _ => false

theorem join_errorOutput_quiet (events : List Event) (quiet : Bool) :
    String.join (events.map (Event.errorOutput true)) =
      String.join ((events.filter fun e ↦ !e.isProgress).map (Event.errorOutput quiet)) := by
  induction events with
  | nil => rfl
  | cons e rest ih =>
    rw [List.map_cons, String.join_cons, ih]
    cases e with
    | progress message => exact String.empty_append
    | diagnostic text => exact String.join_cons.symm
    | saved path book => exact String.join_cons.symm
    | printed text => exact String.join_cons.symm

/-- With the flag for a quiet run before its arguments, a run ends in the same way, prints the same and
saves the same.  Beside the output it writes what the run without the flag writes, less the progress. -/
theorem run_quiet (program : String) (files : Files) (arguments : List String) :
    let quiet := run program files ("--quiet" :: arguments)
    let outcome := run program files arguments
    quiet.result = outcome.result ∧ quiet.output = outcome.output ∧
      quiet.workbook? = outcome.workbook? ∧
      quiet.errorOutput = String.join
        ((outcome.events.filter fun e ↦ !e.isProgress).map (Event.errorOutput outcome.quiet)) := by
  intro quiet outcome
  have hread := readArguments_quiet arguments
  simp only [quiet, outcome, run, hread]
  cases readArguments arguments with
  | error ending =>
    cases ending with
    | help => exact ⟨rfl, rfl, rfl, rfl⟩
    | misuse m => exact ⟨rfl, rfl, rfl, rfl⟩
  | ok r => exact ⟨rfl, rfl, rfl, join_errorOutput_quiet _ r.quiet⟩

end BucketStats.Command

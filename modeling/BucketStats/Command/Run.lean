import BucketStats.Command.Arguments
import BucketStats.Command.Files
import BucketStats.Summary.Lines
import BucketStats.Workbook.Build
/-!
# Running the command

A run of the command is the list of what it does, in order: progress lines and diagnostics, saved
workbooks, and the text that it prints.  It ends with an exit status or with a fault that nobody
expected.  Printing is the last thing to happen, so a run that fails prints nothing.
-/

namespace BucketStats.Command

inductive Event where
  | progress (message : String)
  | diagnostic (text : String)
  | saved (path : String) (book : Workbook)
  | printed (text : String)

/-- Why a run ends before its last step. -/
inductive Stop where
  | exit (status : Nat)
  | fault (f : Fault)

abbrev Steps := Transcript Event Stop

namespace Steps

def say (message : String) : Steps Unit :=
  Transcript.note (.progress message)

def print (text : String) : Steps Unit :=
  Transcript.note (.printed text)

def fail {α : Type} (f : Fault) : Steps α :=
  Transcript.stop (.fault f)

def orFail {α : Type} (r : Except Fault α) : Steps α :=
  Transcript.ofExcept (r.mapError .fault)

/-- Tells the user about a mistake and ends with status 2. -/
def refuse {α : Type} (program : String) (m : Misuse) : Steps α := do
  Transcript.note (.diagnostic (misuseText program m))
  Transcript.stop (.exit 2)

end Steps

open Steps

/-- A text that was given and is not empty. -/
def nonEmpty : Given String → Option String
  | .value s => if s.isEmpty then none else some s
  | _ => none

/-- The defaults of a settings file, or those that are built in. -/
def loadDefaults (program : String) (files : Files) (config : Given String) : Steps Defaults :=
  match nonEmpty config with
  | none => pure .builtin
  | some s => do
    let path := Path.ofText s
    match files.lookUp path with
    | .nothing => refuse program (.configNotFound path.text)
    | .nameTooLong => fail (.nameTooLong (quotedText path.text))
    | .directory => do
      say s!"Loading config ({path.name})"
      fail (.isDirectory (quotedText path.text))
    | .file bytes => do
      say s!"Loading config ({path.name})"
      pure (Defaults.ofSettings (Settings.ofBytes bytes))

/-- The precision in use, which may not be negative. -/
def choosePrecision (program : String) (given : Given Int) (otherwise : Nat) : Steps Nat :=
  match given with
  | .absent => pure otherwise
  | .bare => fail (.notComparable "<" .list .int)
  | .value n => if n < 0 then refuse program .negativePrecision else pure n.toNat

/-- Quantiles lie between zero and one. -/
def checkQuantile (program : String) (given : Given Binary64) : Steps Binary64 :=
  match given with
  | .value x =>
    if x.inUnitInterval then pure x
    else refuse program (.quantileOutside (binary64Text x))
  | _ => fail (.notComparable "<=" .float .list)

def chooseQuantiles (program : String) (given : List (Given Binary64))
    (otherwise : List Binary64) : Steps (List Binary64) :=
  (if given.isEmpty then otherwise.map .value else given).mapM (checkQuantile program)

/-- The only run of the command, as a value. -/
def runValue (label : String) (counts : List Int) : Value :=
  .dict [(.text "label", .text label), (.text "counts", .list (counts.map .int))]

/-- The summary of a run, unless its counts are invalid or hold no observations. -/
def summarizeRun (program : String) (run : Value) (levels : List Value) : Steps Summary :=
  match Run.readAndSummarize levels run with
  | .ok (_, summary) => pure summary
  | .error f =>
    match f.family with
    | .invalidInput => refuse program (.invalidInput f.message)
    | .emptyDistribution => do
      Transcript.note (.diagnostic s!"no data: {f.message}\n")
      Transcript.stop (.exit 1)
    | _ => fail f

def writeWorkbook (files : Files) (run : Value) (levels : List Value) (precision : Nat)
    (path : String) : Steps Unit := do
  say "Building Excel workbook"
  let written :=
    files.library.write (files.refusal path) (.list [run]) (.list levels) (.int precision) path
  let (_, book) ← written.translate .progress .fault
  Transcript.note (.saved path book)

/-- The text that the command prints: the summary as JSON, or the report's lines. -/
def outputText (json : Bool) (label : String) (summary : Summary) (precision : Nat) :
    Except Fault String :=
  if json then do
    let text ← (summary.toJson label).write 0
    .ok (text ++ "\n")
  else do
    let lines ← reportLines summary.toValue (.int precision)
    .ok (String.join (lines.map (· ++ "\n")))

/-- Carries out a request. -/
def execute (program : String) (files : Files) (r : Request) : Steps Unit := do
  let defaults ← loadDefaults program files r.config
  let label := (nonEmpty r.label).getD defaults.label
  let precision ← choosePrecision program r.precision defaults.precision
  let quantiles ← chooseQuantiles program r.quantiles defaults.quantiles
  say s!"Computing mean over {r.counts.length} bucket(s)"
  let run := runValue label r.counts
  let levels : List Value := quantiles.map .float
  let summary ← summarizeRun program run levels
  match nonEmpty r.xlsx with
  | none => pure ()
  | some path => writeWorkbook files run levels precision path
  let text ← orFail (outputText r.json label summary precision)
  print text
  say "Done"

/-- What a run of the command did and how it ended. -/
structure Outcome where
  events : List Event
  result : Except Fault Nat
  quiet : Bool

/-- The status or fault that steps end with; steps that reach their end succeed. -/
def resultOf : Except Stop Unit → Except Fault Nat
  | .ok () => .ok 0
  | .error (.exit status) => .ok status
  | .error (.fault f) => .error f

/-- Runs the command by the name of its program, on its arguments and the files around it. -/
def run (program : String) (files : Files) (arguments : List String) : Outcome :=
  match readArguments arguments with
  | .error .help => ⟨[.printed (helpText program)], .ok 0, false⟩
  | .error (.misuse m) => ⟨[.diagnostic (misuseText program m)], .ok 2, false⟩
  | .ok request =>
    let steps := execute program files request
    ⟨steps.notes, resultOf steps.result, request.quiet⟩

/-- A progress line, with the seconds since the start; a run is over at once. -/
def progressLine (message : String) : String :=
  s!"[   0.0s] {message}\n"

/-- What a progress message writes; disabled progress writes nothing. -/
def progressText (message enabled : Value) : Except Fault String := do
  if enabled.isTrue then
    let text ← message.display
    .ok (progressLine text)
  else .ok ""

namespace Event

def output : Event → String
  | .printed text => text
  | _ => ""

/-- What an event writes beside the output.  Quiet runs leave out their progress. -/
def errorOutput (quiet : Bool) : Event → String
  | .progress message => if quiet then "" else progressLine message
  | .diagnostic text => text
  | _ => ""

def workbook? : Event → Option (String × Workbook)
  | .saved path book => some (path, book)
  | _ => none

end Event

namespace Outcome

def output (o : Outcome) : String :=
  String.join (o.events.map Event.output)

def errorOutput (o : Outcome) : String :=
  String.join (o.events.map (Event.errorOutput o.quiet))

def workbook? (o : Outcome) : Option (String × Workbook) :=
  o.events.findSome? Event.workbook?

end Outcome

end BucketStats.Command

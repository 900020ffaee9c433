import BucketStats.Command.Run
import BucketStats.Workbook.Plain
/-!
# The command

Reads the settings file that the arguments name, runs the command, and does what the run says, event
by event.  A workbook is saved as plain text.
-/

namespace BucketStats.Command

def programName : String :=
  "histogram-mean"

def readFound (path : Path) : IO Found := do
  try
    let bytes ← IO.FS.readBinFile path.text
    return .file bytes.toList
  catch
    | .noFileOrDirectory .. => return .nothing
    | _ => return .directory

/-- What stands at the path of the settings file; nothing else is read. -/
def readFiles (arguments : List String) : IO Files := do
  match readArguments arguments with
  | .ok request =>
    match nonEmpty request.config with
    | some s =>
      let found ← readFound (Path.ofText s)
      return ⟨fun _ ↦ found, fun _ ↦ none, .standard⟩
    | none => return ⟨fun _ ↦ .nothing, fun _ ↦ none, .standard⟩
  | .error _ => return ⟨fun _ ↦ .nothing, fun _ ↦ none, .standard⟩

def Event.enact (quiet : Bool) : Event → IO Unit
  | .printed text => IO.print text
  | .saved path book => IO.FS.writeFile path book.plain
  | event => IO.eprint (event.errorOutput quiet)

end BucketStats.Command

open BucketStats.Command in
def main (arguments : List String) : IO UInt32 := do
  let files ← readFiles arguments
  let outcome := run programName files arguments
  for event in outcome.events do
    event.enact outcome.quiet
  match outcome.result with
  | .ok status => return UInt32.ofNat status
  | .error fault => do
    IO.eprintln fault.message
    return 1

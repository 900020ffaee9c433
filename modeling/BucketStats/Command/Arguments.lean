import BucketStats.Command.Usage
import BucketStats.Text.Lines
/-!
# Arguments of the command line

Arguments are first sorted into options and operands, each by its own text: an option may be cut
short as long as one option alone begins so, and may have its value attached with an equals sign.
After the separator `--` everything is an operand.  What begins with a hyphen is an operand all the
same if it is the hyphen alone, looks like a negative number or holds a space.

The sorted arguments are then read in order.  Operands that stand together form a run; the first run
is the counts, and a later run is not recognized.
-/

namespace BucketStats.Command

open Text

/-- A sorted argument.  An option comes with the spelling that it was matched to and with the value
attached to it. -/
inductive Token where
  | separator
  | operand (text : String)
  | option (name : OptionName) (spelling : String) (attached : Option String)
  | unknown (text : String)
deriving DecidableEq

/-- The options that a long text, up to an equals sign, is the beginning of; or for a short text, the
option of its first letter, with the rest attached. -/
def candidates (s : List Char) : List (OptionName × String × Option String) :=
  match s with
  | '-' :: '-' :: _ =>
    let (start, attached) :=
      match splitAtFirst '=' s with
      | some (before, after) => (before, some (String.ofList after))
      | none => (s, none)
    OptionName.spellings.filterMap fun e ↦
      if start.isPrefixOf e.1.toList then some (e.2, e.1, attached) else none
  | _ =>
    OptionName.spellings.filterMap fun e ↦
      if e.1.toList == s.take 2 then some (e.2, e.1, some (String.ofList (s.drop 2))) else none

def allDigits (s : List Char) : Bool :=
  s.all fun c ↦ (digitValue? c).isSome

/-- Whether digits, or digits around a point with at least one after it, follow a hyphen.  A line
feed may end them. -/
def isNegativeNumber : List Char → Bool
  | '-' :: body =>
    let body := if body.getLast? == some '\n' then body.dropLast else body
    match splitAtFirst '.' body with
    | some (whole, fraction) => allDigits whole && !fraction.isEmpty && allDigits fraction
    | none => !body.isEmpty && allDigits body
  | _ => false

/-- Sorts what begins with a hyphen and is no option in full. -/
def classifyAbbreviated (s : String) : Except Misuse Token :=
  match candidates s.toList with
  | [(name, spelling, attached)] => .ok (.option name spelling attached)
  | [] =>
    if isNegativeNumber s.toList || s.toList.contains ' ' then .ok (.operand s)
    else .ok (.unknown s)
  | several => .error (.ambiguous s (several.map (·.2.1)))

def classify (s : String) : Except Misuse Token :=
  match s.toList with
  | '-' :: _ :: _ =>
    match OptionName.ofSpelling? s.toList with
    | some name => .ok (.option name s none)
    | none =>
      match splitAtFirst '=' s.toList with
      | some (before, after) =>
        match OptionName.ofSpelling? before with
        | some name => .ok (.option name (String.ofList before) (some (String.ofList after)))
        | none => classifyAbbreviated s
      | none => classifyAbbreviated s
  | _ => .ok (.operand s)

/-- Sorts all arguments; the first that is ambiguous stops it. -/
def tokens : List String → Except Misuse (List Token)
  | [] => .ok []
  | s :: rest =>
    if s = "--" then .ok (.separator :: rest.map .operand)
    else do
      let token ← classify s
      let more ← tokens rest
      .ok (token :: more)

/-- The value of an option.  The separator in the place of a value leaves the option bare. -/
inductive Given (α : Type) where
  | absent
  | bare
  | value (a : α)
deriving DecidableEq

/-- What the command is asked to do. -/
structure Request where
  counts : List Int
  label : Given String
  precision : Given Int
  config : Given String
  quantiles : List (Given Binary64)
  json : Bool
  xlsx : Given String
  quiet : Bool
deriving DecidableEq

def Request.empty : Request :=
  ⟨[], .absent, .absent, .absent, [], false, .absent, false⟩

/-- Why reading arguments ends early. -/
inductive Ending where
  | help
  | misuse (m : Misuse)
deriving DecidableEq

/-- The arguments read so far: the request, whether the counts have been taken, and what was not
recognized. -/
structure Intake where
  request : Request
  counted : Bool
  leftover : List String

def readCount (s : String) : Except Ending Int :=
  match Decimal.readInteger s.toList with
  | some n => .ok n
  | none => .error (.misuse (.invalidInteger "counts" (quotedText s)))

/-- Ends a run of operands.  The counts lose their first separator. -/
def Intake.endRun (p : Intake) (run : List String) : Except Ending Intake :=
  if run.isEmpty then .ok p
  else if p.counted then .ok { p with leftover := p.leftover ++ run }
  else do
    let counts ← (run.erase "--").mapM readCount
    .ok { p with request := { p.request with counts := counts }, counted := true }

/-- What is left of a value that may be the separator. -/
def given (s : String) : Given String :=
  if s = "--" then .bare else .value s

def readPrecision (s : String) : Except Ending (Given Int) :=
  match given s with
  | .value s =>
    match Decimal.readInteger s.toList with
    | some n => .ok (.value n)
    | none => .error (.misuse (.invalidInteger OptionName.precision.title (quotedText s)))
  | _ => .ok .bare

def readQuantile (s : String) : Except Ending (Given Binary64) :=
  match given s with
  | .value s =>
    match Decimal.readDecimal s.toList with
    | some x => .ok (.value x)
    | none => .error (.misuse (.invalidFloat OptionName.quantile.title (quotedText s)))
  | _ => .ok .bare

/-- Sets an option that takes a value. -/
def Request.setValue (r : Request) (name : OptionName) (s : String) : Except Ending Request :=
  match name with
  | .label => .ok { r with label := given s }
  | .config => .ok { r with config := given s }
  | .xlsx => .ok { r with xlsx := given s }
  | .precision => do
    let n ← readPrecision s
    .ok { r with precision := n }
  | .quantile => do
    let x ← readQuantile s
    .ok { r with quantiles := r.quantiles ++ [x] }
  | _ => .ok r

/-- Sets an option that takes no value. -/
def Request.setFlag (r : Request) (name : OptionName) : Except Ending Request :=
  match name with
  | .help => .error .help
  | .json => .ok { r with json := true }
  | .quiet => .ok { r with quiet := true }
  | _ => .ok r

/-- The letters attached to a short option are short options themselves, all of which must ask for
help. -/
def attachedLetters : List Char → Ending
  | [] => .misuse (.needlessValue .help (quotedText ""))
  | c :: rest =>
    if c == 'h' then
      match rest with
      | [] => .help
      | _ => attachedLetters rest
    else .misuse (.needlessValue .help (quotedText (String.ofList (c :: rest))))

/-- Sets an option that takes no value but has one attached. -/
def attachedToFlag (name : OptionName) (spelling s : String) : Ending :=
  if spelling = "-h" then attachedLetters s.toList
  else .misuse (.needlessValue name (quotedText s))

def Intake.setRequest (p : Intake) (r : Request) : Intake :=
  { p with request := r }

/-- Reads sorted arguments in order, from within a run of operands whose last one stands first. -/
def readTokens (p : Intake) (run : List String) : List Token → Except Ending Intake
  | [] => p.endRun run.reverse
  | .separator :: rest => readTokens p ("--" :: run) rest
  | .operand s :: rest => readTokens p (s :: run) rest
  | .unknown s :: rest => do
    let p ← p.endRun run.reverse
    readTokens { p with leftover := p.leftover ++ [s] } [] rest
  | .option name spelling attached :: rest => do
    let p ← p.endRun run.reverse
    match name.takesValue, attached with
    | true, some s =>
      let r ← p.request.setValue name s
      readTokens (p.setRequest r) [] rest
    | true, none =>
      match rest with
      | .operand s :: more =>
        let r ← p.request.setValue name s
        readTokens (p.setRequest r) [] more
      | _ => .error (.misuse (.missingValue name))
    | false, some s => .error (attachedToFlag name spelling s)
    | false, none =>
      let r ← p.request.setFlag name
      readTokens (p.setRequest r) [] rest

/-- Reads the arguments of the command line. -/
def readArguments (arguments : List String) : Except Ending Request := do
  let sorted ← (tokens arguments).mapError .misuse
  let p ← readTokens ⟨.empty, false, []⟩ [] sorted
  if p.leftover.isEmpty then .ok p.request else .error (.misuse (.unrecognized p.leftover))

end BucketStats.Command

import BucketStats.Settings.Defaults
/-!
# Options and their use

The options of the command line with their spellings, the help text, and the mistakes in using them,
each with its wording.
-/

namespace BucketStats.Command

inductive OptionName where
  | help
  | label
  | precision
  | config
  | quantile
  | json
  | xlsx
  | quiet
deriving DecidableEq

namespace OptionName

/-- All spellings of all options, in the order in which they are listed. -/
def spellings : List (String × OptionName) :=
  [("-h", .help), ("--help", .help), ("--label", .label), ("--precision", .precision),
    ("--config", .config), ("--quantile", .quantile), ("--json", .json), ("--xlsx", .xlsx),
    ("--quiet", .quiet)]

def ofSpelling? (s : List Char) : Option OptionName :=
  (spellings.find? fun e ↦ e.1.toList == s).map (·.2)

/-- Whether the option is followed by a value. -/
def takesValue : OptionName → Bool
  | .label => true
  | .precision => true
  | .config => true
  | .quantile => true
  | .xlsx => true
  | .help => false
  | .json => false
  | .quiet => false

/-- The option's name in messages: all its spellings. -/
def title (name : OptionName) : String :=
  "/".intercalate ((spellings.filter fun e ↦ e.2 == name).map (·.1))

end OptionName

/-- A mistake in using the command. -/
inductive Misuse where
  | ambiguous (argument : String) (matching : List String)
  | missingValue (name : OptionName)
  | needlessValue (name : OptionName) (shown : String)
  | invalidInteger (argument : String) (shown : String)
  | invalidFloat (argument : String) (shown : String)
  | unrecognized (arguments : List String)
  | configNotFound (path : String)
  | negativePrecision
  | quantileOutside (shown : String)
  | invalidInput (reason : String)
deriving DecidableEq

def Misuse.message : Misuse → String
  | .ambiguous argument matching =>
    let names := ", ".intercalate matching
    s!"ambiguous option: {argument} could match {names}"
  | .missingValue name => s!"argument {name.title}: expected one argument"
  | .needlessValue name shown => s!"argument {name.title}: ignored explicit argument {shown}"
  | .invalidInteger argument shown => s!"argument {argument}: invalid int value: {shown}"
  | .invalidFloat argument shown => s!"argument {argument}: invalid float value: {shown}"
  | .unrecognized arguments => "unrecognized arguments: " ++ " ".intercalate arguments
  | .configNotFound path => s!"config file not found: {path}"
  | .negativePrecision => "--precision must be >= 0"
  | .quantileOutside shown => s!"quantile must be within [0, 1]: {shown}"
  | .invalidInput reason => reason

/-- The usage lines, broken before the third and the fifth option and before the counts. -/
def usageText (program : String) : String :=
  let first := s!"usage: {program} "
  let margin := String.ofList (List.replicate first.length ' ')
  first ++ "[-h] [--label LABEL] [--precision PRECISION]\n" ++
    margin ++ "[--config CONFIG] [--quantile QUANTILE] [--json]\n" ++
    margin ++ "[--xlsx XLSX] [--quiet]\n" ++
    margin ++ "[counts ...]\n"

def misuseText (program : String) (m : Misuse) : String :=
  usageText program ++ s!"{program}: error: {m.message}\n"

def helpText (program : String) : String :=
  usageText program ++
    "\n" ++
    "histogram-mean: weighted mean of an index=value histogram (bucket i holds\n" ++
    "counts[i] observations of value i).\n" ++
    "\n" ++
    "positional arguments:\n" ++
    "  counts                Bucket counts, index 0 first\n" ++
    "\n" ++
    "options:\n" ++
    "  -h, --help            show this help message and exit\n" ++
    "  --label LABEL         Name of the distribution in reports (default:\n" ++
    s!"                        {Defaults.builtinLabel})\n" ++
    "  --precision PRECISION\n" ++
    s!"                        Decimals for the printed mean (default: {Defaults.builtinPrecision})\n" ++
    "  --config CONFIG       Optional key=value config with\n" ++
    "                        label/precision/quantiles defaults\n" ++
    "  --quantile QUANTILE   Also report the bucket at this quantile (0..1).\n" ++
    "                        Repeatable, e.g. --quantile 0.5 --quantile 0.9\n" ++
    "  --json                Print a JSON summary instead of text lines\n" ++
    "  --xlsx XLSX           Also write an .xlsx report to this path\n" ++
    "  --quiet               Suppress progress output\n"

end BucketStats.Command

import BucketStats.Settings.Number
/-!
# Report defaults

The label, the precision of the printed mean and the quantiles that a report uses where the command
line says nothing.  Whatever a settings file holds, the defaults are usable: the label is not empty
and the precision not negative.  They are also read step by step from a dictionary of any values, where
each step fails on values of the wrong kind.
-/

namespace BucketStats

/-- A value asked for its text without the blanks around it. -/
def Settings.stripped : Value → Except Fault Value
  | .text s => .ok (.text (String.ofList (Text.trim s.toList)))
  | v => .error (.noAttribute v.kind "strip")

structure Defaults where
  label : String
  precision : Nat
  quantiles : List Binary64

namespace Defaults

def builtinLabel : String :=
  "distribution"

def builtinPrecision : Nat :=
  4

def builtin : Defaults :=
  ⟨builtinLabel, builtinPrecision, []⟩

def labelOf (settings : Settings) : String :=
  match settings.find? "label" with
  | none => builtinLabel
  | some s =>
    let label := Text.unquote (Text.trim s.toList)
    if label.isEmpty then builtinLabel else String.ofList label

def precisionOf (settings : Settings) : Nat :=
  match settings.find? "precision" with
  | none => builtinPrecision
  | some s =>
    match Settings.integerOfText s.toList with
    | some n => if 0 ≤ n then n.toNat else builtinPrecision
    | none => builtinPrecision

def quantilesOf (settings : Settings) : List Binary64 :=
  match settings.find? "quantiles" with
  | none => []
  | some s => if s.isEmpty then [] else Settings.numbersOfText s.toList

def ofSettings (settings : Settings) : Defaults :=
  ⟨labelOf settings, precisionOf settings, quantilesOf settings⟩

/-- The defaults of a dictionary of settings, each step of which may fail. -/
def read (settings : Value) : Except Fault Value := do
  let given ← settings.getOr (.text "label") .null
  let text ← Settings.stripped (if given.isTrue then given else .text "")
  let label ← Settings.unquoted text
  let precision ← Settings.integerUnder (.text "precision") settings
  let quantiles ← Settings.numbersUnder (.text "quantiles") settings
  .ok (.dict [
    (.text "label", if label.isTrue then label else .text builtinLabel),
    (.text "precision", .int ((precision.filter (0 ≤ ·)).getD builtinPrecision)),
    (.text "quantiles", .list (quantiles.map .float))])

end Defaults

end BucketStats

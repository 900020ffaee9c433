import BucketStats.Proofs.Command.Operands
import BucketStats.Proofs.Command.Reading
/-!
# Options in full

An option is complete if it is spelled out and has a value that it takes, attached or after it, or
takes none.  Complete options are read one by one, and each sets what it chooses.
-/

namespace BucketStats.Command

/-! ## Choices -/

/-- What an option chooses. -/
inductive Choice where
  | label (s : String)
  | precision (n : Int)
  | config (s : String)
  | quantile (x : Binary64)
  | json
  | xlsx (s : String)
  | quiet
deriving DecidableEq

namespace Choice

def name : Choice → OptionName
  | label _ => .label
  | precision _ => .precision
  | config _ => .config
  | quantile _ => .quantile
  | json => .json
  | xlsx _ => .xlsx
  | quiet => .quiet

def set (r : Request) : Choice → Request
  | label s => { r with label := .value s }
  | precision n => { r with precision := .value n }
  | config s => { r with config := .value s }
  | quantile x => { r with quantiles := r.quantiles ++ [.value x] }
  | json => { r with json := true }
  | xlsx s => { r with xlsx := .value s }
  | quiet => { r with quiet := true }

/-- What the value of an option chooses, if it is one that the option takes. -/
def read? (name : OptionName) (value : String) : Option Choice :=
  if value = "--" then none
  else
    match name with
    | .label => some (.label value)
    | .precision => (Decimal.readInteger value.toList).map .precision
    | .config => some (.config value)
    | .quantile => (Decimal.readDecimal value.toList).map .quantile
    | .xlsx => some (.xlsx value)
    | .help => none
    | .json => none
    | .quiet => none

section Read

variable {name : OptionName} {value : String} {c : Choice}

theorem ne_separator_of_read? (h : read? name value = some c) : value ≠ "--" := by
  rintro rfl
  cases h

theorem takesValue_of_read? (h : read? name value = some c) : name.takesValue = true := by
  unfold read? at h
  rw [if_neg (ne_separator_of_read? h)] at h
  cases name <;> first | rfl | cases h

/-- A value that an option takes sets what it chooses. -/
theorem setValue_of_read? (h : read? name value = some c) (r : Request) :
    r.setValue name value = .ok (c.set r) := by
  have hvalue := ne_separator_of_read? h
  have hgiven : given value = .value value := if_neg hvalue
  unfold read? at h
  rw [if_neg hvalue] at h
  unfold Request.setValue
  cases name with
  | label => cases h; rw [hgiven]; rfl
  | config => cases h; rw [hgiven]; rfl
  | xlsx => cases h; rw [hgiven]; rfl
  | precision =>
    obtain ⟨n, hn, rfl⟩ := Option.map_eq_some_iff.1 h
    have hread : readPrecision value = .ok (.value n) := by
      unfold readPrecision
      rw [hgiven]
      simp only [hn]
    simp only [hread]
    rfl
  | quantile =>
    obtain ⟨x, hx, rfl⟩ := Option.map_eq_some_iff.1 h
    have hread : readQuantile value = .ok (.value x) := by
      unfold readQuantile
      rw [hgiven]
      simp only [hx]
    simp only [hread]
    rfl
  | help => cases h
  | json => cases h
  | quiet => cases h

end Read

end Choice

/-! ## Options in full -/

/-- The long spelling of an option. -/
def OptionName.spelling : OptionName → String
  | .help => "--help"
  | .label => "--label"
  | .precision => "--precision"
  | .config => "--config"
  | .quantile => "--quantile"
  | .json => "--json"
  | .xlsx => "--xlsx"
  | .quiet => "--quiet"

theorem spelling_mem_spellings (name : OptionName) :
    (name.spelling, name) ∈ OptionName.spellings := by
  cases name <;> decide

theorem classify_spelling (name : OptionName) :
    classify name.spelling = .ok (.option name name.spelling none) := by
  cases name <;> rfl

theorem spelling_ne_separator (name : OptionName) : name.spelling ≠ "--" := by
  cases name <;> decide

/-- An option as it is written in full: alone, with a value attached, or with a value after it. -/
inductive WrittenOption where
  | flag (name : OptionName)
  | attached (name : OptionName) (value : String)
  | separate (name : OptionName) (value : String)
deriving DecidableEq

namespace WrittenOption

def arguments : WrittenOption → List String
  | flag name => [name.spelling]
  | attached name value => [assigned name.spelling value]
  | separate name value => [name.spelling, value]

def tokens : WrittenOption → List Token
  | flag name => [.option name name.spelling none]
  | attached name value => [.option name name.spelling (some value)]
  | separate name value => [.option name name.spelling none, .operand value]

/-- What an option chooses, if it is complete.  A value after it may not begin with a hyphen. -/
def choice? : WrittenOption → Option Choice
  | flag .json => some .json
  | flag .quiet => some .quiet
  | flag _ => none
  | attached name value => Choice.read? name value
  | separate name value =>
    if value.toList.head? = some '-' then none else Choice.read? name value

section Complete

variable {o : WrittenOption} {c : Choice}

theorem tokens_arguments (h : o.choice? = some c) :
    "--" ∉ o.arguments ∧ Command.tokens o.arguments = .ok o.tokens := by
  cases o with
  | flag name =>
    refine ⟨by simpa [arguments] using (spelling_ne_separator name).symm, ?_⟩
    rw [arguments, Command.tokens, if_neg (spelling_ne_separator name), classify_spelling]
    rfl
  | attached name value =>
    have hne := assigned_ne_separator (spelling_mem_spellings name) value
    refine ⟨by simpa [arguments] using hne.symm, ?_⟩
    rw [arguments, Command.tokens, if_neg hne, classify_assigned (spelling_mem_spellings name)]
    rfl
  | separate name value =>
    rw [choice?] at h
    split_ifs at h with hhyphen
    have hvalue := Choice.ne_separator_of_read? h
    have hoperand : classify value = .ok (.operand value) := by
      cases hchars : value.toList with
      | nil =>
        unfold classify
        rw [hchars]
      | cons first rest =>
        apply classify_of_ne_hyphen hchars
        rintro rfl
        exact hhyphen (by rw [hchars]; rfl)
    refine ⟨by simp [arguments, (spelling_ne_separator name).symm, hvalue.symm], ?_⟩
    rw [arguments, Command.tokens, if_neg (spelling_ne_separator name), classify_spelling,
      Command.tokens, if_neg hvalue, hoperand]
    rfl

/-- A complete option is read by itself, whatever comes after it. -/
theorem readTokens_tokens (h : o.choice? = some c) (p : Intake) (rest : List Token) :
    readTokens p [] (o.tokens ++ rest) = readTokens (p.setRequest (c.set p.request)) [] rest := by
  cases o with
  | flag name =>
    have hflag : name.takesValue = false ∧ p.request.setFlag name = .ok (c.set p.request) := by
      cases name <;> first | cases h; exact ⟨rfl, rfl⟩ | cases h
    have hoption : p.readOption name name.spelling none rest =
        .ok (p.setRequest (c.set p.request), rest) := by
      unfold Intake.readOption
      simp only [hflag.1, hflag.2]
      rfl
    rw [tokens, List.singleton_append, readTokens_option, List.reverse_nil, endRun_nil, ok_bind,
      hoption, ok_bind]
  | attached name value =>
    exact readTokens_attached (Choice.takesValue_of_read? h) (Choice.setValue_of_read? h p.request)
  | separate name value =>
    rw [choice?] at h
    split_ifs at h
    exact readTokens_separate (Choice.takesValue_of_read? h) (Choice.setValue_of_read? h p.request)

end Complete

end WrittenOption

section Options

variable {options : List WrittenOption} {choices : List Choice}

theorem tokens_flatMap_arguments (h : options.map WrittenOption.choice? = choices.map some) :
    "--" ∉ options.flatMap WrittenOption.arguments ∧
      tokens (options.flatMap WrittenOption.arguments) =
        .ok (options.flatMap WrittenOption.tokens) := by
  induction options generalizing choices with
  | nil => exact ⟨List.not_mem_nil, rfl⟩
  | cons o rest ih =>
    obtain ⟨c, choices, rfl, ho, hrest⟩ := List.map_eq_cons_iff.1 h.symm
    obtain ⟨hseparator, htokens⟩ := WrittenOption.tokens_arguments ho.symm
    obtain ⟨hseparator', htokens'⟩ := ih hrest.symm
    rw [List.flatMap_cons, List.flatMap_cons, tokens_append hseparator, htokens, htokens']
    refine ⟨?_, rfl⟩
    rw [List.mem_append, not_or]
    exact ⟨hseparator, hseparator'⟩

theorem readTokens_flatMap_tokens (h : options.map WrittenOption.choice? = choices.map some)
    (p : Intake) (rest : List Token) :
    readTokens p [] (options.flatMap WrittenOption.tokens ++ rest) =
      readTokens (p.setRequest (choices.foldl Choice.set p.request)) [] rest := by
  induction options generalizing choices p with
  | nil =>
    obtain rfl : choices = [] := List.map_eq_nil_iff.1 h.symm
    rfl
  | cons o options ih =>
    obtain ⟨c, choices, rfl, ho, hrest⟩ := List.map_eq_cons_iff.1 h.symm
    rw [List.flatMap_cons, List.append_assoc, WrittenOption.readTokens_tokens ho.symm,
      ih hrest.symm]
    rfl

/-- What stands before complete options is read by itself. -/
theorem readTokens_append_options (p : Intake) (run : List String) (first : List Token)
    (options : List WrittenOption) :
    readTokens p run (first ++ options.flatMap WrittenOption.tokens) = (do
      let p ← readTokens p run first
      readTokens p [] (options.flatMap WrittenOption.tokens)) := by
  cases options with
  | nil =>
    rw [List.flatMap_nil, List.append_nil]
    cases readTokens p run first <;> rfl
  | cons o rest =>
    have hoption : ∃ name spelling attached more,
        o.tokens = .option name spelling attached :: more := by
      cases o <;> exact ⟨_, _, _, _, rfl⟩
    obtain ⟨name, spelling, attached, more, ho⟩ := hoption
    rw [List.flatMap_cons, ho, List.cons_append, readTokens_append_option]

/-- Complete options at the end set what they choose in whatever was asked for before. -/
theorem readArguments_append_options {before : List String} (hseparator : "--" ∉ before)
    (h : options.map WrittenOption.choice? = choices.map some) :
    readArguments (before ++ options.flatMap WrittenOption.arguments) =
      (readArguments before).map (choices.foldl Choice.set) := by
  obtain ⟨_, htokens⟩ := tokens_flatMap_arguments h
  unfold readArguments
  rw [tokens_append hseparator, htokens]
  cases tokens before with
  | error m => rfl
  | ok sorted =>
    simp only [Except.mapError, ok_bind]
    rw [readTokens_append_options]
    cases readTokens ⟨.empty, false, []⟩ [] sorted with
    | error ending => rfl
    | ok p =>
      have hread := readTokens_flatMap_tokens h p []
      rw [List.append_nil] at hread
      have hlast : readTokens (p.setRequest (choices.foldl Choice.set p.request)) [] [] =
          .ok (p.setRequest (choices.foldl Choice.set p.request)) := rfl
      have hleftover : (p.setRequest (choices.foldl Choice.set p.request)).leftover =
          p.leftover := rfl
      rw [ok_bind, ok_bind, hread, hlast, ok_bind, hleftover]
      split <;> rfl

end Options

end BucketStats.Command

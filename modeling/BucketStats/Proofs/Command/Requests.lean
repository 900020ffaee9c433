import BucketStats.Proofs.Command.Reading
/-!
# Requests and their settings

A request says what to count, how to report it and how to deliver the report.  Arguments that do not
name the report's settings are read in the same way whatever these settings are, so settings may be
given in any form among them.
-/

namespace BucketStats.Command

/-! ## Arguments that name no settings -/

/-- A request with the settings of another: what it counts and how it is delivered stay. -/
def Request.withSettings (r settings : Request) : Request :=
  { r with
    label := settings.label
    precision := settings.precision
    config := settings.config
    quantiles := settings.quantiles }

def Intake.withSettings (p : Intake) (settings : Request) : Intake :=
  p.setRequest (p.request.withSettings settings)

/-- Whether a sorted argument names none of the report's settings. -/
def Token.KeepsSettings : Token → Prop
  | .option name _ _ => name ∉ [OptionName.label, .precision, .config, .quantile]
  | _ => True

instance : DecidablePred Token.KeepsSettings
  | .option name _ _ =>
    inferInstanceAs (Decidable (name ∉ [OptionName.label, .precision, .config, .quantile]))
  | .separator => isTrue trivial
  | .operand _ => isTrue trivial
  | .unknown _ => isTrue trivial

/-- Whether an argument names none of the report's settings, as counts and the options for the output
do. -/
def KeepsSettings (s : String) : Prop :=
  ∀ token ∈ (classify s).toOption, token.KeepsSettings

instance (s : String) : Decidable (KeepsSettings s) :=
  inferInstanceAs (Decidable (∀ token ∈ (classify s).toOption, token.KeepsSettings))

section KeepsSettings

variable {p : Intake} {r settings : Request} {run : List String} {name : OptionName}
  {spelling : String} {attached : Option String} {rest : List Token}

theorem setValue_withSettings (hname : name ∉ [OptionName.label, .precision, .config, .quantile])
    (s : String) :
    (r.withSettings settings).setValue name s =
      (r.setValue name s).map (·.withSettings settings) := by
  cases name with
  | label => simp at hname
  | precision => simp at hname
  | config => simp at hname
  | quantile => simp at hname
  | xlsx => rfl
  | help => rfl
  | json => rfl
  | quiet => rfl

theorem setFlag_withSettings :
    (r.withSettings settings).setFlag name = (r.setFlag name).map (·.withSettings settings) := by
  cases name <;> rfl

theorem endRun_withSettings :
    (p.withSettings settings).endRun run = (p.endRun run).map (·.withSettings settings) := by
  have hcounted : (p.withSettings settings).counted = p.counted := rfl
  unfold Intake.endRun
  rw [hcounted]
  split
  · rfl
  · split
    · rfl
    · cases (run.erase "--").mapM readCount <;> rfl

theorem readOption_withSettings
    (hname : name ∉ [OptionName.label, .precision, .config, .quantile]) :
    (p.withSettings settings).readOption name spelling attached rest =
      (p.readOption name spelling attached rest).map fun next ↦
        (next.1.withSettings settings, next.2) := by
  have hrequest : (p.withSettings settings).request = p.request.withSettings settings := rfl
  unfold Intake.readOption
  rw [hrequest]
  cases name.takesValue <;> cases attached
  · rw [setFlag_withSettings]
    cases p.request.setFlag name <;> rfl
  · rfl
  · cases rest with
    | nil => rfl
    | cons token rest =>
      cases token with
      | operand s =>
        dsimp only
        rw [setValue_withSettings hname]
        cases p.request.setValue name s <;> rfl
      | separator => rfl
      | option => rfl
      | unknown => rfl
  · dsimp only
    rw [setValue_withSettings hname]
    cases p.request.setValue name _ <;> rfl

/-- Arguments that name no settings are read in the same way whatever the settings are. -/
theorem readTokens_withSettings {sorted : List Token}
    (hsorted : ∀ token ∈ sorted, token.KeepsSettings) (settings : Request) (p : Intake)
    (run : List String) :
    readTokens (p.withSettings settings) run sorted =
      (readTokens p run sorted).map (·.withSettings settings) := by
  induction sorted using tokens_induction generalizing p run with
  | nil => exact endRun_withSettings
  | cons token rest ih ihTail =>
    obtain ⟨htoken, hrest⟩ := List.forall_mem_cons.1 hsorted
    cases token with
    | separator => exact ih hrest p ("--" :: run)
    | operand s => exact ih hrest p (s :: run)
    | unknown s =>
      rw [readTokens, readTokens, endRun_withSettings]
      cases p.endRun run.reverse with
      | error ending => rfl
      | ok q => exact ih hrest { q with leftover := q.leftover ++ [s] } []
    | option name spelling attached =>
      rw [readTokens_option, readTokens_option, endRun_withSettings]
      cases p.endRun run.reverse with
      | error ending => rfl
      | ok q =>
        simp only [Except.map, ok_bind]
        rw [readOption_withSettings htoken]
        cases hread : q.readOption name spelling attached rest with
        | error ending => rfl
        | ok next =>
          rcases rest_of_readOption hread with heq | heq
          · rw [Except.map, ok_bind, ok_bind, heq]
            exact ih hrest next.1 []
          · rw [Except.map, ok_bind, ok_bind, heq]
            exact ihTail (fun token htoken ↦ hrest token (List.mem_of_mem_tail htoken)) next.1 []

theorem keepsSettings_of_tokens {arguments : List String} {sorted : List Token}
    (hkeeps : ∀ s ∈ arguments, KeepsSettings s) (hsorted : tokens arguments = .ok sorted) :
    ∀ token ∈ sorted, token.KeepsSettings := by
  induction arguments generalizing sorted with
  | nil =>
    cases hsorted
    exact fun token htoken ↦ absurd htoken List.not_mem_nil
  | cons s rest ih =>
    obtain ⟨hs, hrest⟩ := List.forall_mem_cons.1 hkeeps
    rw [tokens] at hsorted
    split at hsorted
    · cases hsorted
      intro token htoken
      rcases List.mem_cons.1 htoken with rfl | htoken
      · exact trivial
      · obtain ⟨text, _, rfl⟩ := List.mem_map.1 htoken
        exact trivial
    · obtain ⟨token, htoken, hsorted⟩ := bind_eq_ok_iff.1 hsorted
      obtain ⟨more, hmore, hsorted⟩ := bind_eq_ok_iff.1 hsorted
      cases hsorted
      rw [KeepsSettings, htoken] at hs
      exact List.forall_mem_cons.2 ⟨hs token rfl, ih hrest hmore⟩

end KeepsSettings

/-! ## Arguments around settings -/

/-- Whether arguments give settings, wherever they stand after arguments that give none. -/
structure Gives (arguments : List String) (settings : Request) : Prop where
  no_separator : "--" ∉ arguments
  exists_read : ∃ name spelling attached more,
    tokens arguments = .ok (.option name spelling attached :: more) ∧
    ∀ (p : Intake) (rest : List Token), p.withSettings .empty = p →
      readTokens p [] (.option name spelling attached :: more ++ rest) =
        readTokens (p.withSettings settings) [] rest

/-- An option with its value after it gives what the value sets. -/
theorem gives_separate {name : OptionName} {spelling value : String} {settings : Request}
    (hspelling : classify spelling = .ok (.option name spelling none))
    (hname : name.takesValue = true) (hvalue : classify value = .ok (.operand value))
    (hset : ∀ r : Request, (r.withSettings .empty).setValue name value =
      .ok (r.withSettings settings)) : Gives [spelling, value] settings := by
  have hspelling' : spelling ≠ "--" := by
    rintro rfl
    exact classify_separator _ hspelling
  have hvalue' : value ≠ "--" := by
    rintro rfl
    exact classify_separator _ hvalue
  refine ⟨?_, name, spelling, none, [.operand value], ?_, ?_⟩
  · simp [hspelling'.symm, hvalue'.symm]
  · rw [tokens, if_neg hspelling', hspelling, ok_bind, tokens, if_neg hvalue', hvalue]
    rfl
  · intro p rest hp
    have hset' : p.request.setValue name value = .ok (p.request.withSettings settings) := by
      have hrequest : p.request.withSettings .empty = p.request := congrArg Intake.request hp
      rw [← hset p.request, hrequest]
    exact readTokens_separate hname hset'

/-- What is read from the arguments around settings. -/
def readAround (before after : List String) : Except Ending Request := do
  let sorted ← (tokens before).mapError .misuse
  let later ← (tokens after).mapError .misuse
  let p ← readTokens ⟨.empty, false, []⟩ [] sorted
  let p ← readTokens p [] later
  if p.leftover.isEmpty then .ok p.request else .error (.misuse (.unrecognized p.leftover))

theorem readAround_nil (before : List String) : readAround before [] = readArguments before := by
  have hnothing : tokens [] = .ok [] := rfl
  unfold readAround readArguments
  rw [hnothing]
  simp only [Except.mapError, ok_bind, readTokens, List.reverse_nil, endRun_nil]

/-- However settings are given, the arguments around them are read in the same way. -/
theorem readArguments_of_gives {before arguments after : List String} {settings : Request}
    (hgives : Gives arguments settings) (hbefore : "--" ∉ before)
    (hkeeps : ∀ s ∈ before ++ after, KeepsSettings s) :
    readArguments (before ++ arguments ++ after) =
      (readAround before after).map (·.withSettings settings) := by
  obtain ⟨hseparator, name, spelling, attached, more, htokens, hread⟩ := hgives
  have hfirst : "--" ∉ before ++ arguments := by
    rw [List.mem_append, not_or]
    exact ⟨hbefore, hseparator⟩
  unfold readArguments readAround
  rw [tokens_append hfirst, tokens_append hbefore, htokens]
  cases hsorted : tokens before with
  | error m => rfl
  | ok sorted =>
    cases hlater : tokens after with
    | error m => rfl
    | ok later =>
      have hsorted' := keepsSettings_of_tokens
        (fun s hs ↦ hkeeps s (List.mem_append_left after hs)) hsorted
      have hlater' := keepsSettings_of_tokens
        (fun s hs ↦ hkeeps s (List.mem_append_right before hs)) hlater
      simp only [Except.mapError, ok_bind]
      rw [List.append_assoc, List.cons_append, readTokens_append_option, bind_assoc]
      cases hstart : readTokens ⟨.empty, false, []⟩ [] sorted with
      | error ending => rfl
      | ok p =>
        have hempty : p.withSettings .empty = p := by
          have hstart' : readTokens ⟨.empty, false, []⟩ [] sorted =
              (readTokens ⟨.empty, false, []⟩ [] sorted).map (·.withSettings .empty) :=
            readTokens_withSettings hsorted' .empty ⟨.empty, false, []⟩ []
          rw [hstart] at hstart'
          exact (Except.ok.inj hstart').symm
        have hmore := hread p later hempty
        rw [List.cons_append] at hmore
        rw [ok_bind, ok_bind, hmore, readTokens_withSettings hlater' settings p []]
        cases readTokens p [] later with
        | error ending => rfl
        | ok q =>
          have hleftover : (q.withSettings settings).leftover = q.leftover := rfl
          simp only [Except.map, ok_bind, hleftover]
          split <;> rfl

end BucketStats.Command

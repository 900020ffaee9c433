import BucketStats.Proofs.Command.Options
/-!
# Related requests

Arguments change a request in few ways, and how they change it does not depend on what was asked for
before.  So two requests in a relation that every such change keeps are still in it once the same
arguments have been read, and these are refused for both or for neither.
-/

namespace BucketStats.Command

/-! ## Changes -/

/-- The ways in which arguments change a request. -/
inductive IsChange : (Request → Request) → Prop
  | nothing : IsChange id
  | counts (counts : List Int) : IsChange fun r ↦ { r with counts := counts }
  | label (s : Given String) : IsChange fun r ↦ { r with label := s }
  | precision (n : Given Int) : IsChange fun r ↦ { r with precision := n }
  | config (s : Given String) : IsChange fun r ↦ { r with config := s }
  | quantile (x : Given Binary64) : IsChange fun r ↦ { r with quantiles := r.quantiles ++ [x] }
  | json : IsChange fun r ↦ { r with json := true }
  | xlsx (s : Given String) : IsChange fun r ↦ { r with xlsx := s }
  | quiet : IsChange fun r ↦ { r with quiet := true }

/-- Whether every change keeps a relation between requests. -/
def IsKept (related : Request → Request → Prop) : Prop :=
  ∀ change, IsChange change → ∀ r r', related r r' → related (change r) (change r')

/-- Whether an option is refused for every request, or changes every request in the same way. -/
def ChangesAlike (set : Request → Except Ending Request) : Prop :=
  (∃ ending, ∀ r, set r = .error ending) ∨ ∃ change, IsChange change ∧ ∀ r, set r = .ok (change r)

theorem changesAlike_setValue (name : OptionName) (s : String) :
    ChangesAlike fun r ↦ r.setValue name s := by
  cases name with
  | label => exact .inr ⟨_, .label (given s), fun _ ↦ rfl⟩
  | config => exact .inr ⟨_, .config (given s), fun _ ↦ rfl⟩
  | xlsx => exact .inr ⟨_, .xlsx (given s), fun _ ↦ rfl⟩
  | precision =>
    simp only [ChangesAlike, Request.setValue]
    cases readPrecision s with
    | error ending => exact .inl ⟨ending, fun _ ↦ rfl⟩
    | ok n => exact .inr ⟨_, .precision n, fun _ ↦ rfl⟩
  | quantile =>
    simp only [ChangesAlike, Request.setValue]
    cases readQuantile s with
    | error ending => exact .inl ⟨ending, fun _ ↦ rfl⟩
    | ok x => exact .inr ⟨_, .quantile x, fun _ ↦ rfl⟩
  | help => exact .inr ⟨_, .nothing, fun _ ↦ rfl⟩
  | json => exact .inr ⟨_, .nothing, fun _ ↦ rfl⟩
  | quiet => exact .inr ⟨_, .nothing, fun _ ↦ rfl⟩

theorem changesAlike_setFlag (name : OptionName) : ChangesAlike fun r ↦ r.setFlag name := by
  cases name with
  | help => exact .inl ⟨.help, fun _ ↦ rfl⟩
  | json => exact .inr ⟨_, .json, fun _ ↦ rfl⟩
  | quiet => exact .inr ⟨_, .quiet, fun _ ↦ rfl⟩
  | label => exact .inr ⟨_, .nothing, fun _ ↦ rfl⟩
  | precision => exact .inr ⟨_, .nothing, fun _ ↦ rfl⟩
  | config => exact .inr ⟨_, .nothing, fun _ ↦ rfl⟩
  | quantile => exact .inr ⟨_, .nothing, fun _ ↦ rfl⟩
  | xlsx => exact .inr ⟨_, .nothing, fun _ ↦ rfl⟩

section Kept

variable {related : Request → Request → Prop} (hkept : IsKept related)

include hkept

theorem ChangesAlike.agree {set : Request → Except Ending Request} (hset : ChangesAlike set)
    {r r' : Request} (hr : related r r') : Agree related (set r) (set r') := by
  rcases hset with ⟨ending, hset⟩ | ⟨change, hchange, hset⟩
  · rw [hset, hset]
    exact rfl
  · rw [hset, hset]
    exact hkept change hchange r r' hr

/-! ## Reading -/

/-- Whether as much has been read of the arguments, and the requests are related. -/
structure Intake.Related (related : Request → Request → Prop) (p p' : Intake) : Prop where
  request : related p.request p'.request
  counted : p.counted = p'.counted
  leftover : p.leftover = p'.leftover

variable {p p' : Intake} (hp : p.Related related p')

include hp

theorem endRun_agree (run : List String) :
    Agree (Intake.Related related) (p.endRun run) (p'.endRun run) := by
  unfold Intake.endRun
  rw [hp.counted]
  split
  · exact hp
  · split
    · exact ⟨hp.request, rfl, congrArg (· ++ run) hp.leftover⟩
    · apply (agree_refl (fun _ ↦ rfl) ((run.erase "--").mapM readCount)).bind
      rintro counts _ rfl
      exact ⟨hkept _ (.counts counts) _ _ hp.request, rfl, hp.leftover⟩

/-- An option leaves related intakes related, and leaves the same of the arguments after it. -/
theorem readOption_agree (name : OptionName) (spelling : String) (attached : Option String)
    (rest : List Token) :
    Agree (fun next next' ↦ next.1.Related related next'.1 ∧ next.2 = next'.2 ∧
        (next.2 = rest ∨ next.2 = rest.tail))
      (p.readOption name spelling attached rest) (p'.readOption name spelling attached rest) := by
  have hset {r r' : Request} (hr : related r r') :
      (p.setRequest r).Related related (p'.setRequest r') :=
    ⟨hr, hp.counted, hp.leftover⟩
  unfold Intake.readOption
  split
  · apply ((changesAlike_setValue name _).agree hkept hp.request).bind
    exact fun r r' hr ↦ ⟨hset hr, rfl, .inl rfl⟩
  · split
    · apply ((changesAlike_setValue name _).agree hkept hp.request).bind
      exact fun r r' hr ↦ ⟨hset hr, rfl, .inr rfl⟩
    · exact rfl
  · exact rfl
  · apply ((changesAlike_setFlag name).agree hkept hp.request).bind
    exact fun r r' hr ↦ ⟨hset hr, rfl, .inl rfl⟩

/-- Once the same arguments have been read, related requests are related. -/
theorem readTokens_agree (run : List String) (sorted : List Token) :
    Agree (Intake.Related related) (readTokens p run sorted) (readTokens p' run sorted) := by
  induction sorted using tokens_induction generalizing p p' run with
  | nil => exact endRun_agree hkept hp run.reverse
  | cons token rest ih ihTail =>
    cases token with
    | separator => exact ih hp ("--" :: run)
    | operand s => exact ih hp (s :: run)
    | unknown s =>
      rw [readTokens, readTokens]
      apply (endRun_agree hkept hp run.reverse).bind
      intro q q' hq
      have hlater : Intake.Related related { q with leftover := q.leftover ++ [s] }
          { q' with leftover := q'.leftover ++ [s] } :=
        ⟨hq.request, hq.counted, congrArg (· ++ [s]) hq.leftover⟩
      exact ih hlater []
    | option name spelling attached =>
      rw [readTokens_option, readTokens_option]
      apply (endRun_agree hkept hp run.reverse).bind
      intro q q' hq
      apply (readOption_agree hkept hq name spelling attached rest).bind
      rintro ⟨next, more⟩ ⟨next', _⟩ ⟨hnext, rfl, rfl | rfl⟩
      · exact ih hnext []
      · exact ihTail hnext []

end Kept

/-! ## One option among arguments -/

/-- Whether arguments are an option with a value that it takes, attached or after it.  The option may
be cut short. -/
inductive Chooses : List String → Choice → Prop
  | attached {s spelling value : String} {name : OptionName} {c : Choice}
      (hoption : classify s = .ok (.option name spelling (some value)))
      (hvalue : Choice.read? name value = some c) : Chooses [s] c
  | separate {s spelling value : String} {name : OptionName} {c : Choice}
      (hoption : classify s = .ok (.option name spelling none))
      (hoperand : classify value = .ok (.operand value))
      (hvalue : Choice.read? name value = some c) : Chooses [s, value] c

section Chooses

variable {arguments before after : List String} {c : Choice}

/-- An option that is spelled out, with a value attached. -/
theorem chooses_assigned {name : OptionName} {value : String}
    (hvalue : Choice.read? name value = some c) : Chooses [assigned name.spelling value] c :=
  .attached (classify_assigned (spelling_mem_spellings name) value) hvalue

/-- Whatever comes after an option with its value, the option is read first. -/
theorem Chooses.exists_tokens (h : Chooses arguments c) :
    "--" ∉ arguments ∧ ∃ name spelling attached more,
      tokens arguments = .ok (.option name spelling attached :: more) ∧
        ∀ (p : Intake) (rest : List Token),
          readTokens p [] (.option name spelling attached :: more ++ rest) =
            readTokens (p.setRequest (c.set p.request)) [] rest := by
  have hne {s : String} {token : Token} (hs : classify s = .ok token) : s ≠ "--" := by
    rintro rfl
    exact classify_separator _ hs
  cases h with
  | @attached s spelling value name c hoption hvalue =>
    refine ⟨by simpa using (hne hoption).symm, name, spelling, some value, [], ?_, ?_⟩
    · rw [tokens, if_neg (hne hoption), hoption]
      rfl
    · intro p rest
      exact readTokens_attached (Choice.takesValue_of_read? hvalue)
        (Choice.setValue_of_read? hvalue p.request)
  | @separate s spelling value name c hoption hoperand hvalue =>
    refine ⟨?_, name, spelling, none, [.operand value], ?_, ?_⟩
    · simp [(hne hoption).symm, (hne hoperand).symm]
    · rw [tokens, if_neg (hne hoption), hoption, ok_bind, tokens, if_neg (hne hoperand), hoperand]
      rfl
    · intro p rest
      exact readTokens_separate (Choice.takesValue_of_read? hvalue)
        (Choice.setValue_of_read? hvalue p.request)

/-- Ends the reading of arguments. -/
def Intake.close (p : Intake) : Except Ending Request :=
  if p.leftover.isEmpty then .ok p.request else .error (.misuse (.unrecognized p.leftover))

theorem readArguments_eq (arguments : List String) :
    readArguments arguments = (do
      let sorted ← (tokens arguments).mapError .misuse
      let p ← readTokens ⟨.empty, false, []⟩ [] sorted
      p.close) := rfl

theorem close_eq_ok_iff {p : Intake} {r : Request} :
    p.close = .ok r ↔ p.leftover = [] ∧ p.request = r := by
  unfold Intake.close
  split
  · rename_i hempty
    rw [Except.ok.injEq, and_iff_right (List.isEmpty_iff.1 hempty)]
  · rename_i hleft
    constructor
    · intro h
      cases h
    · rintro ⟨hclean, _⟩
      exact absurd (List.isEmpty_iff.2 hclean) hleft

theorem close_agree {related : Request → Request → Prop} {p p' : Intake}
    (hp : p.Related related p') : Agree related p.close p'.close := by
  unfold Intake.close
  rw [hp.leftover]
  split
  · exact hp.request
  · exact rfl

/-- What stands before an option is read first, then the option, then what stands after it. -/
theorem readArguments_of_chooses (h : Chooses arguments c) (hbefore : "--" ∉ before) :
    readArguments (before ++ arguments ++ after) = (do
      let sorted ← (tokens before).mapError .misuse
      let later ← (tokens after).mapError .misuse
      let p ← readTokens ⟨.empty, false, []⟩ [] sorted
      let q ← readTokens (p.setRequest (c.set p.request)) [] later
      q.close) := by
  obtain ⟨hseparator, name, spelling, attached, more, htokens, hread⟩ := h.exists_tokens
  have hfirst : "--" ∉ before ++ arguments := by
    rw [List.mem_append, not_or]
    exact ⟨hbefore, hseparator⟩
  rw [readArguments_eq, tokens_append hfirst, tokens_append hbefore, htokens]
  cases tokens before with
  | error m => rfl
  | ok sorted =>
    cases tokens after with
    | error m => rfl
    | ok later =>
      simp only [Except.mapError, ok_bind]
      rw [List.append_assoc, List.cons_append, readTokens_append_option, bind_assoc]
      cases readTokens ⟨.empty, false, []⟩ [] sorted with
      | error ending => rfl
      | ok p =>
        rw [ok_bind, ok_bind, ← List.cons_append, hread]

/-- Where one option takes the place of another that sets something related, the requests are
related. -/
theorem readArguments_agree {arguments' : List String} {c' : Choice}
    {related : Request → Request → Prop} (hkept : IsKept related)
    (h : Chooses arguments c) (h' : Chooses arguments' c')
    (hset : ∀ r, related (c.set r) (c'.set r)) (hbefore : "--" ∉ before) :
    Agree related (readArguments (before ++ arguments ++ after))
      (readArguments (before ++ arguments' ++ after)) := by
  rw [readArguments_of_chooses h hbefore, readArguments_of_chooses h' hbefore]
  apply (agree_refl (fun _ ↦ rfl) ((tokens before).mapError Ending.misuse)).bind
  rintro sorted _ rfl
  apply (agree_refl (fun _ ↦ rfl) ((tokens after).mapError Ending.misuse)).bind
  rintro later _ rfl
  apply (agree_refl (fun _ ↦ rfl) (readTokens ⟨.empty, false, []⟩ [] sorted)).bind
  rintro p _ rfl
  have hp : (p.setRequest (c.set p.request)).Related related (p.setRequest (c'.set p.request)) :=
    ⟨hset p.request, rfl, rfl⟩
  apply (readTokens_agree hkept hp [] later).bind
  exact fun q q' hq ↦ close_agree hq

end Chooses

end BucketStats.Command

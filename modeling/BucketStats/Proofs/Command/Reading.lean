import BucketStats.Command.Arguments
import BucketStats.Proofs.Decimal.Numeral
import BucketStats.Proofs.Text.Lines
import BucketStats.Proofs.Transcript
/-!
# Arguments read one after the other

An option uses up its own argument and perhaps the next one, and leaves the rest as it is.  So what
stands before an option is read by itself.  Counts come from operands only, and no count has more
digits than can be written.
-/

namespace BucketStats.Command

/-! ## Sorting -/

theorem tokens_append {first : List String} (hfirst : "--" ∉ first) (second : List String) :
    tokens (first ++ second) = (do
      let sorted ← tokens first
      let more ← tokens second
      .ok (sorted ++ more)) := by
  induction first with
  | nil =>
    rw [List.nil_append]
    cases tokens second with
    | error m => rfl
    | ok more => rfl
  | cons s rest ih =>
    obtain ⟨hs, hrest⟩ := List.ne_and_not_mem_of_not_mem_cons hfirst
    rw [List.cons_append, tokens, if_neg (Ne.symm hs), ih hrest, tokens, if_neg (Ne.symm hs)]
    cases classify s with
    | error m => rfl
    | ok token =>
      cases tokens rest with
      | error m => rfl
      | ok sorted =>
        cases tokens second with
        | error m => rfl
        | ok more => rfl

/-- An option with its value attached. -/
def assigned (spelling value : String) : String :=
  spelling ++ "=" ++ value

/-- A spelling with an equals sign after it has a value attached, whatever the value is. -/
theorem classify_assigned {spelling : String} {name : OptionName}
    (hspelling : (spelling, name) ∈ OptionName.spellings) (value : String) :
    classify (assigned spelling value) = .ok (.option name spelling (some value)) := by
  have hplain : ∀ e ∈ OptionName.spellings, '=' ∉ e.1.toList := by decide
  have hfound : ∀ e ∈ OptionName.spellings, OptionName.ofSpelling? e.1.toList = some e.2 := by
    decide
  have hhyphens : ∀ e ∈ OptionName.spellings,
      e.1.toList = '-' :: e.1.toList.tail ∧ e.1.toList.tail ≠ [] := by
    decide
  have htext : (assigned spelling value).toList = spelling.toList ++ '=' :: value.toList := by
    simp [assigned]
  have hnone : OptionName.ofSpelling? (spelling.toList ++ '=' :: value.toList) = none := by
    unfold OptionName.ofSpelling?
    rw [Option.map_eq_none_iff, List.find?_eq_none]
    intro e he hsame
    apply hplain e he
    rw [eq_of_beq hsame]
    exact List.mem_append_right _ List.mem_cons_self
  obtain ⟨hhyphen, hlong⟩ := hhyphens _ hspelling
  obtain ⟨c, rest, hrest⟩ := List.exists_cons_of_ne_nil hlong
  rw [hrest] at hhyphen
  unfold classify
  rw [htext, hnone, Text.splitAtFirst_append (hplain _ hspelling)]
  simp only [hfound _ hspelling, String.ofList_toList]
  rw [hhyphen]
  rfl

theorem classify_separator (token : Token) : classify "--" ≠ .ok token := by
  have herror : (classify "--").toOption = none := by decide
  intro htoken
  rw [htoken] at herror
  cases herror

theorem assigned_ne_separator {spelling : String} {name : OptionName}
    (hspelling : (spelling, name) ∈ OptionName.spellings) (value : String) :
    assigned spelling value ≠ "--" := by
  intro hseparator
  have hclassify := classify_assigned hspelling value
  rw [hseparator] at hclassify
  exact classify_separator _ hclassify

/-! ## Reading -/

theorem endRun_nil (p : Intake) : p.endRun [] = .ok p := rfl

/-- What an option makes of an intake, and what it leaves of the arguments after it. -/
def Intake.readOption (p : Intake) (name : OptionName) (spelling : String)
    (attached : Option String) (rest : List Token) : Except Ending (Intake × List Token) :=
  match name.takesValue, attached with
  | true, some s => do
    let r ← p.request.setValue name s
    .ok (p.setRequest r, rest)
  | true, none =>
    match rest with
    | .operand s :: more => do
      let r ← p.request.setValue name s
      .ok (p.setRequest r, more)
    | _ => .error (.misuse (.missingValue name))
  | false, some s => .error (attachedToFlag name spelling s)
  | false, none => do
    let r ← p.request.setFlag name
    .ok (p.setRequest r, rest)

section Reading

variable {p q : Intake} {run : List String} {name : OptionName} {spelling : String}
  {attached : Option String} {rest more : List Token}

theorem readTokens_option (p : Intake) (run : List String) (name : OptionName) (spelling : String)
    (attached : Option String) (rest : List Token) :
    readTokens p run (.option name spelling attached :: rest) = (do
      let p ← p.endRun run.reverse
      let next ← p.readOption name spelling attached rest
      readTokens next.1 [] next.2) := by
  rw [readTokens]
  cases p.endRun run.reverse with
  | error ending => rfl
  | ok p =>
    rw [ok_bind, ok_bind]
    unfold Intake.readOption
    cases name.takesValue <;> cases attached
    · cases p.request.setFlag name <;> rfl
    · rfl
    · cases rest with
      | nil => rfl
      | cons token rest =>
        cases token with
        | operand s =>
          dsimp only
          cases p.request.setValue name s <;> rfl
        | separator => rfl
        | option => rfl
        | unknown => rfl
    · dsimp only
      cases p.request.setValue name _ <;> rfl

theorem readTokens_attached {value : String} {r : Request} (hname : name.takesValue = true)
    (hset : p.request.setValue name value = .ok r) :
    readTokens p [] (.option name spelling (some value) :: rest) =
      readTokens (p.setRequest r) [] rest := by
  have hoption : p.readOption name spelling (some value) rest = .ok (p.setRequest r, rest) := by
    unfold Intake.readOption
    rw [hname]
    simp only [hset]
    rfl
  rw [readTokens_option, List.reverse_nil, endRun_nil, ok_bind, hoption, ok_bind]

theorem readTokens_separate {value : String} {r : Request} (hname : name.takesValue = true)
    (hset : p.request.setValue name value = .ok r) :
    readTokens p [] (.option name spelling none :: .operand value :: rest) =
      readTokens (p.setRequest r) [] rest := by
  have hoption : p.readOption name spelling none (.operand value :: rest) =
      .ok (p.setRequest r, rest) := by
    unfold Intake.readOption
    rw [hname]
    simp only [hset]
    rfl
  rw [readTokens_option, List.reverse_nil, endRun_nil, ok_bind, hoption, ok_bind]

/-- What the end of a run can make of an intake: nothing has been read, or the run is not recognized,
or it is the counts. -/
theorem endRun_cases (h : p.endRun run = .ok q) :
    run = [] ∧ q = p ∨
      run ≠ [] ∧ p.counted = true ∧ q = { p with leftover := p.leftover ++ run } ∨
      run ≠ [] ∧ p.counted = false ∧ ∃ counts, (run.erase "--").mapM readCount = .ok counts ∧
        q = { p with request := { p.request with counts := counts }, counted := true } := by
  unfold Intake.endRun at h
  split at h
  · rename_i hempty
    cases h
    exact .inl ⟨List.isEmpty_iff.1 hempty, rfl⟩
  · rename_i hempty
    have hrun : run ≠ [] := fun hnil ↦ hempty (List.isEmpty_iff.2 hnil)
    split at h
    · cases h
      exact .inr (.inl ⟨hrun, ‹_›, rfl⟩)
    · rename_i hcounted
      obtain ⟨counts, hcounts, h⟩ := bind_eq_ok_iff.1 h
      cases h
      exact .inr (.inr ⟨hrun, Bool.eq_false_iff.2 hcounted, counts, hcounts, rfl⟩)

/-- What an option can do: it sets the value attached to it or after it, or is a flag. -/
theorem readOption_cases (h : p.readOption name spelling attached rest = .ok (q, more)) :
    ∃ r, q = p.setRequest r ∧
      ((∃ s, name.takesValue = true ∧ p.request.setValue name s = .ok r ∧
          (attached = some s ∧ more = rest ∨ attached = none ∧ rest = .operand s :: more)) ∨
        name.takesValue = false ∧ attached = none ∧ p.request.setFlag name = .ok r ∧ more = rest) := by
  unfold Intake.readOption at h
  split at h
  · rename_i s hname
    obtain ⟨r, hset, h⟩ := bind_eq_ok_iff.1 h
    cases h
    exact ⟨r, rfl, .inl ⟨s, hname, hset, .inl ⟨rfl, rfl⟩⟩⟩
  · rename_i hname
    split at h
    · rename_i s later
      obtain ⟨r, hset, h⟩ := bind_eq_ok_iff.1 h
      cases h
      exact ⟨r, rfl, .inl ⟨s, hname, hset, .inr ⟨rfl, rfl⟩⟩⟩
    · cases h
  · cases h
  · rename_i hname
    obtain ⟨r, hset, h⟩ := bind_eq_ok_iff.1 h
    cases h
    exact ⟨r, rfl, .inr ⟨hname, rfl, hset, rfl⟩⟩

/-- An option leaves the arguments after it, or all but the first of them. -/
theorem rest_of_readOption (h : p.readOption name spelling attached rest = .ok (q, more)) :
    more = rest ∨ more = rest.tail := by
  obtain ⟨r, _, ⟨s, _, _, ⟨_, hmore⟩ | ⟨_, rfl⟩⟩ | ⟨_, _, _, hmore⟩⟩ := readOption_cases h
  · exact .inl hmore
  · exact .inr rfl
  · exact .inl hmore

/-- What holds of no arguments, and of arguments if it holds of those that an option may leave, holds
of all. -/
theorem tokens_induction {motive : List Token → Prop} (nil : motive [])
    (cons : ∀ token rest, motive rest → motive rest.tail → motive (token :: rest))
    (sorted : List Token) : motive sorted := by
  have hboth : motive sorted ∧ motive sorted.tail := by
    induction sorted with
    | nil => exact ⟨nil, nil⟩
    | cons token rest ih => exact ⟨cons token rest ih.1 ih.2, ih.1⟩
  exact hboth.1

theorem readOption_append (p : Intake) (name : OptionName) (spelling : String)
    (attached : Option String) (rest : List Token) (name' : OptionName) (spelling' : String)
    (attached' : Option String) (more : List Token) :
    p.readOption name spelling attached (rest ++ .option name' spelling' attached' :: more) = (do
      let next ← p.readOption name spelling attached rest
      .ok (next.1, next.2 ++ .option name' spelling' attached' :: more)) := by
  unfold Intake.readOption
  cases name.takesValue <;> cases attached
  · cases p.request.setFlag name <;> rfl
  · rfl
  · cases rest with
    | nil => rfl
    | cons token rest =>
      cases token with
      | operand s =>
        rw [List.cons_append]
        dsimp only
        cases p.request.setValue name s <;> rfl
      | separator => rfl
      | option => rfl
      | unknown => rfl
  · dsimp only
    cases p.request.setValue name _ <;> rfl

/-- What stands before an option is read by itself. -/
theorem readTokens_append_option (p : Intake) (run : List String) (first : List Token)
    (name : OptionName) (spelling : String) (attached : Option String) (more : List Token) :
    readTokens p run (first ++ .option name spelling attached :: more) = (do
      let p ← readTokens p run first
      readTokens p [] (.option name spelling attached :: more)) := by
  induction first using tokens_induction generalizing p run with
  | nil =>
    rw [List.nil_append, readTokens_option, readTokens]
    cases p.endRun run.reverse with
    | error ending => rfl
    | ok q => rw [ok_bind, ok_bind, readTokens_option, List.reverse_nil, endRun_nil, ok_bind]
  | cons token rest ih ihTail =>
    rw [List.cons_append]
    cases token with
    | separator => exact ih p ("--" :: run)
    | operand s => exact ih p (s :: run)
    | unknown s =>
      rw [readTokens, readTokens]
      cases p.endRun run.reverse with
      | error ending => rfl
      | ok q => exact ih _ []
    | option name' spelling' attached' =>
      rw [readTokens_option, readTokens_option]
      cases p.endRun run.reverse with
      | error ending => rfl
      | ok q =>
        rw [ok_bind, ok_bind, readOption_append]
        cases hread : q.readOption name' spelling' attached' rest with
        | error ending => rfl
        | ok next =>
          rcases rest_of_readOption hread with hrest | hrest
          · rw [ok_bind, ok_bind, ok_bind, hrest]
            exact ih next.1 []
          · rw [ok_bind, ok_bind, ok_bind, hrest]
            exact ihTail next.1 []

end Reading

/-! ## Counts -/

/-- Whether a request has at most a number of counts, all of which can be written again. -/
structure Request.Bounded (limit : Nat) (r : Request) : Prop where
  length_le : r.counts.length ≤ limit
  withinLimit : ∀ count ∈ r.counts, Decimal.WithinLimit count

section Bounded

variable {p q : Intake} {run : List String} {limit : Nat}

theorem withinLimit_of_readCount {s : String} {count : Int} (h : readCount s = .ok count) :
    Decimal.WithinLimit count := by
  unfold readCount at h
  split at h
  · cases h
    exact Decimal.withinLimit_of_readInteger ‹_›
  · cases h

theorem bounded_of_endRun (hp : p.request.Bounded limit) (hrun : run.length ≤ limit)
    (h : p.endRun run = .ok q) : q.request.Bounded limit := by
  obtain ⟨_, rfl⟩ | ⟨_, _, rfl⟩ | ⟨_, _, counts, hcounts, rfl⟩ := endRun_cases h
  · exact hp
  · exact hp
  · have hread := mapM_eq_ok_iff.1 hcounts
    refine ⟨?_, fun count hcount ↦ ?_⟩
    · calc
        counts.length = (run.erase "--").length := hread.length_eq.symm
        _ ≤ run.length := List.length_erase_le
        _ ≤ limit := hrun
    · obtain ⟨i, hi, rfl⟩ := List.mem_iff_getElem.1 hcount
      exact withinLimit_of_readCount
        (List.Forall₂.get hread (hread.length_eq ▸ hi) hi)

theorem counts_of_setValue {r r' : Request} {name : OptionName} {value : String}
    (h : r.setValue name value = .ok r') : r'.counts = r.counts := by
  unfold Request.setValue at h
  split at h
  case h_4 =>
    obtain ⟨n, _, h⟩ := bind_eq_ok_iff.1 h
    cases h
    rfl
  case h_5 =>
    obtain ⟨x, _, h⟩ := bind_eq_ok_iff.1 h
    cases h
    rfl
  all_goals
    cases h
    rfl

theorem counts_of_setFlag {r r' : Request} {name : OptionName} (h : r.setFlag name = .ok r') :
    r'.counts = r.counts := by
  unfold Request.setFlag at h
  split at h <;> cases h <;> rfl

/-- Options leave the counts as they are. -/
theorem counts_of_readOption {name : OptionName} {spelling : String} {attached : Option String}
    {rest more : List Token} (h : p.readOption name spelling attached rest = .ok (q, more)) :
    q.request.counts = p.request.counts := by
  obtain ⟨r, rfl, ⟨s, _, hset, _⟩ | ⟨_, _, hset, _⟩⟩ := readOption_cases h
  · exact counts_of_setValue hset
  · exact counts_of_setFlag hset

/-- Reading sorted arguments keeps the counts bounded. -/
theorem bounded_of_readTokens {sorted : List Token} (hp : p.request.Bounded limit)
    (hlength : run.length + sorted.length ≤ limit) (h : readTokens p run sorted = .ok q) :
    q.request.Bounded limit := by
  induction sorted using tokens_induction generalizing p run with
  | nil =>
    rw [readTokens] at h
    apply bounded_of_endRun hp _ h
    rw [List.length_reverse]
    exact hlength
  | cons token rest ih ihTail =>
    rw [List.length_cons] at hlength
    have hrun : run.reverse.length ≤ limit := by
      rw [List.length_reverse]
      omega
    have hrest : ([] : List String).length + rest.length ≤ limit := by
      rw [List.length_nil]
      omega
    cases token with
    | separator =>
      apply ih hp _ h
      rw [List.length_cons]
      omega
    | operand s =>
      apply ih hp _ h
      rw [List.length_cons]
      omega
    | unknown s =>
      rw [readTokens] at h
      obtain ⟨p', hend, h⟩ := bind_eq_ok_iff.1 h
      have hp' := bounded_of_endRun hp hrun hend
      exact ih (p := { p' with leftover := p'.leftover ++ [s] }) hp' hrest h
    | option name spelling attached =>
      rw [readTokens_option] at h
      obtain ⟨p', hend, h⟩ := bind_eq_ok_iff.1 h
      obtain ⟨⟨next, more⟩, hread, hlater⟩ := bind_eq_ok_iff.1 h
      have hp' := bounded_of_endRun hp hrun hend
      have hcounts := counts_of_readOption hread
      have hnext : next.request.Bounded limit :=
        ⟨hcounts ▸ hp'.length_le, hcounts ▸ hp'.withinLimit⟩
      rcases rest_of_readOption hread with rfl | rfl
      · exact ih hnext hrest hlater
      · refine ihTail hnext ?_ hlater
        rw [List.length_tail]
        omega

theorem length_tokens {arguments : List String} {sorted : List Token}
    (h : tokens arguments = .ok sorted) : sorted.length = arguments.length := by
  induction arguments generalizing sorted with
  | nil =>
    cases h
    rfl
  | cons s rest ih =>
    rw [tokens] at h
    split at h
    · cases h
      rw [List.length_cons, List.length_map, List.length_cons]
    · obtain ⟨token, _, h⟩ := bind_eq_ok_iff.1 h
      obtain ⟨more, hmore, h⟩ := bind_eq_ok_iff.1 h
      cases h
      rw [List.length_cons, ih hmore, List.length_cons]

/-- There are no more counts than arguments, and each could be written again. -/
theorem bounded_of_readArguments {arguments : List String} {r : Request}
    (h : readArguments arguments = .ok r) : r.Bounded arguments.length := by
  obtain ⟨sorted, hsorted, h⟩ := bind_eq_ok_iff.1 h
  obtain ⟨p, hread, h⟩ := bind_eq_ok_iff.1 h
  have hempty : (⟨.empty, false, []⟩ : Intake).request.Bounded arguments.length :=
    ⟨Nat.zero_le _, fun count hcount ↦ absurd hcount List.not_mem_nil⟩
  have hlength : ([] : List String).length + sorted.length ≤ arguments.length := by
    rw [length_tokens (mapError_eq_ok_iff.1 hsorted), List.length_nil, Nat.zero_add]
  have hbounded := bounded_of_readTokens hempty hlength hread
  split at h
  · cases h
    exact hbounded
  · cases h

end Bounded

end BucketStats.Command

import BucketStats.Proofs.Command.Related
/-!
# Arguments with an option taken out

Taking out an option can join operands that it kept apart.  Where the arguments were read with nothing
left over it joins none: a second run of operands is never recognized, so there were operands on one
side of the option at most.  The arguments around the option are then read as they were with it.
-/

namespace BucketStats.Command

section Reading

variable {p q q' : Intake} {run : List String} {name : OptionName} {spelling : String}
  {attached : Option String} {rest more : List Token}

theorem leftover_of_readOption (h : p.readOption name spelling attached rest = .ok (q, more)) :
    q.leftover = p.leftover := by
  obtain ⟨r, rfl, _⟩ := readOption_cases h
  rfl

/-- An option that found its value finds the same one if more comes later. -/
theorem readOption_append_of_ok (h : p.readOption name spelling attached rest = .ok (q, more))
    (later : List Token) :
    p.readOption name spelling attached (rest ++ later) = .ok (q, more ++ later) := by
  obtain ⟨r, rfl, ⟨s, hname, hset, ⟨rfl, rfl⟩ | ⟨rfl, rfl⟩⟩ | ⟨hname, rfl, hset, rfl⟩⟩ :=
    readOption_cases h
  all_goals
    unfold Intake.readOption
    simp only [hname, hset, List.cons_append]
    rfl

/-! ## What is not recognized -/

/-- Whether something is not recognized already, or is a second run of operands. -/
def Intake.IsSpoiled (p : Intake) (run : List String) : Prop :=
  p.leftover ≠ [] ∨ p.counted = true ∧ run ≠ []

theorem Intake.IsSpoiled.grow (h : p.IsSpoiled run) (s : String) : p.IsSpoiled (s :: run) :=
  h.imp_right fun hsecond ↦ ⟨hsecond.1, List.cons_ne_nil s run⟩

theorem leftover_ne_nil_of_endRun (hspoiled : p.IsSpoiled run)
    (h : p.endRun run.reverse = .ok q) : q.leftover ≠ [] := by
  obtain ⟨hrun, rfl⟩ | ⟨hrun, _, rfl⟩ | ⟨_, hcounted, counts, _, rfl⟩ := endRun_cases h
  · exact hspoiled.resolve_right fun hsecond ↦ hsecond.2 (List.reverse_eq_nil_iff.1 hrun)
  · exact List.append_ne_nil_of_right_ne_nil _ hrun
  · exact hspoiled.resolve_right fun hsecond ↦ by simp [hcounted] at hsecond

/-- What is not recognized stays so, whatever comes later. -/
theorem leftover_ne_nil_of_readTokens {sorted : List Token} (hspoiled : p.IsSpoiled run)
    (h : readTokens p run sorted = .ok q) : q.leftover ≠ [] := by
  induction sorted using tokens_induction generalizing p run with
  | nil => exact leftover_ne_nil_of_endRun hspoiled h
  | cons token rest ih ihTail =>
    cases token with
    | separator => exact ih (hspoiled.grow "--") h
    | operand s => exact ih (hspoiled.grow s) h
    | unknown s =>
      rw [readTokens] at h
      obtain ⟨p', _, h⟩ := bind_eq_ok_iff.1 h
      exact ih (.inl (List.append_ne_nil_of_right_ne_nil _ (List.cons_ne_nil s []))) h
    | option name spelling attached =>
      rw [readTokens_option] at h
      obtain ⟨p', hend, h⟩ := bind_eq_ok_iff.1 h
      obtain ⟨⟨next, more⟩, hread, hlater⟩ := bind_eq_ok_iff.1 h
      have hnext : next.IsSpoiled [] :=
        .inl (leftover_of_readOption hread ▸ leftover_ne_nil_of_endRun hspoiled hend)
      rcases rest_of_readOption hread with rfl | rfl
      · exact ih hnext hlater
      · exact ihTail hnext hlater

/-! ## Joining what was read apart -/

/-- Once a run of operands has ended, one more operand is not recognized. -/
theorem isSpoiled_of_endRun (hrun : run ≠ []) (h : p.endRun run.reverse = .ok q) (s : String) :
    q.IsSpoiled [s] := by
  obtain ⟨hnil, _⟩ | ⟨hne, _, rfl⟩ | ⟨_, _, counts, _, rfl⟩ := endRun_cases h
  · exact absurd (List.reverse_eq_nil_iff.1 hnil) hrun
  · exact .inl (List.append_ne_nil_of_right_ne_nil _ hne)
  · exact .inr ⟨rfl, List.cons_ne_nil s []⟩

/-- Ending a run of operands early makes no difference if nothing is left over in the end. -/
theorem readTokens_of_endRun {later : List Token} (hend : p.endRun run.reverse = .ok q)
    (hlater : readTokens q [] later = .ok q') (hclean : q'.leftover = []) :
    readTokens p run later = .ok q' := by
  rcases eq_or_ne run [] with rfl | hrun
  · cases hend
    exact hlater
  · have hspoiled := isSpoiled_of_endRun hrun hend
    cases later with
    | nil =>
      cases hlater
      exact hend
    | cons token rest =>
      cases token with
      | separator => exact absurd hclean (leftover_ne_nil_of_readTokens (hspoiled "--") hlater)
      | operand s => exact absurd hclean (leftover_ne_nil_of_readTokens (hspoiled s) hlater)
      | unknown s =>
        rw [readTokens, hend]
        exact hlater
      | option name spelling attached =>
        rw [readTokens_option] at hlater ⊢
        rw [hend]
        exact hlater

/-- Arguments that were read in two parts, with nothing left over, are read in the same way in one. -/
theorem readTokens_append_of_ok {first later : List Token} (hfirst : readTokens p run first = .ok q)
    (hlater : readTokens q [] later = .ok q') (hclean : q'.leftover = []) :
    readTokens p run (first ++ later) = .ok q' := by
  induction first using tokens_induction generalizing p run with
  | nil => exact readTokens_of_endRun hfirst hlater hclean
  | cons token rest ih ihTail =>
    rw [List.cons_append]
    cases token with
    | separator => exact ih hfirst
    | operand s => exact ih hfirst
    | unknown s =>
      rw [readTokens] at hfirst ⊢
      obtain ⟨p', hend, hfirst⟩ := bind_eq_ok_iff.1 hfirst
      rw [hend]
      exact ih hfirst
    | option name spelling attached =>
      rw [readTokens_option] at hfirst ⊢
      obtain ⟨p', hend, hfirst⟩ := bind_eq_ok_iff.1 hfirst
      obtain ⟨⟨next, more⟩, hread, hmore⟩ := bind_eq_ok_iff.1 hfirst
      rw [hend, ok_bind, readOption_append_of_ok hread, ok_bind]
      rcases rest_of_readOption hread with rfl | rfl
      · exact ih hmore
      · exact ihTail hmore

end Reading

section Chooses

variable {arguments before after : List String} {c : Choice} {r : Request}

/-- Arguments that can be read with an option among them can be read without it. -/
theorem exists_request_without {related : Request → Request → Prop} (hkept : IsKept related)
    (h : Chooses arguments c) (hset : ∀ r, related r (c.set r)) (hbefore : "--" ∉ before)
    (hread : readArguments (before ++ arguments ++ after) = .ok r) :
    ∃ r', readArguments (before ++ after) = .ok r' ∧ related r' r := by
  rw [readArguments_of_chooses h hbefore] at hread
  obtain ⟨sorted, hsorted, hread⟩ := bind_eq_ok_iff.1 hread
  obtain ⟨later, hlater, hread⟩ := bind_eq_ok_iff.1 hread
  obtain ⟨p, hp, hread⟩ := bind_eq_ok_iff.1 hread
  obtain ⟨q, hq, hclose⟩ := bind_eq_ok_iff.1 hread
  have hstart : p.Related related (p.setRequest (c.set p.request)) := ⟨hset p.request, rfl, rfl⟩
  obtain ⟨q', hq', hrelated⟩ := (readTokens_agree hkept hstart [] later).exists_ok hq
  obtain ⟨hclean, rfl⟩ := close_eq_ok_iff.1 hclose
  have hclean' : q'.leftover = [] := hrelated.leftover.trans hclean
  refine ⟨q'.request, ?_, hrelated.request⟩
  rw [readArguments_eq, tokens_append hbefore, mapError_eq_ok_iff.1 hsorted,
    mapError_eq_ok_iff.1 hlater]
  simp only [ok_bind, Except.mapError]
  rw [readTokens_append_of_ok hp hq' hclean', ok_bind]
  exact close_eq_ok_iff.2 ⟨hclean', rfl⟩

end Chooses

end BucketStats.Command

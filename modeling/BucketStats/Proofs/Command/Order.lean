import BucketStats.Proofs.Command.Options
import BucketStats.Proofs.Command.Stages
/-!
# The order of arguments

Complete options may be given in any order, and the counts may stand together anywhere between them.
The options set what they choose one after the other, and choices for different options commute.  Only
the quantiles are kept in their order.
-/

namespace BucketStats

/-! ## Steps that commute -/

section Keys

variable {α β κ : Type} {f : β → α → β} {key : α → κ}

/-- A step is moved past steps of other keys. -/
theorem foldl_step_comm (hcomm : ∀ b a a', key a ≠ key a' → f (f b a) a' = f (f b a') a) {a : α}
    {as : List α} (has : ∀ a' ∈ as, key a' ≠ key a) (b : β) :
    as.foldl f (f b a) = f (as.foldl f b) a := by
  induction as generalizing b with
  | nil => rfl
  | cons first rest ih =>
    obtain ⟨hfirst, hrest⟩ := List.forall_mem_cons.1 has
    rw [List.foldl_cons, List.foldl_cons, hcomm b a first (Ne.symm hfirst), ih hrest]

/-- Steps that commute unless they have the same key lead to the same end in all orders that agree on
the steps of each key. -/
theorem foldl_eq_of_filter_eq [DecidableEq κ]
    (hcomm : ∀ b a a', key a ≠ key a' → f (f b a) a' = f (f b a') a) {as as' : List α}
    (h : ∀ k, (as.filter fun a ↦ key a = k) = as'.filter fun a ↦ key a = k) (b : β) :
    as.foldl f b = as'.foldl f b := by
  induction as generalizing as' b with
  | nil =>
    cases as' with
    | nil => rfl
    | cons a rest =>
      have hfirst := h (key a)
      rw [List.filter_nil, List.filter_cons_of_pos (by simp)] at hfirst
      cases hfirst
  | cons a rest ih =>
    have hfirst := h (key a)
    rw [List.filter_cons_of_pos (by simp), eq_comm, List.filter_eq_cons_iff] at hfirst
    obtain ⟨before, after, rfl, hbefore, -, -⟩ := hfirst
    -- Before this step, the other order has steps of other keys only.
    have hothers : ∀ a' ∈ before, key a' ≠ key a := by simpa using hbefore
    have hrest : ∀ k, (rest.filter fun a ↦ key a = k) =
        (before ++ after).filter fun a ↦ key a = k := by
      intro k
      have hk := h k
      by_cases hkey : key a = k
      · have hnone : (before.filter fun a ↦ key a = k) = [] := by
          rw [List.filter_eq_nil_iff]
          intro a' ha'
          simpa [← hkey] using hothers a' ha'
        simpa [hkey, hnone] using hk
      · simpa [hkey] using hk
    rw [List.foldl_cons, ih hrest, List.foldl_append, List.foldl_append, List.foldl_cons,
      foldl_step_comm hcomm hothers]

end Keys

theorem eq_of_perm_of_forall_eq {α : Type} {as as' : List α}
    (heq : ∀ a ∈ as, ∀ a' ∈ as, a = a') (hperm : as.Perm as') : as = as' := by
  cases as with
  | nil => exact hperm.nil_eq
  | cons a rest =>
    have hall : a :: rest = List.replicate (a :: rest).length a :=
      List.eq_replicate_iff.2 ⟨rfl, fun a' ha' ↦ heq a' ha' a List.mem_cons_self⟩
    rw [hall] at hperm ⊢
    exact (List.perm_replicate.1 hperm.symm).symm

namespace Command

/-! ## Counts among options -/

def Request.withCounts (r : Request) (counts : List Int) : Request :=
  { r with counts := counts }

theorem Choice.set_withCounts (r : Request) (c : Choice) (counts : List Int) :
    c.set (r.withCounts counts) = (c.set r).withCounts counts := by
  cases c <;> rfl

/-- Operands between options in full. -/
def commandLine (before : List WrittenOption) (counts : List String) (after : List WrittenOption) :
    List String :=
  before.flatMap WrittenOption.arguments ++ counts ++ after.flatMap WrittenOption.arguments

theorem endRun_counts {counts : List String} (hseparator : "--" ∉ counts) {r : Request}
    (hr : r.withCounts [] = r) :
    (⟨r, false, []⟩ : Intake).endRun counts = (counts.mapM readCount).map fun read ↦
      ⟨r.withCounts read, !counts.isEmpty, []⟩ := by
  cases counts with
  | nil =>
    change (.ok ⟨r, false, []⟩ : Except Ending Intake) = .ok ⟨r.withCounts [], false, []⟩
    rw [hr]
  | cons s rest =>
    unfold Intake.endRun
    rw [List.erase_of_not_mem hseparator]
    cases (s :: rest).mapM readCount <;> rfl

theorem foldl_set_withCounts (choices : List Choice) (r : Request) (counts : List Int) :
    choices.foldl Choice.set (r.withCounts counts) =
      (choices.foldl Choice.set r).withCounts counts :=
  List.foldl_hom (·.withCounts counts) fun r c ↦ Choice.set_withCounts r c counts

/-- Options in full around counts set what they choose, one after the other. -/
theorem readArguments_commandLine {before after : List WrittenOption} {counts : List String}
    {first second : List Choice} (hcounts : ∀ s ∈ counts, IsCountLike s)
    (hbefore : before.map WrittenOption.choice? = first.map some)
    (hafter : after.map WrittenOption.choice? = second.map some) :
    readArguments (commandLine before counts after) = (counts.mapM readCount).map fun read ↦
      (first ++ second).foldl Choice.set (Request.empty.withCounts read) := by
  obtain ⟨hseparator, htokens⟩ := tokens_flatMap_arguments hbefore
  obtain ⟨_, htokens'⟩ := tokens_flatMap_arguments hafter
  have hoperands : ∀ s ∈ counts, classify s = .ok (.operand s) :=
    fun s hs ↦ classify_of_isCountLike (hcounts s hs)
  have hcounts' : "--" ∉ counts := fun hmem ↦ ne_separator_of_operand (hoperands _ hmem) rfl
  have hsorted : tokens (commandLine before counts after) =
      .ok (before.flatMap WrittenOption.tokens ++
        (counts.map .operand ++ after.flatMap WrittenOption.tokens)) := by
    rw [commandLine, List.append_assoc, tokens_append hseparator, htokens, tokens_append hcounts',
      tokens_operands hoperands, htokens']
    rfl
  have hempty : (first.foldl Choice.set .empty).withCounts [] = first.foldl Choice.set .empty :=
    (foldl_set_withCounts first .empty []).symm
  unfold readArguments
  rw [hsorted, Except.mapError, ok_bind, readTokens_flatMap_tokens hbefore,
    readTokens_append_options, readTokens_operands, List.reverse_nil, List.nil_append]
  unfold Intake.setRequest
  dsimp only
  rw [endRun_counts hcounts' hempty]
  cases counts.mapM readCount with
  | error ending => rfl
  | ok read =>
    have hlast := readTokens_flatMap_tokens hafter
      ⟨(first.foldl Choice.set .empty).withCounts read, !counts.isEmpty, []⟩ []
    rw [List.append_nil] at hlast
    rw [Except.map, Except.map, ok_bind, hlast, List.foldl_append]
    simp only [foldl_set_withCounts]
    rfl

/-! ## Orders -/

section Orders

variable {choices choices' : List Choice}

/-- Choices for different options commute. -/
theorem Choice.set_comm (r : Request) (c c' : Choice) (h : c.name ≠ c'.name) :
    (c'.set (c.set r)) = c.set (c'.set r) := by
  cases c <;> cases c' <;> first | rfl | exact absurd rfl h

/-- The options that may be chosen once. -/
def onceNames : List OptionName :=
  [.label, .precision, .config, .xlsx]

theorem eq_of_name_eq {c c' : Choice} (hname : c.name = c'.name) (honce : c.name ∉ onceNames)
    (hquantile : c.name ≠ .quantile) : c = c' := by
  cases c with
  | json => cases c' <;> first | rfl | cases hname
  | quiet => cases c' <;> first | rfl | cases hname
  | quantile x => exact absurd rfl hquantile
  | label s => exact absurd (by simp [Choice.name, onceNames]) honce
  | precision n => exact absurd (by simp [Choice.name, onceNames]) honce
  | config s => exact absurd (by simp [Choice.name, onceNames]) honce
  | xlsx s => exact absurd (by simp [Choice.name, onceNames]) honce

/-- Reordered choices are in the same order for each option. -/
theorem filter_name_eq
    (honce : ∀ name ∈ onceNames, (choices.filter (·.name = name)).length ≤ 1)
    (hperm : choices.Perm choices')
    (hquantiles : choices.filter (·.name = .quantile) = choices'.filter (·.name = .quantile))
    (name : OptionName) : choices.filter (·.name = name) = choices'.filter (·.name = name) := by
  by_cases hquantile : name = .quantile
  · rw [hquantile, hquantiles]
  · apply eq_of_perm_of_forall_eq _ (hperm.filter _)
    intro c hc c' hc'
    by_cases hname : name ∈ onceNames
    · have hlength := honce name hname
      generalize choices.filter (·.name = name) = same at hc hc' hlength
      match same with
      | [] => cases hc
      | [a] => rw [List.mem_singleton.1 hc, List.mem_singleton.1 hc']
    · simp only [List.mem_filter, decide_eq_true_eq] at hc hc'
      obtain ⟨-, rfl⟩ := hc
      exact eq_of_name_eq hc'.2.symm hname hquantile

/-- Options in full may be given in any order that keeps the order of the quantiles, with the counts
together anywhere between them: the runs tell, print and save the same and end in the same way. -/
theorem run_of_reordered (program : String) (files : Files) {counts : List String}
    {before after before' after' : List WrittenOption} (hcounts : ∀ s ∈ counts, IsCountLike s)
    (hchoices : (before ++ after).map WrittenOption.choice? = choices.map some)
    (hchoices' : (before' ++ after').map WrittenOption.choice? = choices'.map some)
    (honce : ∀ name ∈ onceNames, (choices.filter (·.name = name)).length ≤ 1)
    (hperm : choices.Perm choices')
    (hquantiles : choices.filter (·.name = .quantile) = choices'.filter (·.name = .quantile)) :
    run program files (commandLine before counts after) =
      run program files (commandLine before' counts after') := by
  have hset : ∀ r, choices.foldl Choice.set r = choices'.foldl Choice.set r :=
    foldl_eq_of_filter_eq Choice.set_comm (filter_name_eq honce hperm hquantiles)
  have hread : readArguments (commandLine before counts after) =
      readArguments (commandLine before' counts after') := by
    rw [List.map_append] at hchoices hchoices'
    obtain ⟨first, second, rfl, hfirst, hsecond⟩ := List.map_eq_append_iff.1 hchoices.symm
    obtain ⟨first', second', rfl, hfirst', hsecond'⟩ := List.map_eq_append_iff.1 hchoices'.symm
    rw [readArguments_commandLine hcounts hfirst.symm hsecond.symm,
      readArguments_commandLine hcounts hfirst'.symm hsecond'.symm]
    simp only [hset]
  unfold run
  rw [hread]

/-- Neither a label that looks like an option nor a negative count depends on what stands around it. -/
theorem run_of_reordered_of_six_options :
    let files := Directory.toFiles (Directory.ofList [("report.ini", [])])
    run "histogram-mean" files ["--label=--json", "--quantile", "1e0", "-3", "07", "--quiet",
        "--precision=-1", "--quantile=0.5", "--config", "report.ini"] =
      run "histogram-mean" files ["--config=report.ini", "--precision=-1", "--quantile=1", "--quiet",
        "--quantile", "0.5", "--label=--json", "-3", "07"] := by
  intro files
  let before : List WrittenOption := [.attached .label "--json", .separate .quantile "1e0"]
  let after : List WrittenOption := [.flag .quiet, .attached .precision "-1",
    .attached .quantile "0.5", .separate .config "report.ini"]
  let before' : List WrittenOption := [.attached .config "report.ini", .attached .precision "-1",
    .attached .quantile "1", .flag .quiet, .separate .quantile "0.5", .attached .label "--json"]
  let half : Binary64 := .ofRank false (1022 * twoPow 52)
  let one : Binary64 := .ofRank false (1023 * twoPow 52)
  let choices : List Choice := [.label "--json", .quantile one, .quiet, .precision (-1),
    .quantile half, .config "report.ini"]
  let choices' : List Choice := [.config "report.ini", .precision (-1), .quantile one, .quiet,
    .quantile half, .label "--json"]
  have hcounts : ∀ s ∈ ["-3", "07"], IsCountLike s := by decide
  have hchoices : (before ++ after).map WrittenOption.choice? = choices.map some := by
    decide +kernel
  have hchoices' : (before' ++ []).map WrittenOption.choice? = choices'.map some := by
    decide +kernel
  have hline : commandLine before ["-3", "07"] after = ["--label=--json", "--quantile", "1e0", "-3",
      "07", "--quiet", "--precision=-1", "--quantile=0.5", "--config", "report.ini"] := by
    decide +kernel
  have hline' : commandLine before' ["-3", "07"] [] = ["--config=report.ini", "--precision=-1",
      "--quantile=1", "--quiet", "--quantile", "0.5", "--label=--json", "-3", "07"] := by
    decide +kernel
  rw [← hline, ← hline']
  exact run_of_reordered "histogram-mean" files hcounts hchoices hchoices' (by decide +kernel)
    (by decide +kernel) (by decide +kernel)

end Orders

end Command
end BucketStats

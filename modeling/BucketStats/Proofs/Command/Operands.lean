import BucketStats.Command.Arguments
import BucketStats.Proofs.Decimal.Integers
import BucketStats.Proofs.Text.Lines
import BucketStats.Proofs.Transcript
/-!
# Integers on the command line

The text of an integer is an operand even if it begins with a hyphen, since it is then no option but
looks like a negative number.  So a command line of such texts alone asks for these counts and for
nothing else.
-/

namespace BucketStats.Command

open Decimal

/-! ## Sorting -/

theorem allDigits_of_isDigit {s : List Char} (h : ∀ c ∈ s, c.isDigit = true) :
    allDigits s = true := by
  unfold allDigits
  rw [List.all_eq_true]
  intro c hc
  rw [Text.digitValue?_of_isDigit (h c hc)]
  rfl

theorem not_mem_of_allDigits {s : List Char} {c : Char} (h : allDigits s = true)
    (hc : Text.digitValue? c = none) : c ∉ s := by
  intro hmem
  have hdigit := List.all_eq_true.1 h c hmem
  rw [hc] at hdigit
  cases hdigit

section Negative

variable {d : Char} {rest : List Char}

/-- The second character of a spelling is no digit. -/
theorem take_two_ne_of_digit {e : String × OptionName} (he : e ∈ OptionName.spellings)
    (hd : (Text.digitValue? d).isSome = true) : e.1.toList.take 2 ≠ ['-', d] := by
  have hsecond : ∀ e ∈ OptionName.spellings,
      ((e.1.toList.take 2)[1]?.all fun c ↦ !(Text.digitValue? c).isSome) = true := by
    decide
  intro htake
  have hdigit := hsecond e he
  rw [htake] at hdigit
  exact absurd hd (by simpa using hdigit)

theorem ofSpelling?_negative (hd : (Text.digitValue? d).isSome = true) :
    OptionName.ofSpelling? ('-' :: d :: rest) = none := by
  unfold OptionName.ofSpelling?
  rw [Option.map_eq_none_iff, List.find?_eq_none]
  intro e he hspelling
  apply take_two_ne_of_digit he hd
  rw [eq_of_beq hspelling]
  rfl

theorem candidates_negative (hd : (Text.digitValue? d).isSome = true) :
    candidates ('-' :: d :: rest) = [] := by
  unfold candidates
  split
  · rename_i heq
    cases heq
    exact absurd hd (by decide)
  · rw [List.filterMap_eq_nil_iff]
    intro e he
    rw [if_neg]
    intro hspelling
    apply take_two_ne_of_digit he hd
    rw [eq_of_beq hspelling]
    rfl

theorem isNegativeNumber_of_allDigits (hdigits : allDigits (d :: rest) = true) :
    isNegativeNumber ('-' :: d :: rest) = true := by
  have hpoint : '.' ∉ d :: rest := not_mem_of_allDigits hdigits (by decide)
  have hlast : ((d :: rest).getLast? == some '\n') = false := by
    rw [beq_eq_false_iff_ne]
    intro hlast
    exact not_mem_of_allDigits hdigits (by decide) (List.mem_of_getLast? hlast)
  unfold isNegativeNumber
  simp only [hlast, Bool.false_eq_true, if_false, Text.splitAtFirst_of_not_mem hpoint, hdigits]
  rfl

/-- A hyphen before digits begins no option but an operand. -/
theorem classify_negative (hdigits : allDigits (d :: rest) = true) :
    classify (String.ofList ('-' :: d :: rest)) =
      .ok (.operand (String.ofList ('-' :: d :: rest))) := by
  have hd : (Text.digitValue? d).isSome = true := List.all_eq_true.1 hdigits d List.mem_cons_self
  have hassign : '=' ∉ '-' :: d :: rest := by
    rw [List.mem_cons, not_or]
    exact ⟨by decide, not_mem_of_allDigits hdigits (by decide)⟩
  simp only [classify, String.toList_ofList, ofSpelling?_negative hd,
    Text.splitAtFirst_of_not_mem hassign, classifyAbbreviated, candidates_negative hd,
    isNegativeNumber_of_allDigits hdigits, Bool.true_or, if_true]

end Negative

theorem classify_of_ne_hyphen {s : String} {c : Char} {rest : List Char} (hs : s.toList = c :: rest)
    (hc : c ≠ '-') : classify s = .ok (.operand s) := by
  unfold classify
  rw [hs]
  split
  · rename_i heq
    cases heq
    exact absurd rfl hc
  · rfl

/-- Whether a text can be a count and no option: if it begins with a hyphen, only digits follow. -/
def IsCountLike (s : String) : Prop :=
  s.toList.head? = some '-' → allDigits s.toList.tail = true

instance (s : String) : Decidable (IsCountLike s) :=
  inferInstanceAs (Decidable (_ → _))

theorem classify_of_isCountLike {s : String} (h : IsCountLike s) : classify s = .ok (.operand s) := by
  cases hchars : s.toList with
  | nil =>
    unfold classify
    rw [hchars]
  | cons c rest =>
    by_cases hc : c = '-'
    · subst hc
      have hdigits : allDigits rest = true := by
        have hdigits := h (by rw [hchars]; rfl)
        rwa [hchars] at hdigits
      cases rest with
      | nil =>
        unfold classify
        rw [hchars]
        rfl
      | cons d rest =>
        rw [← String.ofList_toList (s := s), hchars]
        exact classify_negative hdigits
    · exact classify_of_ne_hyphen hchars hc

/-- Digits with a sign or without can be a count. -/
theorem isCountLike_of_digits {s : String} {sign ds : List Char} (hs : s.toList = sign ++ ds)
    (hsign : sign ∈ [[], ['-'], ['+']]) (hdigits : ∀ c ∈ ds, c.isDigit = true) : IsCountLike s := by
  intro hhyphen
  rw [hs] at hhyphen ⊢
  simp only [List.mem_cons, List.not_mem_nil, or_false] at hsign
  rcases hsign with rfl | rfl | rfl
  · rw [List.nil_append] at hhyphen
    exact absurd (hdigits '-' (List.mem_of_mem_head? hhyphen)) (by decide)
  · exact allDigits_of_isDigit hdigits
  · cases hhyphen

theorem classify_toString (n : Int) : classify (toString n) = .ok (.operand (toString n)) := by
  have hdigits : ∀ c ∈ digits n.natAbs, c.isDigit = true := fun c hc ↦ isDigit_of_mem_digits hc
  apply classify_of_isCountLike
  cases hneg : decide (n < 0) with
  | true =>
    have htext : (toString n).toList = ['-'] ++ digits n.natAbs := by
      rw [toList_toString, hneg]
      rfl
    exact isCountLike_of_digits htext (by simp) hdigits
  | false =>
    have htext : (toString n).toList = [] ++ digits n.natAbs := by
      rw [toList_toString, hneg]
      rfl
    exact isCountLike_of_digits htext (by simp) hdigits

theorem ne_separator_of_operand {s : String} (h : classify s = .ok (.operand s)) : s ≠ "--" := by
  rintro rfl
  exact absurd h (by decide)

theorem toString_ne_separator (n : Int) : toString n ≠ "--" :=
  ne_separator_of_operand (classify_toString n)

theorem tokens_operands {texts : List String} (h : ∀ s ∈ texts, classify s = .ok (.operand s)) :
    tokens texts = .ok (texts.map .operand) := by
  induction texts with
  | nil => rfl
  | cons s rest ih =>
    obtain ⟨hs, hrest⟩ := List.forall_mem_cons.1 h
    rw [tokens, if_neg (ne_separator_of_operand hs), hs, ok_bind, ih hrest]
    rfl

/-! ## Reading -/

theorem readTokens_operands (p : Intake) (texts run : List String) :
    readTokens p run (texts.map .operand) = p.endRun (run.reverse ++ texts) := by
  induction texts generalizing run with
  | nil => rw [List.map_nil, readTokens, List.append_nil]
  | cons s rest ih => rw [List.map_cons, readTokens, ih, List.reverse_cons, List.append_assoc]; rfl

theorem readCount_toString (n : Int) :
    readCount (toString n) = if WithinLimit n then .ok n
      else .error (.misuse (.invalidInteger "counts" (quotedText (toString n)))) := by
  unfold readCount
  rw [readInteger_toString]
  split_ifs <;> rfl

/-- The texts of integers ask for counts and for nothing else. -/
theorem readArguments_toString_eq (counts : List Int) :
    readArguments (counts.map toString) = ((counts.map toString).mapM readCount).map
      fun read ↦ { Request.empty with counts := read } := by
  have htokens : tokens (counts.map toString) = .ok ((counts.map toString).map .operand) := by
    apply tokens_operands
    rw [List.forall_mem_map]
    exact fun n _ ↦ classify_toString n
  have hseparator : "--" ∉ counts.map toString := by
    rw [List.mem_map]
    rintro ⟨n, _, hn⟩
    exact toString_ne_separator n hn
  unfold readArguments
  rw [htokens]
  change (readTokens ⟨.empty, false, []⟩ [] ((counts.map toString).map .operand)) >>= _ = _
  rw [readTokens_operands, List.reverse_nil, List.nil_append]
  cases counts with
  | nil => rfl
  | cons n rest =>
    unfold Intake.endRun
    rw [List.erase_of_not_mem hseparator]
    cases ((n :: rest).map toString).mapM readCount <;> rfl

theorem readArguments_toString {counts : List Int} (hlimit : ∀ n ∈ counts, WithinLimit n) :
    readArguments (counts.map toString) = .ok { Request.empty with counts := counts } := by
  have hread : ∀ n ∈ counts, readCount (toString n) = .ok (id n) := by
    intro n hn
    rw [readCount_toString, if_pos (hlimit n hn)]
    rfl
  rw [readArguments_toString_eq, mapM_map_eq_ok hread, List.map_id]
  rfl

/-- A count of too many digits is a misuse. -/
theorem misuse_of_not_withinLimit {counts : List Int} (h : ∃ n ∈ counts, ¬ WithinLimit n) :
    ∃ m, readArguments (counts.map toString) = .error (.misuse m) := by
  obtain ⟨n, hmem, hn⟩ := h
  have hfails : ∃ s ∈ counts.map toString, ∀ count, readCount s ≠ .ok count := by
    refine ⟨toString n, List.mem_map_of_mem hmem, fun count hcount ↦ ?_⟩
    rw [readCount_toString, if_neg hn] at hcount
    cases hcount
  obtain ⟨_, s, _, ending, hsplit, hs, _, hfirst⟩ := exists_first_error hfails
  have hmem' : s ∈ counts.map toString := by
    rw [hsplit]
    exact List.mem_append_cons_self
  obtain ⟨first, _, rfl⟩ := List.mem_map.1 hmem'
  rw [readArguments_toString_eq, hfirst]
  rw [readCount_toString] at hs
  split_ifs at hs
  cases hs
  exact ⟨_, rfl⟩

end BucketStats.Command

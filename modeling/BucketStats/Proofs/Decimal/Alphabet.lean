import BucketStats.Decimal.Numeral
import BucketStats.Proofs.Text.Trimmed
/-!
# The characters of decimals

A text that is read as a decimal holds only blanks, underscores, digits of all scripts, a point,
signs, and the letters of the exponent and of the words for infinity and for what is no number.  So
a text with any other character is no decimal, wherever the character stands.
-/

namespace BucketStats.Decimal

open Text

/-- The marks and the lower-case letters of decimals. -/
def decimalMarks : List Char :=
  ['.', '-', '+', 'e', 'i', 'n', 'f', 't', 'y', 'a']

/-- Whether a character is an ASCII digit, or a mark or a letter of decimals in either case. -/
def IsDecimalMark (c : Char) : Prop :=
  c.isDigit = true ∨ c.toLower ∈ decimalMarks

instance (c : Char) : Decidable (IsDecimalMark c) :=
  inferInstanceAs (Decidable (_ ∨ _))

/-- Whether a character can stand in a decimal. -/
def IsDecimalChar (c : Char) : Prop :=
  isNumeralBlank c = true ∨ plainDigit c = '_' ∨ IsDecimalMark (plainDigit c)

instance (c : Char) : Decidable (IsDecimalChar c) :=
  inferInstanceAs (Decidable (_ ∨ _))

section Characters

variable {s chars : List Char} {c : Char} {negative : Bool} {x : Binary64}

theorem mem_of_joinDigits {afterDigit : Bool} (h : joinDigits afterDigit s = some chars)
    (hc : c ∈ s) : c = '_' ∨ c ∈ chars := by
  fun_induction joinDigits afterDigit s generalizing chars with
  | case1 => exact absurd hc List.not_mem_nil
  | case2 => cases h
  | case3 afterDigit d rest hd ih =>
    rcases List.mem_cons.1 hc with rfl | hc
    · exact .inl rfl
    · exact ih h hc
  | case4 => cases h
  | case5 afterDigit d rest hd ih =>
    obtain ⟨later, hlater, rfl⟩ := Option.map_eq_some_iff.1 h
    rcases List.mem_cons.1 hc with rfl | hc
    · exact .inr List.mem_cons_self
    · exact (ih hlater hc).imp_right (List.mem_cons_of_mem d)

theorem mem_of_splitSign (hc : c ∈ s) : IsDecimalMark c ∨ c ∈ (splitSign s).2 := by
  have hsign {sign : Char} {rest : List Char} (hmark : IsDecimalMark sign) (hc : c ∈ sign :: rest) :
      IsDecimalMark c ∨ c ∈ rest := by
    rcases List.mem_cons.1 hc with rfl | hc
    · exact .inl hmark
    · exact .inr hc
  unfold splitSign
  split
  · exact hsign (by decide) hc
  · exact hsign (by decide) hc
  · exact .inr hc

theorem isDecimalMark_of_readExponent {e : Int} (h : readExponent s = some e) :
    ∀ c ∈ s, IsDecimalMark c := by
  cases s with
  | nil => exact fun c hc ↦ absurd hc List.not_mem_nil
  | cons d rest =>
    rw [readExponent] at h
    split_ifs at h with hmark
    have hspoilt :
        ¬ ((splitSign rest).2.isEmpty || !(splitSign rest).2.all Char.isDigit) = true := by
      intro hspoilt
      simp only [if_pos hspoilt] at h
      cases h
    rw [Bool.or_eq_true, not_or, Bool.not_eq_true', Bool.not_eq_false, List.all_eq_true] at hspoilt
    intro c hc
    rcases List.mem_cons.1 hc with rfl | hc
    · rw [Bool.or_eq_true, beq_iff_eq, beq_iff_eq] at hmark
      rcases hmark with rfl | rfl
      · decide
      · decide
    · exact (mem_of_splitSign hc).elim id fun hc ↦ .inl (hspoilt.2 c hc)

theorem mem_takeWhile_or_mem_dropWhile (p : Char → Bool) (hc : c ∈ s) :
    c ∈ s.takeWhile p ∨ c ∈ s.dropWhile p := by
  rw [← List.mem_append, List.takeWhile_append_dropWhile]
  exact hc

theorem isDecimalMark_of_readMagnitude (h : readMagnitude negative s = some x) :
    ∀ c ∈ s, IsDecimalMark c := by
  have hdigits (t : List Char) : ∀ c ∈ t.takeWhile Char.isDigit, IsDecimalMark c :=
    fun c hc ↦ .inl (List.mem_takeWhile_imp hc)
  have htail {tail : List Char} {y : Int → Option Binary64}
      (h : (readExponent tail).bind y = some x) : ∀ c ∈ tail, IsDecimalMark c := by
    obtain ⟨e, he, -⟩ := Option.bind_eq_some_iff.1 h
    exact isDecimalMark_of_readExponent he
  intro c hc
  rcases mem_takeWhile_or_mem_dropWhile Char.isDigit hc with hc | hc
  · exact hdigits s c hc
  · unfold readMagnitude at h
    simp only [List.span_eq_takeWhile_dropWhile] at h
    cases hrest : s.dropWhile Char.isDigit with
    | nil =>
      rw [hrest] at hc
      exact absurd hc List.not_mem_nil
    | cons d more =>
      rw [hrest] at h hc
      -- a point and a fraction follow the digits, or an exponent does
      by_cases hd : d = '.'
      · subst hd
        simp only at h
        split_ifs at h
        rcases List.mem_cons.1 hc with rfl | hc
        · decide
        · rcases mem_takeWhile_or_mem_dropWhile Char.isDigit hc with hc | hc
          · exact hdigits more c hc
          · exact htail h c hc
      · split at h
        · next later hlater => exact absurd (List.cons.inj hlater).1 hd
        · split_ifs at h
          exact htail h c hc

theorem isDecimalMark_of_word (hword : (s.map Char.toLower).all decimalMarks.contains = true) :
    ∀ c ∈ s, IsDecimalMark c := by
  intro c hc
  exact .inr (List.contains_iff_mem.1 (List.all_eq_true.1 hword _ (List.mem_map_of_mem hc)))

/-- A text is read as a decimal only if all its characters are those of decimals. -/
theorem isDecimalChar_of_readDecimal (h : readDecimal s = some x) : ∀ c ∈ s, IsDecimalChar c := by
  intro c hc
  obtain ⟨chars, hchars, hbody⟩ := Option.bind_eq_some_iff.1 h
  have hmarks : ∀ c ∈ (splitSign chars).2, IsDecimalMark c := by
    have hwords : ∀ word ∈ infinityWords, word.all decimalMarks.contains = true :=
      List.all_eq_true.1 (by decide)
    simp only at hbody
    split_ifs at hbody with hinfinity hnan
    · exact isDecimalMark_of_word (hwords _ (List.contains_iff_mem.1 hinfinity))
    · refine isDecimalMark_of_word ?_
      rw [beq_iff_eq.1 hnan]
      decide
    · exact isDecimalMark_of_readMagnitude hbody
  obtain ⟨before, after, hbefore, hafter, hs⟩ := exists_eq_append_trimBy isNumeralBlank s
  rw [hs, List.mem_append, List.mem_append] at hc
  rcases hc with hc | hc | hc
  · exact .inl (hbefore c hc)
  · right
    have hmap : plainDigit c ∈ (trimBy isNumeralBlank s).map plainDigit := List.mem_map_of_mem hc
    exact (mem_of_joinDigits hchars hmap).imp_right fun hc ↦
      (mem_of_splitSign hc).elim id (hmarks _)
  · exact .inl (hafter c hc)

theorem readDecimal_eq_none (hc : c ∈ s) (hforeign : ¬ IsDecimalChar c) : readDecimal s = none :=
  Option.eq_none_iff_forall_ne_some.2 fun _ h ↦ hforeign (isDecimalChar_of_readDecimal h c hc)

end Characters

end BucketStats.Decimal

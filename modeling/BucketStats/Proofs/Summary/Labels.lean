import BucketStats.Proofs.Decimal.Significant
import BucketStats.Proofs.Decimal.Written
import BucketStats.Summary.Basic
/-!
# The labels of short levels

The label of a level has six significant digits of it.  A level that is given by a numeral of no more
than these is recovered from its label, and so two such levels have different labels.
-/

namespace BucketStats

open Binary64 Decimal

/-- Whether a text is a numeral of zero, or one of at most six significant digits between `10 ^ -300`
and one, perhaps with a sign. -/
structure IsShortNumeral (negative : Bool) (d : ℚ) (s : String) : Prop where
  isSigned : IsSigned negative d s.toList
  hasSignificantDigits : HasSignificantDigits 6 d
  range : d = 0 ∨ 10 ^ (-300 : Int) ≤ d ∧ d ≤ 1

section Levels

variable {negative : Bool} {d : ℚ} {s : String}

theorem magnitude_twoPow_le : magnitude (twoPow 52) ≤ 10 ^ (-300 : Int) := by
  have hpower : (10 : ℚ) ^ 300 ≤ 2 ^ 1022 := by
    calc
      (10 : ℚ) ^ 300 = (10 ^ 3) ^ 100 := pow_mul 10 3 100
      _ ≤ (2 ^ 10) ^ 100 := pow_le_pow_left₀ (by norm_num) (by norm_num) 100
      _ = 2 ^ 1000 := (pow_mul 2 10 100).symm
      _ ≤ 2 ^ 1022 := pow_le_pow_right₀ (by norm_num) (by decide)
  rw [magnitude_twoPow, zpow_neg, zpow_ofNat, ← one_div]
  exact one_div_le_one_div_of_le (pow_pos (by norm_num) 300) hpower

/-- A short numeral is what the number nearest to it is written as with six digits. -/
theorem IsShortNumeral.value_significant (h : IsShortNumeral negative d s) {rank : Nat}
    (hnear : IsNearestRank d rank) :
    (significant 6 rank).IsNumeral ∧ (significant 6 rank).value = d := by
  rcases h.range with rfl | ⟨hlow, _⟩
  · have hzero := isNearestRank_magnitude 0
    rw [magnitude_zero] at hzero
    obtain rfl : rank = 0 := hnear.unique hzero
    exact ⟨Scientific.isNumeral_zero, Scientific.value_zero⟩
  · exact Decimal.value_significant h.hasSignificantDigits (by decide)
      (magnitude_twoPow_le.trans hlow) hnear

/-- A short numeral is read as a finite level, which is nearest to it and has its sign. -/
theorem IsShortNumeral.exists_level (h : IsShortNumeral negative d s) :
    ∃ level : Finite, (Value.text s).toBinary64 = .ok (.finite level) ∧
      level.negative = negative ∧ IsNearestRank d level.rank := by
  have hrange : 0 ≤ d ∧ d ≤ 1 := by
    rcases h.range with rfl | ⟨hlow, hhigh⟩
    · exact ⟨le_rfl, zero_le_one⟩
    · exact ⟨(zpow_nonneg (by norm_num) _).trans hlow, hhigh⟩
  obtain ⟨rounded, hrounded⟩ := exists_roundsTo hrange.1 hrange.2
  refine ⟨⟨negative, rounded.rank, rounded.rank_lt⟩, ?_, rfl, hrounded.nearest⟩
  rw [Value.toBinary64, readDecimal_of_isSigned h.isSigned hrounded.nearest,
    ofRank_of_lt negative rounded.rank_lt]

theorem quantileLabel_float (x : Binary64) :
    quantileLabel (.float x) = .ok ("q" ++ String.ofList (writeSignificant 6 x)) := by
  rw [quantileLabel, levelLabel, ← List.singleton_append, String.ofList_append]

/-- The digits of the label of a short numeral are read as its level. -/
theorem IsShortNumeral.toBinary64_writeSignificant (h : IsShortNumeral negative d s)
    {level : Finite} (hnear : IsNearestRank d level.rank) :
    (Value.text (String.ofList (writeSignificant 6 (.finite level)))).toBinary64 =
      .ok (.finite level) := by
  obtain ⟨hnumeral, hvalue⟩ := h.value_significant hnear
  rw [← hvalue] at hnear
  have hback : readDecimal (writeSignificant 6 (.finite level)) = some (.finite level) :=
    Scientific.readDecimal_signed_write hnumeral hnear shortLayout
  rw [Value.toBinary64, String.toList_ofList, hback]

end Levels

/-- The label of a level that is given by a short numeral is a `q` and a text that is read as the very
level.  No short numeral of another number has that label. -/
theorem quantileLabel_of_isShortNumeral {negative : Bool} {d : ℚ} {s : String}
    (h : IsShortNumeral negative d s) :
    ∃ level text, (Value.text s).toBinary64 = .ok level ∧
      quantileLabel (.float level) = .ok ("q" ++ text) ∧
      (Value.text text).toBinary64 = .ok level ∧
      ∀ negative' d' s' level', IsShortNumeral negative' d' s' →
        (Value.text s').toBinary64 = .ok level' →
        quantileLabel (.float level') = .ok ("q" ++ text) → negative' = negative ∧ d' = d := by
  obtain ⟨level, hread, hsign, hnear⟩ := h.exists_level
  have hback := h.toBinary64_writeSignificant hnear
  refine ⟨.finite level, _, hread, quantileLabel_float _, hback, ?_⟩
  intro negative' d' s' level' h' hread' hlabel
  obtain ⟨other, hother, hsign', hnear'⟩ := h'.exists_level
  obtain rfl : level' = .finite other := Except.ok.inj (hread'.symm.trans hother)
  have hback' := h'.toBinary64_writeSignificant hnear'
  rw [quantileLabel_float, Except.ok.injEq, String.append_right_inj] at hlabel
  rw [hlabel, hback, Except.ok.injEq, finite.injEq] at hback'
  subst hback'
  exact ⟨hsign'.symm.trans hsign,
    (h'.value_significant hnear').2.symm.trans (h.value_significant hnear).2⟩

theorem quantileLabel_of_one_tenth :
    IsShortNumeral false (1 / 10) "0.1" ∧ ∃ level, (Value.text "0.1").toBinary64 = .ok level ∧
      quantileLabel (.float level) = .ok "q0.1" := by
  have hsigned : IsSigned false (1 / 10) "0.1".toList := by
    have hunsigned : IsUnsigned (1 / 10) (['0'] ++ '.' :: ['1']) := by
      apply isUnsigned_point (.inl (List.cons_ne_nil _ _)) (List.forall_mem_singleton.2 rfl)
        (List.forall_mem_singleton.2 rfl)
      have hvalue : valueOf (['0'] ++ ['1']) = 1 := by decide
      rw [hvalue]
      norm_num
    exact .bare hunsigned
  have hdigits : HasSignificantDigits 6 (1 / 10) := ⟨1, -1, by decide, by norm_num⟩
  have hlow : (10 : ℚ) ^ (-300 : Int) ≤ 1 / 10 := by
    calc
      (10 : ℚ) ^ (-300 : Int) ≤ 10 ^ (-1 : Int) :=
        zpow_le_zpow_right₀ (by norm_num) (by decide)
      _ = 1 / 10 := by norm_num
  have hshort : IsShortNumeral false (1 / 10) "0.1" :=
    ⟨hsigned, hdigits, .inr ⟨hlow, by norm_num⟩⟩
  obtain ⟨level, text, hread, -, -, -⟩ := quantileLabel_of_isShortNumeral hshort
  have hlevel : (Value.text "0.1").toBinary64 =
      .ok (.finite ⟨false, 4591870180066957722, by decide⟩) := by decide +kernel
  refine ⟨hshort, level, hread, ?_⟩
  rw [hlevel, Except.ok.injEq] at hread
  rw [← hread]
  decide +kernel

end BucketStats

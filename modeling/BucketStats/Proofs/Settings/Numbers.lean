import BucketStats.Proofs.Decimal.Alphabet
import BucketStats.Settings.Number
/-!
# Numbers in settings

The number of a setting is the decimal that stands between its blanks and quotes.  That the words for
no number are looked for before it is read changes nothing, since they hold letters that no decimal
has.
-/

namespace BucketStats.Settings

open Text Decimal

variable {s t : List Char} {c : Char}

theorem eq_or_eq_of_toLower {lower upper : Char}
    (hletter : lower.toNat = upper.toNat + 32) (h : c.toLower = lower) :
    c = lower ∨ c = upper := by
  unfold Char.toLower at h
  split_ifs at h with hupper
  · right
    have hle : c.toNat ≤ 90 := UInt32.le_iff_toNat_le.1 hupper.2
    have hnat : lower.toNat = (c.toNat + 32) % 2 ^ 32 := by
      rw [← h]
      exact UInt32.toNat_add c.val 32
    rw [← Char.toNat_inj]
    omega
  · exact .inl h

/-- A text with a quote in it is no decimal. -/
theorem readDecimal_eq_none_of_isQuote (hquote : IsQuote c) (hc : c ∈ s) :
    readDecimal s = none := by
  apply readDecimal_eq_none hc
  rcases hquote with rfl | rfl
  · decide
  · decide

theorem readDecimal_eq_none_of_letter {lower upper : Char}
    (hletter : lower.toNat = upper.toNat + 32)
    (hforeign : ¬ IsDecimalChar lower ∧ ¬ IsDecimalChar upper) (hmem : lower ∈ s.map Char.toLower) :
    readDecimal s = none := by
  obtain ⟨c, hc, hlower⟩ := List.mem_map.1 hmem
  apply readDecimal_eq_none hc
  rcases eq_or_eq_of_toLower hletter hlower with rfl | rfl
  · exact hforeign.1
  · exact hforeign.2

theorem readDecimal_eq_none_of_absent (h : absentWords.contains (s.map Char.toLower) = true) :
    readDecimal s = none := by
  rw [List.contains_iff_mem, absentWords, List.mem_cons, List.mem_singleton] at h
  rcases h with h | h
  · have hl : 'l'.toNat = 'L'.toNat + 32 := rfl
    exact readDecimal_eq_none_of_letter hl (by decide) (by rw [h]; decide)
  · have ho : 'o'.toNat = 'O'.toNat + 32 := rfl
    exact readDecimal_eq_none_of_letter ho (by decide) (by rw [h]; decide)

theorem unquote_of_absent (h : absentWords.contains (s.map Char.toLower) = true) :
    unquote s = s := by
  have hhead : ∀ word ∈ absentWords, word.head? = some 'n' := by decide
  apply unquote_of_head?
  intro c hc hquote
  have hlower := hhead _ (List.contains_iff_mem.1 h)
  rw [List.head?_map, Option.mem_def.1 hc, Option.map_some, Option.some_inj] at hlower
  rcases hquote with rfl | rfl
  · exact absurd hlower (by decide)
  · exact absurd hlower (by decide)

/-- The words for no number are no decimals anyway, and neither is the empty text. -/
theorem numberOfText_eq_readDecimal (s : List Char) :
    numberOfText s = readDecimal (unquote (trim s)) := by
  unfold numberOfText
  simp only
  split_ifs with hnone
  · symm
    rcases (Bool.or_eq_true _ _).mp hnone with hempty | habsent
    · rw [List.isEmpty_iff.1 hempty]
      rfl
    · rw [unquote_of_absent habsent, readDecimal_eq_none_of_absent habsent]
  · rfl

theorem numberOfText_congr (h : trim s = trim t) : numberOfText s = numberOfText t := by
  rw [numberOfText_eq_readDecimal, numberOfText_eq_readDecimal, h]

/-- A list of numbers that is given as a text is read as one. -/
theorem numbersOf_text (s : String) : numbersOf (.text s) = .ok (numbersOfText s.toList) := by
  have htrue : (Value.text s).isTrue = !s.isEmpty := rfl
  unfold numbersOf
  rw [htrue]
  cases hempty : s.isEmpty with
  | false => rfl
  | true =>
    obtain rfl : s = "" := String.isEmpty_iff.1 hempty
    rfl

end BucketStats.Settings

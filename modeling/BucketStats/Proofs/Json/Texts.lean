import BucketStats.Proofs.Json.Reader
import BucketStats.Proofs.Text.Utf8
import BucketStats.Text.JsonString
import Mathlib.Tactic
/-!
# Texts in JSON read back

A text that was written in ASCII is read back with all its characters.  Each character is written as
its UTF-16 code units or in a way that stands for them, and the code units are read one by one.
-/

namespace BucketStats.Document

open Text

/-! ## Hexadecimal digits -/

theorem hexDigit?_digitChar {n : Nat} (hn : n < 16) : hexDigit? (Nat.digitChar n) = some n := by
  have hall : ∀ n : Fin 16, hexDigit? (Nat.digitChar n) = some (n : Nat) := by decide
  exact hall ⟨n, hn⟩

theorem hexValue?_append {ds : List Char} {n : Nat} (hds : hexValue? ds = some n) (d : Char) :
    hexValue? (ds ++ [d]) = (hexDigit? d).map (16 * n + ·) := by
  unfold hexValue? at hds ⊢
  rw [List.foldlM_append, hds, Option.bind_eq_bind, Option.bind_some, List.foldlM_cons]
  cases hexDigit? d <;> rfl

theorem hexValue?_zeros_append (zeros : Nat) (ds : List Char) :
    hexValue? (List.replicate zeros '0' ++ ds) = hexValue? ds := by
  induction zeros with
  | zero => rfl
  | succ zeros ih => exact ih

theorem hexValue?_toDigits (n : Nat) : hexValue? (Nat.toDigits 16 n) = some n := by
  induction n using Nat.strong_induction_on with
  | h n ih =>
    by_cases hn : n < 16
    · have hdigit := hexDigit?_digitChar hn
      rw [Nat.toDigits_of_lt_base hn]
      unfold hexValue?
      rw [List.foldlM_cons, hdigit]
      simp
    · have hdigit := hexDigit?_digitChar (Nat.mod_lt n (by decide : 0 < 16))
      rw [Nat.toDigits_of_base_le (by decide) (by omega),
        hexValue?_append (ih (n / 16) (by omega)), hdigit]
      simp [Nat.div_add_mod]

/-- Four digits hold any code unit. -/
theorem exists_hex_four {n : Nat} (hn : n < 0x10000) :
    ∃ a b c d, hex 4 n = [a, b, c, d] ∧ hexValue? [a, b, c, d] = some n := by
  have hlength : (Nat.toDigits 16 n).length ≤ 4 :=
    (Nat.length_toDigits_le_iff (by decide) (by decide)).2 hn
  have hfour : (hex 4 n).length = 4 := by
    unfold hex
    rw [List.length_append, List.length_replicate]
    omega
  have hvalue : hexValue? (hex 4 n) = some n := by
    unfold hex
    rw [hexValue?_zeros_append, hexValue?_toDigits]
  generalize hex 4 n = ds at hfour hvalue
  match ds with
  | [a, b, c, d] => exact ⟨a, b, c, d, rfl, hvalue⟩

/-! ## Code units -/

section Units

variable {c : Char} {unit : Nat}

theorem readUnits_escapeUnit (hunit : unit < 0x10000) (s : List Char) :
    readUnits (escapeUnit unit ++ s) = (readUnits s).map (Prod.map (unit :: ·) id) := by
  obtain ⟨a, b, c, d, hhex, hvalue⟩ := exists_hex_four hunit
  rw [escapeUnit, hhex]
  change readUnits ('\\' :: 'u' :: a :: b :: c :: d :: s) = _
  rw [readUnits, hvalue]
  cases readUnits s <;> rfl

theorem readUnits_escaped (hunit : escaped? c = some unit) (s : List Char) :
    readUnits ('\\' :: c :: s) = (readUnits s).map (Prod.map (unit :: ·) id) := by
  have hc : c ≠ 'u' := by
    rintro rfl
    cases hunit
  rw [readUnits]
  · rw [hunit]
    cases readUnits s <;> rfl
  · intro a b c' d rest hu
    exact absurd hu hc

theorem readUnits_plain (hquote : c ≠ doubleQuote) (hbackslash : c ≠ '\\') (hc : 0x20 ≤ c.toNat)
    (s : List Char) : readUnits (c :: s) = (readUnits s).map (Prod.map (utf16 c ++ ·) id) := by
  rw [readUnits]
  · rw [if_neg (by simpa using hquote), if_neg (Nat.not_lt.2 hc)]
    cases readUnits s <;> rfl
  · intro a b c' d rest hb
    exact absurd hb hbackslash
  · intro c' rest hb
    exact absurd hb hbackslash

theorem utf16_of_lt (hc : c.toNat < 0x10000) : utf16 c = [c.toNat] :=
  if_pos hc

theorem readUnits_escapeUnits (c : Char) (s : List Char) :
    readUnits (escapeUnits c ++ s) = (readUnits s).map (Prod.map (utf16 c ++ ·) id) := by
  have hmax : c.toNat < 0x110000 := (toNat_char c).elim (by omega) (·.2)
  unfold escapeUnits utf16
  split_ifs with hsmall
  · rw [readUnits_escapeUnit hsmall]
    rfl
  · dsimp only
    rw [List.append_assoc, readUnits_escapeUnit (by omega), readUnits_escapeUnit (by omega)]
    cases readUnits s <;> rfl

/-- However a character is written, its code units are read. -/
theorem readUnits_escapeJson (c : Char) (s : List Char) :
    readUnits (escapeJson c ++ s) = (readUnits s).map (Prod.map (utf16 c ++ ·) id) := by
  have hshort {unit : Nat} {letter : Char} (hletter : escaped? letter = some unit)
      (hc : utf16 c = [unit]) :
      readUnits (['\\', letter] ++ s) = (readUnits s).map (Prod.map (utf16 c ++ ·) id) := by
    rw [hc]
    exact readUnits_escaped hletter s
  have hutf16 {n : Nat} (hn : n < 0x10000) (hc : c.toNat = n) : utf16 c = [n] := by
    rw [utf16_of_lt (hc ▸ hn), hc]
  unfold escapeJson
  split_ifs with hmark hfeed hreturn htab hbackspace hform hplain
  · have hescaped : escaped? c = some c.toNat := by
      unfold escaped?
      rw [if_pos (by rw [hmark]; rfl)]
    have hsmall : c.toNat < 0x10000 := by
      simp only [Bool.or_eq_true, beq_iff_eq] at hmark
      rcases hmark with rfl | rfl <;> decide
    exact hshort hescaped (utf16_of_lt hsmall)
  · exact hshort rfl (hutf16 (by decide) (congrArg Char.toNat (eq_of_beq hfeed)))
  · exact hshort rfl (hutf16 (by decide) (congrArg Char.toNat (eq_of_beq hreturn)))
  · exact hshort rfl (hutf16 (by decide) (congrArg Char.toNat (eq_of_beq htab)))
  · exact hshort rfl (hutf16 (by decide) (eq_of_beq hbackspace))
  · exact hshort rfl (hutf16 (by decide) (eq_of_beq hform))
  · simp only [Bool.or_eq_true, beq_iff_eq, not_or] at hmark
    simp only [Bool.and_eq_true, decide_eq_true_eq] at hplain
    exact readUnits_plain hmark.1 hmark.2 hplain.1 s
  · exact readUnits_escapeUnits c s

theorem readUnits_flatMap (chars s : List Char) :
    readUnits (chars.flatMap escapeJson ++ doubleQuote :: s) = some (chars.flatMap utf16, s) := by
  induction chars with
  | nil =>
    rw [List.flatMap_nil, List.nil_append, readUnits]
    · exact if_pos rfl
    · intro a b c d rest hquote
      cases hquote
    · intro c rest hquote
      cases hquote
  | cons c rest ih =>
    rw [List.flatMap_cons, List.append_assoc, readUnits_escapeJson, ih]
    rfl

/-- The code units of a character are that character again. -/
theorem ofUtf16_utf16 (c : Char) (units : List Nat) :
    ofUtf16 (utf16 c ++ units) = (ofUtf16 units).map (c :: ·) := by
  have hvalid := toNat_char c
  have hc : Char.ofNat c.toNat = c := Char.ofNat_toNat c
  unfold utf16
  generalize c.toNat = n at hvalid hc
  split_ifs with hsmall
  · have hbasic : (decide (n < 0xd800) || decide (0xe000 ≤ n)) = true := by
      rw [Bool.or_eq_true, decide_eq_true_eq, decide_eq_true_eq]
      omega
    rw [List.cons_append, List.nil_append, ofUtf16.eq_def]
    dsimp only
    rw [if_pos hbasic, hc]
  · have hhigh : ¬ (decide (0xd800 + (n - 0x10000) / 0x400 < 0xd800) ||
        decide (0xe000 ≤ 0xd800 + (n - 0x10000) / 0x400)) = true := by
      rw [Bool.or_eq_true, decide_eq_true_eq, decide_eq_true_eq]
      omega
    have hpair : (decide (0xd800 + (n - 0x10000) / 0x400 < 0xdc00) &&
        decide (0xdc00 ≤ 0xdc00 + (n - 0x10000) % 0x400) &&
        decide (0xdc00 + (n - 0x10000) % 0x400 < 0xe000)) = true := by
      simp only [Bool.and_eq_true, decide_eq_true_eq]
      omega
    have hvalue : 0x10000 + (0xd800 + (n - 0x10000) / 0x400 - 0xd800) * 0x400 +
        (0xdc00 + (n - 0x10000) % 0x400 - 0xdc00) = n := by
      omega
    dsimp only
    rw [List.cons_append, List.cons_append, List.nil_append, ofUtf16.eq_def]
    dsimp only
    rw [if_neg hhigh, if_pos hpair, hvalue, hc]

theorem ofUtf16_flatMap (chars : List Char) : ofUtf16 (chars.flatMap utf16) = some chars := by
  induction chars with
  | nil => rfl
  | cons c rest ih => rw [List.flatMap_cons, ofUtf16_utf16, ih, Option.map_some]

/-- A text is read back up to its closing quote. -/
theorem readText_flatMap (s : String) (rest : List Char) :
    readText (s.toList.flatMap escapeJson ++ doubleQuote :: rest) = some (s, rest) := by
  unfold readText
  simp only [readUnits_flatMap, ofUtf16_flatMap, Option.bind_eq_bind, Option.bind_some,
    String.ofList_toList]

end Units

/-! ## ASCII -/

section Ascii

variable {c : Char}

/-- Whether a character is one of ASCII. -/
def IsAscii (c : Char) : Prop :=
  c.toNat < 0x80

instance (c : Char) : Decidable (IsAscii c) :=
  inferInstanceAs (Decidable (_ < _))

theorem isAscii_of_mem_toDigits {n : Nat} (hc : c ∈ Nat.toDigits 16 n) : IsAscii c := by
  have hdigit {k : Nat} (hk : k < 16) : IsAscii (Nat.digitChar k) := by
    have hall : ∀ k : Fin 16, IsAscii (Nat.digitChar k) := by decide
    exact hall ⟨k, hk⟩
  induction n using Nat.strong_induction_on with
  | h n ih =>
    by_cases hn : n < 16
    · rw [Nat.toDigits_of_lt_base hn, List.mem_singleton] at hc
      rw [hc]
      exact hdigit hn
    · rw [Nat.toDigits_of_base_le (by decide) (by omega), List.mem_append,
        List.mem_singleton] at hc
      rcases hc with hc | hc
      · exact ih (n / 16) (by omega) hc
      · rw [hc]
        exact hdigit (Nat.mod_lt n (by decide))

theorem isAscii_of_mem_escapeUnit {n : Nat} (hc : c ∈ escapeUnit n) : IsAscii c := by
  unfold escapeUnit hex at hc
  rw [List.mem_cons, List.mem_cons, List.mem_append] at hc
  rcases hc with rfl | rfl | hc | hc
  · decide
  · decide
  · rw [List.eq_of_mem_replicate hc]
    decide
  · exact isAscii_of_mem_toDigits hc

/-- However a character is written, only characters of ASCII are. -/
theorem isAscii_of_mem_escapeJson {c' : Char} (hc : c ∈ escapeJson c') : IsAscii c := by
  have hpair {letter : Char} (hletter : IsAscii letter) (hc : c ∈ ['\\', letter]) : IsAscii c := by
    rw [List.mem_cons, List.mem_singleton] at hc
    rcases hc with rfl | rfl
    · decide
    · exact hletter
  unfold escapeJson at hc
  split_ifs at hc with hmark hfeed hreturn htab hbackspace hform hplain
  · refine hpair ?_ hc
    simp only [Bool.or_eq_true, beq_iff_eq] at hmark
    rcases hmark with rfl | rfl <;> decide
  · exact hpair (by decide) hc
  · exact hpair (by decide) hc
  · exact hpair (by decide) hc
  · exact hpair (by decide) hc
  · exact hpair (by decide) hc
  · rw [List.mem_singleton.1 hc]
    simp only [Bool.and_eq_true, decide_eq_true_eq] at hplain
    exact hplain.2.trans (by decide)
  · unfold escapeUnits at hc
    split_ifs at hc
    · exact isAscii_of_mem_escapeUnit hc
    · rcases List.mem_append.1 hc with hc | hc
      · exact isAscii_of_mem_escapeUnit hc
      · exact isAscii_of_mem_escapeUnit hc

end Ascii

end BucketStats.Document

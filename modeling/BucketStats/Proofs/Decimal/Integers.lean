import BucketStats.Proofs.Text.Trimmed
import BucketStats.Value.Printer
import Mathlib.Tactic
/-!
# Decimal texts of integers

An integer within the limit of digits is written, and reading its text gives the integer back.
-/

namespace BucketStats

theorem Text.digitValue?_of_isDigit {c : Char} (h : c.isDigit = true) :
    Text.digitValue? c = some (c.toNat - 0x30) := by
  obtain ⟨hlow, hhigh⟩ := Char.isDigit_iff_toNat.1 h
  have hfirst : (decide (0x30 ≤ c.toNat) && decide (c.toNat < 0x30 + 10)) = true := by
    rw [Bool.and_eq_true, decide_eq_true_eq, decide_eq_true_eq]
    exact ⟨hlow, Nat.lt_succ_of_le hhigh⟩
  have hzeros : Text.digitZeros = 0x30 :: Text.digitZeros.tail := rfl
  unfold Text.digitValue?
  rw [hzeros, List.find?_cons]
  simp only [hfirst]
  rfl

theorem tenPow_le_tenPow {m n : Nat} (hle : m ≤ n) : tenPow m ≤ tenPow n :=
  Nat.pow_le_pow_right (by decide) hle

namespace Decimal

/-! ## Digits -/

theorem digits_ne_nil (n : Nat) : digits n ≠ [] :=
  Nat.toDigits_ne_nil

theorem isDigit_of_mem_digits {n : Nat} {c : Char} (h : c ∈ digits n) : c.isDigit = true :=
  Nat.isDigit_of_mem_toDigits (by decide) (by decide) h

theorem isDigit_of_mem_zeros {n : Nat} {ds : List Char} (hdigits : ∀ c ∈ ds, c.isDigit = true) :
    ∀ c ∈ List.replicate n '0' ++ ds, c.isDigit = true := by
  intro c hc
  rcases List.mem_append.1 hc with hzero | hc
  · rw [List.eq_of_mem_replicate hzero]
    rfl
  · exact hdigits c hc

theorem valueOf_digits (n : Nat) : valueOf (digits n) = n :=
  Nat.ofDigitChars_ten_toDigits

/-- Different numbers have different digits. -/
theorem toString_nat_injective : Function.Injective fun n : Nat ↦ toString n := by
  intro m n h
  have hdigits : (toString m).toList = (toString n).toList := congrArg String.toList h
  rw [Nat.toString_eq_repr, Nat.toList_repr, Nat.toString_eq_repr, Nat.toList_repr] at hdigits
  calc
    m = valueOf (digits m) := (valueOf_digits m).symm
    _ = valueOf (digits n) := congrArg valueOf hdigits
    _ = n := valueOf_digits n

theorem length_digits_le_iff {n k : Nat} (hk : 0 < k) : (digits n).length ≤ k ↔ n < tenPow k :=
  Nat.length_toDigits_le_iff (by decide) hk

/-! ## Values of digits -/

section Digits

variable {ds : List Char}

theorem valueOf_append (ds es : List Char) :
    valueOf (ds ++ es) = valueOf ds * 10 ^ es.length + valueOf es := by
  have happend : valueOf (ds ++ es) = Nat.ofDigitChars 10 es (valueOf ds) :=
    Nat.ofDigitChars_append 0
  rw [happend, Nat.ofDigitChars_eq_ofDigitChars_zero, Nat.mul_comm]
  rfl

theorem valueOf_zeros_append (n : Nat) (ds : List Char) :
    valueOf (List.replicate n '0' ++ ds) = valueOf ds := by
  have hzeros : valueOf (List.replicate n '0') = 10 ^ n * 0 := Nat.ofDigitChars_replicate_zero
  rw [valueOf_append, hzeros, Nat.mul_zero, Nat.zero_mul, Nat.zero_add]

theorem valueOf_append_zeros (ds : List Char) (n : Nat) :
    valueOf (ds ++ List.replicate n '0') = valueOf ds * 10 ^ n := by
  have hzeros := valueOf_zeros_append n []
  rw [List.append_nil] at hzeros
  rw [valueOf_append, hzeros, List.length_replicate]
  rfl

theorem valueOf_lt (hdigits : ∀ c ∈ ds, c.isDigit = true) : valueOf ds < 10 ^ ds.length := by
  induction ds using List.reverseRecOn with
  | nil => decide
  | append_singleton ds d ih =>
    have hd : 0x30 ≤ d.toNat ∧ d.toNat ≤ 0x39 :=
      Char.isDigit_iff_toNat.1 (hdigits d (by simp))
    have hrest := ih fun c hc ↦ hdigits c (by simp [hc])
    have hlast : valueOf [d] = d.toNat - 0x30 := Nat.zero_add _
    rw [valueOf_append, hlast, List.length_append, List.length_singleton, pow_succ]
    omega

theorem valueOf_dropWhile_zeros (ds : List Char) :
    valueOf (ds.dropWhile (· == '0')) = valueOf ds := by
  induction ds with
  | nil => rfl
  | cons d rest ih =>
    by_cases hd : d = '0'
    · subst hd
      rw [List.dropWhile_cons_of_pos (by decide), ih]
      exact (valueOf_zeros_append 1 rest).symm
    · rw [List.dropWhile_cons_of_neg (by simpa using hd)]

/-- Without leading zeros the first digit counts. -/
theorem le_valueOf {d : Char} (hdigit : d.isDigit = true) (hd : d ≠ '0') (rest : List Char) :
    10 ^ rest.length ≤ valueOf (d :: rest) := by
  have hrange : 0x30 ≤ d.toNat ∧ d.toNat ≤ 0x39 := Char.isDigit_iff_toNat.1 hdigit
  have hne : d.toNat ≠ 0x30 := fun h ↦ hd (Char.toNat_inj.1 h)
  have hfirst : valueOf [d] = d.toNat - 0x30 := Nat.zero_add _
  have hsplit : valueOf (d :: rest) = valueOf [d] * 10 ^ rest.length + valueOf rest :=
    valueOf_append [d] rest
  calc
    10 ^ rest.length = 1 * 10 ^ rest.length := (Nat.one_mul _).symm
    _ ≤ valueOf [d] * 10 ^ rest.length := Nat.mul_le_mul_right _ (by omega)
    _ ≤ valueOf (d :: rest) := by omega

end Digits

/-- The digits of a positive number do not begin with a zero. -/
theorem head?_digits_ne_zero {n : Nat} (hn : 0 < n) : (digits n).head? ≠ some '0' := by
  intro hzero
  obtain ⟨rest, hdigits⟩ := List.head?_eq_some_iff.1 hzero
  have hvalue : valueOf rest = n := by
    calc
      valueOf rest = valueOf ('0' :: rest) := (valueOf_zeros_append 1 rest).symm
      _ = n := by rw [← hdigits, valueOf_digits]
  have hall : ∀ c ∈ rest, c.isDigit = true := by
    intro c hc
    apply isDigit_of_mem_digits (n := n)
    rw [hdigits]
    exact List.mem_cons_of_mem '0' hc
  have hlt : n < 10 ^ rest.length := hvalue ▸ valueOf_lt hall
  have hlength : 0 < rest.length := by
    rw [Nat.pos_iff_ne_zero]
    intro hnil
    rw [hnil, pow_zero] at hlt
    omega
  have hle := (length_digits_le_iff hlength).2 hlt
  rw [hdigits, List.length_cons] at hle
  omega

/-! ## Limits -/

/-- Whether an integer has no more digits than can be read and written. -/
def WithinLimit (n : Int) : Prop :=
  (digits n.natAbs).length ≤ integerDigitLimit

instance (n : Int) : Decidable (WithinLimit n) :=
  inferInstanceAs (Decidable (_ ≤ _))

theorem withinLimit_of_lt {n : Nat} (digitLimit : Nat) (hlimit : digitLimit ≤ integerDigitLimit)
    (hn : n < tenPow digitLimit) : WithinLimit n :=
  (length_digits_le_iff (by decide)).2 (hn.trans_le (tenPow_le_tenPow hlimit))

theorem withinLimit_of_le {m n : Nat} (hle : m ≤ n) (hn : WithinLimit n) : WithinLimit m :=
  withinLimit_of_lt integerDigitLimit le_rfl
    (hle.trans_lt ((length_digits_le_iff (by decide)).1 hn))

theorem toList_toString (n : Int) :
    (toString n).toList = signed (decide (n < 0)) (digits n.natAbs) := by
  rw [Int.toString_eq_repr, Int.repr_eq_if]
  by_cases hneg : n < 0
  · have habs : (-n).toNat = n.natAbs := by omega
    rw [if_neg (Int.not_le.2 hneg), habs, decide_eq_true hneg]
    simp [signed, digits]
  · have habs : n.toNat = n.natAbs := by omega
    rw [if_pos (Int.not_lt.1 hneg), habs, decide_eq_false hneg]
    simp [signed, digits]

/-! ## Reading -/

section Plain

variable {s : List Char} {c : Char}

/-- Whether a character stands for itself in a numeral: it is visible, in ASCII and no underscore. -/
def IsInk (c : Char) : Prop :=
  0x20 < c.toNat ∧ c.toNat < 0x7f ∧ c ≠ '_'

instance (c : Char) : Decidable (IsInk c) :=
  inferInstanceAs (Decidable (_ ∧ _ ∧ _))

theorem isNumeralBlank_of_isInk (h : IsInk c) : Text.isNumeralBlank c = false := by
  obtain ⟨hlow, hhigh, _⟩ := h
  simp only [Text.isNumeralBlank, Text.isWideBlank, Bool.or_eq_false_iff, Bool.and_eq_false_iff,
    beq_eq_false_iff_ne, decide_eq_false_iff_not]
  omega

theorem joinDigits_of_isInk (h : ∀ c ∈ s, IsInk c) (afterDigit : Bool) :
    joinDigits afterDigit s = some s := by
  induction s generalizing afterDigit with
  | nil => rfl
  | cons c rest ih =>
    obtain ⟨hc, hrest⟩ := List.forall_mem_cons.1 h
    rw [joinDigits, ih hrest]
    · rfl
    · exact hc.2.2

theorem numeralChars_of_isInk (h : ∀ c ∈ s, IsInk c) : numeralChars s = some s := by
  have htrim : Text.trimBy Text.isNumeralBlank s = s :=
    Text.trimBy_eq_self fun c hc ↦ isNumeralBlank_of_isInk (h c hc)
  have hplain : ∀ c ∈ s, plainDigit c = c := by
    intro c hc
    unfold plainDigit
    exact if_pos (h c hc).2.1
  have hmap : s.map plainDigit = s.map id := List.map_congr_left hplain
  rw [numeralChars, htrim, hmap, List.map_id, joinDigits_of_isInk h]

theorem isInk_of_isDigit (h : c.isDigit = true) : IsInk c := by
  have hrange : 0x30 ≤ c.toNat ∧ c.toNat ≤ 0x39 := Char.isDigit_iff_toNat.1 h
  refine ⟨by omega, by omega, ?_⟩
  rintro rfl
  exact absurd h (by decide)

/-- Whether a character is a decimal digit in ASCII or the sign of a negative number. -/
def IsPlain (c : Char) : Prop :=
  c = '-' ∨ c.isDigit = true

theorem isInk_of_isPlain (h : IsPlain c) : IsInk c := by
  rcases h with rfl | h
  · decide
  · exact isInk_of_isDigit h

end Plain

theorem splitSign_of_ne {c : Char} (hminus : c ≠ '-') (hplus : c ≠ '+') (rest : List Char) :
    splitSign (c :: rest) = (false, c :: rest) := by
  unfold splitSign
  split
  · simp_all
  · simp_all
  · rfl

/-- A sign before a digit is split off again. -/
theorem splitSign_signed (negative : Bool) {d : Char} (hd : d.isDigit = true) (rest : List Char) :
    splitSign (signed negative (d :: rest)) = (negative, d :: rest) := by
  cases negative with
  | true => rfl
  | false =>
    apply splitSign_of_ne
    · rintro rfl
      exact absurd hd (by decide)
    · rintro rfl
      exact absurd hd (by decide)

theorem splitSign_digits (negative : Bool) (n : Nat) :
    splitSign (signed negative (digits n)) = (negative, digits n) := by
  cases hdigits : digits n with
  | nil => exact absurd hdigits (digits_ne_nil n)
  | cons d rest =>
    exact splitSign_signed negative (isDigit_of_mem_digits (hdigits ▸ List.mem_cons_self)) rest

/-- The text of an integer is read as that integer, unless it has too many digits. -/
theorem readInteger_toString (n : Int) :
    readInteger (toString n).toList = if WithinLimit n then some n else none := by
  have hplain : ∀ c ∈ (toString n).toList, IsPlain c := by
    rw [toList_toString]
    intro c hc
    cases hneg : decide (n < 0) with
    | true =>
      rw [hneg] at hc
      rcases List.mem_cons.1 hc with rfl | hc
      · exact .inl rfl
      · exact .inr (isDigit_of_mem_digits hc)
    | false =>
      rw [hneg] at hc
      exact .inr (isDigit_of_mem_digits hc)
  have hall : (digits n.natAbs).all Char.isDigit = true :=
    List.all_eq_true.2 fun c hc ↦ isDigit_of_mem_digits hc
  have hempty : (digits n.natAbs).isEmpty = false :=
    List.isEmpty_eq_false_iff.2 (digits_ne_nil _)
  have hvalue : (if decide (n < 0) then -(n.natAbs : Int) else n.natAbs) = n := by
    by_cases hneg : n < 0
    · rw [decide_eq_true hneg, if_pos rfl]
      omega
    · rw [decide_eq_false hneg, if_neg Bool.false_ne_true]
      omega
  rw [readInteger, numeralChars_of_isInk fun c hc ↦ isInk_of_isPlain (hplain c hc),
    Option.bind_eq_bind, Option.bind_some, toList_toString, splitSign_digits]
  simp only [hall, hempty, valueOf_digits, hvalue]
  by_cases hlimit : WithinLimit n
  · have hlength : ¬ integerDigitLimit < (digits n.natAbs).length := Nat.not_lt.2 hlimit
    rw [if_pos hlimit, decide_eq_false hlength]
    rfl
  · have hlength : integerDigitLimit < (digits n.natAbs).length := Nat.not_le.1 hlimit
    rw [if_neg hlimit, decide_eq_true hlength]
    rfl

/-- What is read as an integer can be written again. -/
theorem withinLimit_of_readInteger {s : List Char} {n : Int} (h : readInteger s = some n) :
    WithinLimit n := by
  obtain ⟨chars, _, h⟩ := Option.bind_eq_some_iff.1 h
  generalize splitSign chars = signed at h
  obtain ⟨negative, ds⟩ := signed
  dsimp only at h
  split at h
  · cases h
  · rename_i hspoilt
    simp only [Bool.or_eq_true, Bool.not_eq_true', decide_eq_true_eq, not_or, Bool.not_eq_false,
      Nat.not_lt] at hspoilt
    obtain ⟨⟨_, hdigits⟩, hlength⟩ := hspoilt
    have habs : n.natAbs = valueOf ds := by
      rw [← Option.some.inj h]
      split
      · rw [Int.natAbs_neg, Int.natAbs_natCast]
      · rw [Int.natAbs_natCast]
    rw [WithinLimit, length_digits_le_iff (by decide), habs]
    calc
      valueOf ds < tenPow ds.length := valueOf_lt (List.all_eq_true.1 hdigits)
      _ ≤ tenPow integerDigitLimit := tenPow_le_tenPow hlength

end Decimal

theorem integerText_eq_ok_iff {n : Int} {s : String} :
    integerText n = .ok s ↔ Decimal.WithinLimit n ∧ s = toString n := by
  have hlimit : Decimal.WithinLimit n ↔ n.natAbs < tenPow Decimal.integerDigitLimit :=
    Decimal.length_digits_le_iff (by decide)
  have htext : String.ofList (Decimal.signed (decide (n < 0)) (Decimal.digits n.natAbs)) =
      toString n := by
    rw [← Decimal.toList_toString, String.ofList_toList]
  unfold integerText
  rw [htext, hlimit]
  by_cases hlt : n.natAbs < tenPow Decimal.integerDigitLimit
  · rw [if_pos hlt, and_iff_right hlt, Except.ok.injEq, eq_comm]
  · rw [if_neg hlt]
    constructor
    · intro h
      cases h
    · rintro ⟨hlt', _⟩
      exact absurd hlt' hlt

end BucketStats

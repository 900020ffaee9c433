import BucketStats.Decimal.Places
import BucketStats.Proofs.Binary64.Nearest
import BucketStats.Proofs.Decimal.Integers
/-!
# Decimals of a fixed length

A magnitude written with a number of places is a whole number of steps of that power of ten, and the
one nearest to the magnitude; of two as near it is the even one.  Any number of places past the last
digit of the exact magnitude changes nothing but the zeros at the end.
-/

namespace BucketStats.Decimal

/-! ## Digits around a point -/

/-- The digits of a number, filled with zeros to a width. -/
def padded (width n : Nat) : List Char :=
  List.replicate (width - (digits n).length) '0' ++ digits n

theorem digits_of_lt_ten {d : Nat} (hd : d < 10) : digits d = [d.digitChar] :=
  Nat.toDigits_of_lt_base hd

theorem digits_append {n d : Nat} (hn : 0 < n) (hd : d < 10) :
    digits (10 * n + d) = digits n ++ [d.digitChar] := by
  unfold digits
  rw [← Nat.toDigits_append_toDigits (by decide) hn hd, Nat.toDigits_of_lt_base hd]

theorem padded_one (n : Nat) : padded 1 n = digits n := by
  have hlength : 1 ≤ (digits n).length := List.length_pos_iff.2 (digits_ne_nil n)
  unfold padded
  rw [Nat.sub_eq_zero_of_le hlength, List.replicate_zero, List.nil_append]

theorem padded_append (width n : Nat) {d : Nat} (hd : d < 10) :
    padded (width + 2) (10 * n + d) = padded (width + 1) n ++ [d.digitChar] := by
  unfold padded
  rcases Nat.eq_zero_or_pos n with rfl | hn
  · rw [Nat.mul_zero, Nat.zero_add, digits_of_lt_ten hd, digits_of_lt_ten (by decide : 0 < 10)]
    simp [List.replicate_succ']
  · have hfilling : width + 2 - ((digits n).length + 1) = width + 1 - (digits n).length := by omega
    rw [digits_append hn hd, List.length_append, List.length_singleton, hfilling, List.append_assoc]

theorem length_padded {width n : Nat} (hlt : n < tenPow (width + 1)) :
    (padded (width + 1) n).length = width + 1 := by
  have hlength : (digits n).length ≤ width + 1 := (length_digits_le_iff (by omega)).2 hlt
  unfold padded
  rw [List.length_append, List.length_replicate, Nat.sub_add_cancel hlength]

theorem padded_split (n places : Nat) :
    padded (places + 2) n =
      digits (n / tenPow (places + 1)) ++ padded (places + 1) (n % tenPow (places + 1)) := by
  have hsplit := Nat.div_add_mod n 10
  have hdigit : n % 10 < 10 := Nat.mod_lt n (by decide)
  induction places generalizing n with
  | zero =>
    have hten : tenPow (0 + 1) = 10 := rfl
    rw [hten, padded_one, digits_of_lt_ten hdigit, ← padded_one (n / 10), ← padded_append 0 _ hdigit,
      hsplit]
  | succ places ih =>
    have hpow : tenPow (places + 1 + 1) = 10 * tenPow (places + 1) := Nat.pow_succ'
    have hrest : 10 * (n / 10 % tenPow (places + 1)) + n % 10 = n % tenPow (places + 1 + 1) := by
      rw [hpow, Nat.mod_mul, Nat.add_comm]
    rw [← hrest, padded_append _ _ hdigit, ← List.append_assoc, hpow, ← Nat.div_div_eq_div_mul,
      ← ih (n / 10) (Nat.div_add_mod _ 10) (Nat.mod_lt _ (by decide)), ← padded_append _ _ hdigit,
      hsplit]

/-- Before the point stand the digits of the whole part, and after it those of the rest, filled to
the number of places. -/
theorem pointed_succ (n places : Nat) :
    pointed n (places + 1) =
      (digits (n / tenPow (places + 1)), padded (places + 1) (n % tenPow (places + 1))) := by
  have hlength : (padded (places + 1) (n % tenPow (places + 1))).length = places + 1 :=
    length_padded (Nat.mod_lt _ (tenPow_pos _))
  have hpadded : List.replicate (places + 1 + 1 - (digits n).length) '0' ++ digits n =
      digits (n / tenPow (places + 1)) ++ padded (places + 1) (n % tenPow (places + 1)) :=
    padded_split n places
  simp only [pointed, hpadded]
  rw [List.length_append, hlength, Nat.add_sub_cancel, List.take_left, List.drop_left]

theorem pointed_zero (n : Nat) : pointed n 0 = (digits n, []) := by
  have hpadded : List.replicate (0 + 1 - (digits n).length) '0' ++ digits n = digits n :=
    padded_one n
  simp only [pointed, hpadded]
  rw [Nat.sub_zero, List.take_length, List.drop_length]

/-! ## Rounded magnitudes -/

/-- Whether a whole number is the one nearest to a number, or the even one of the two nearest. -/
structure IsRounded (x : ℚ) (n : Nat) : Prop where
  error_le : |x - n| ≤ 1 / 2
  even_of_tie : |x - n| = 1 / 2 → n % 2 = 0

/-- A whole number less than half a unit off is the only one to round to. -/
theorem IsRounded.eq_of_abs_sub_lt {x : ℚ} {n m : Nat} (h : IsRounded x n) (hm : |x - m| < 1 / 2) :
    n = m := by
  have hlt : |(n : ℚ) - m| < 1 := by
    calc
      |(n : ℚ) - m| ≤ |n - x| + |x - m| := abs_sub_le _ _ _
      _ = |x - n| + |x - m| := by rw [abs_sub_comm]
      _ < 1 := by linarith [h.error_le]
  have hint : |(n : Int) - m| < 1 := by exact_mod_cast hlt
  rw [Int.abs_lt_one_iff] at hint
  omega

/-- Rounding keeps the order of numbers. -/
theorem IsRounded.le_of_le {x y : ℚ} {n m : Nat} (hx : IsRounded x n) (hy : IsRounded y m)
    (hxy : x ≤ y) : n ≤ m := by
  by_contra hgt
  have hstep : (m : ℚ) + 1 ≤ n := by exact_mod_cast Nat.not_le.1 hgt
  have hlow := (abs_le.1 hx.error_le).1
  have hhigh := (abs_le.1 hy.error_le).2
  -- both numbers are the tie between the two results, which are next to each other
  have hn : x - n = -(1 / 2) := by linarith
  have hm : y - m = 1 / 2 := by linarith
  have heven := hx.even_of_tie (by rw [hn, abs_neg, abs_of_pos one_half_pos])
  have heven' := hy.even_of_tie (by rw [hm, abs_of_pos one_half_pos])
  have hnext : n = m + 1 := by
    have hcast : (n : ℚ) = m + 1 := by linarith
    exact_mod_cast hcast
  omega

theorem isRounded_roundHalfEven (num : Nat) {den : Nat} (hden : 0 < den) :
    IsRounded ((num : ℚ) / den) (roundHalfEven num den) := by
  obtain ⟨hbelow, habove⟩ := roundHalfEven_error num hden
  have hden' : (0 : ℚ) < den := Nat.cast_pos.2 hden
  have hquotient : (num : ℚ) / den * den = num := div_mul_cancel₀ _ hden'.ne'
  generalize (num : ℚ) / den = x at hquotient
  generalize roundHalfEven num den = n at hbelow habove
  have hbelow' : 2 * (x * den) + (n % 2 : Nat) ≤ 2 * (n * den) + den := by
    rw [hquotient]
    exact_mod_cast hbelow
  have habove' : 2 * ((n : ℚ) * den) + (n % 2 : Nat) ≤ 2 * (x * den) + den := by
    rw [hquotient]
    exact_mod_cast habove
  have hodd : (0 : ℚ) ≤ (n % 2 : Nat) := Nat.cast_nonneg _
  have herror : |x - n| * (2 * den) ≤ den - (n % 2 : Nat) := by
    rcases abs_cases (x - n) with ⟨habs, _⟩ | ⟨habs, _⟩
    · rw [habs]
      linarith
    · rw [habs]
      linarith
  constructor
  · apply le_of_mul_le_mul_right _ (by linarith : (0 : ℚ) < 2 * den)
    linarith
  · intro htie
    rw [htie] at herror
    have hzero : ((n % 2 : Nat) : ℚ) ≤ 0 := by linarith
    exact Nat.le_zero.1 (by exact_mod_cast hzero)

open Binary64

theorem isRounded_steps (places rank : Nat) :
    IsRounded (magnitude rank * 10 ^ places)
      (roundHalfEven (units rank * tenPow places) unitsPerOne) := by
  have hpow : ((tenPow places : Nat) : ℚ) = 10 ^ places := Nat.cast_pow 10 places
  have hquotient : magnitude rank * 10 ^ places =
      ((units rank * tenPow places : Nat) : ℚ) / unitsPerOne := by
    rw [Nat.cast_mul, hpow, magnitude, div_mul_eq_mul_div]
  rw [hquotient]
  exact isRounded_roundHalfEven _ unitsPerOne_pos

theorem tenPow_eq_mul (n : Nat) : tenPow n = Nat.pow 5 n * twoPow n :=
  Nat.mul_pow 5 2 n

/-- Past the last digit of the exact magnitude every step is a multiple of ten. -/
theorem roundHalfEven_exact (extra rank : Nat) :
    roundHalfEven (units rank * tenPow (exactPlaces + extra)) unitsPerOne =
      roundHalfEven (units rank * tenPow exactPlaces) unitsPerOne * tenPow extra := by
  have hone : twoPow exactPlaces = unitsPerOne := rfl
  have hexact : tenPow exactPlaces = Nat.pow 5 exactPlaces * unitsPerOne := by
    rw [tenPow_eq_mul, hone]
  have hshift : units rank * (Nat.pow 5 exactPlaces * unitsPerOne * tenPow extra) =
      units rank * Nat.pow 5 exactPlaces * tenPow extra * unitsPerOne := by
    rw [Nat.mul_right_comm (Nat.pow 5 exactPlaces), Nat.mul_assoc, Nat.mul_assoc, Nat.mul_assoc]
  rw [tenPow_add, hexact, hshift, ← Nat.mul_assoc, roundHalfEven_mul_right _ unitsPerOne_pos,
    roundHalfEven_mul_right _ unitsPerOne_pos]

theorem padded_mul_tenPow (width n extra : Nat) :
    padded (width + 1 + extra) (n * tenPow extra) =
      padded (width + 1) n ++ List.replicate extra '0' := by
  induction extra with
  | zero => simp [tenPow]
  | succ extra ih =>
    have hpow : n * tenPow (extra + 1) = 10 * (n * tenPow extra) + 0 := by
      rw [tenPow_add, ← Nat.mul_assoc, Nat.mul_comm]
      rfl
    have hwidth : width + 1 + (extra + 1) = width + extra + 2 := by omega
    have hwidth' : width + 1 + extra = width + extra + 1 := by omega
    rw [hpow, hwidth, padded_append _ _ (by decide), ← hwidth', ih, List.append_assoc,
      List.replicate_succ']
    rfl

/-- A magnitude is written as the nearest whole number of steps. -/
theorem fixedMagnitude_succ (places rank : Nat) :
    let steps := roundHalfEven (units rank * tenPow (places + 1)) unitsPerOne
    fixedMagnitude (places + 1) rank =
      digits (steps / tenPow (places + 1)) ++ '.' ::
        padded (places + 1) (steps % tenPow (places + 1)) := by
  intro steps
  unfold fixedMagnitude
  rcases Nat.le_total (places + 1) exactPlaces with hle | hle
  · simp only [min_eq_left hle, pointed_succ, Nat.sub_self, List.replicate_zero, List.append_nil]
    rw [if_neg (Nat.succ_ne_zero places)]
  · obtain ⟨extra, hextra⟩ := Nat.exists_eq_add_of_le hle
    have hsteps : steps =
        roundHalfEven (units rank * tenPow exactPlaces) unitsPerOne * tenPow extra := by
      rw [← roundHalfEven_exact, ← hextra]
    obtain ⟨kept, hkept⟩ : ∃ kept, exactPlaces = kept + 1 := ⟨1073, rfl⟩
    have hpow : tenPow (places + 1) = tenPow exactPlaces * tenPow extra := by
      rw [hextra, tenPow_add]
    have hwidth : places + 1 = kept + 1 + extra := by omega
    rw [hsteps, hpow, Nat.mul_div_mul_right _ _ (tenPow_pos extra), Nat.mul_mod_mul_right, hwidth,
      padded_mul_tenPow, ← hkept, min_eq_right (Nat.le_add_right _ extra)]
    have hpointed (n : Nat) : pointed n exactPlaces =
        (digits (n / tenPow exactPlaces), padded exactPlaces (n % tenPow exactPlaces)) := by
      rw [hkept, pointed_succ]
    simp only [hpointed, Nat.add_sub_cancel_left]
    rw [if_neg (by omega)]

theorem fixedMagnitude_zero (rank : Nat) :
    fixedMagnitude 0 rank = digits (roundHalfEven (units rank) unitsPerOne) := by
  have hone : units rank * tenPow 0 = units rank := Nat.mul_one _
  unfold fixedMagnitude
  simp only [Nat.zero_min, hone, pointed_zero]
  rfl

/-! ## Numerals with places -/

/-- Whether a text is the numeral of some steps of the power of ten with a number of places: digits,
a point and just so many digits, or without places digits alone. -/
def IsPlaced (places steps : Nat) (text : List Char) : Prop :=
  ∃ whole fraction, whole ≠ [] ∧ (∀ c ∈ whole ++ fraction, c.isDigit = true) ∧
    fraction.length = places ∧ valueOf (whole ++ fraction) = steps ∧
    text = if places = 0 then whole else whole ++ '.' :: fraction

/-- A text is the numeral of one number of steps. -/
theorem IsPlaced.unique {places steps steps' : Nat} {text : List Char}
    (h : IsPlaced places steps text) (h' : IsPlaced places steps' text) : steps = steps' := by
  obtain ⟨whole, fraction, -, -, hlength, rfl, htext⟩ := h
  obtain ⟨whole', fraction', -, -, hlength', rfl, htext'⟩ := h'
  rw [htext] at htext'
  by_cases hplaces : places = 0
  · rw [if_pos hplaces, if_pos hplaces] at htext'
    rw [hplaces, List.length_eq_zero_iff] at hlength hlength'
    rw [htext', hlength, hlength']
  · rw [if_neg hplaces, if_neg hplaces] at htext'
    obtain ⟨rfl, hrest⟩ := List.append_inj' htext' (by rw [List.length_cons, List.length_cons,
      hlength, hlength'])
    rw [(List.cons.inj hrest).2]

theorem valueOf_padded (width n : Nat) : valueOf (padded width n) = n := by
  rw [padded, valueOf_zeros_append, valueOf_digits]

/-- A magnitude is written as a numeral with just the places that are asked for. -/
theorem isPlaced_fixedMagnitude (places rank : Nat) :
    IsPlaced places (roundHalfEven (units rank * tenPow places) unitsPerOne)
      (fixedMagnitude places rank) := by
  cases places with
  | zero =>
    have hone : units rank * tenPow 0 = units rank := Nat.mul_one _
    refine ⟨_, [], digits_ne_nil _, ?_, rfl, ?_, fixedMagnitude_zero rank⟩
    · rw [List.append_nil]
      exact fun c hc ↦ isDigit_of_mem_digits hc
    · rw [List.append_nil, valueOf_digits, hone]
  | succ places =>
    have hlength (n : Nat) : (padded (places + 1) (n % tenPow (places + 1))).length = places + 1 :=
      length_padded (Nat.mod_lt _ (tenPow_pos _))
    refine ⟨_, _, digits_ne_nil _, ?_, hlength _, ?_, fixedMagnitude_succ places rank⟩
    · exact List.forall_mem_append.2 ⟨fun c hc ↦ isDigit_of_mem_digits hc,
        isDigit_of_mem_zeros fun c hc ↦ isDigit_of_mem_digits hc⟩
    · rw [valueOf_append, hlength, valueOf_digits, valueOf_padded]
      exact Nat.div_add_mod' _ _

end BucketStats.Decimal

import BucketStats.Proofs.Binary64.Nearest
import BucketStats.Proofs.Decimal.Integers
/-!
# Reading decimals

Digits with a scale are read as the binary64 number nearest to their exact value.  That the reader
gives up on values out of all range at once changes nothing, since these are infinite or zero anyway.
-/

namespace BucketStats.Decimal

open Binary64

/-! ## Scales -/

theorem cast_tenPow (n : Nat) : ((tenPow n : ℕ) : ℚ) = 10 ^ n :=
  Nat.cast_pow 10 n

/-- A scale is the quotient of the powers of ten on its two sides. -/
theorem tenPow_div_tenPow (scale : Int) :
    (tenPow scale.toNat : ℚ) / tenPow (-scale).toNat = 10 ^ scale := by
  rw [cast_tenPow, cast_tenPow]
  obtain ⟨n, rfl | rfl⟩ := scale.eq_nat_or_neg
  · simp
  · simp

section Scaled

variable {ds : List Char} {scale : Int} {rank : Nat}

theorem two_pow_le_ten_pow {m n : Nat} (h : m ≤ 3 * n) : (2 : ℚ) ^ m ≤ 10 ^ n := by
  calc
    (2 : ℚ) ^ m ≤ 2 ^ (3 * n) := pow_le_pow_right₀ (by norm_num) h
    _ = 8 ^ n := by
      rw [pow_mul]
      norm_num
    _ ≤ 10 ^ n := pow_le_pow_left₀ (by norm_num) (by norm_num) n

theorem magnitude_overflowRank : magnitude overflowRank = 2 ^ 1024 := by
  have hpow : (2 : ℚ) ^ 2046 = 2 ^ 1024 * 2 ^ 1022 := pow_add 2 1024 1022
  calc
    magnitude overflowRank = 2 ^ 2046 / 2 ^ 1022 := magnitude_mul_twoPow 2046
    _ = 2 ^ 1024 := by rw [hpow, mul_div_cancel_right₀ _ (pow_ne_zero 1022 two_ne_zero)]

/-- What is at least `10 ^ 400` overflows. -/
theorem overflowRank_le_of_large {x : ℚ} (hx : 10 ^ 400 ≤ x) (hnear : IsNearestRank x rank) :
    overflowRank ≤ rank := by
  apply (isNearestRank_magnitude overflowRank).le_of_le hnear
  calc
    magnitude overflowRank = 2 ^ 1024 := magnitude_overflowRank
    _ ≤ 10 ^ 400 := two_pow_le_ten_pow (by decide)
    _ ≤ x := hx

/-- What is at most `10 ^ -401` is rounded to zero. -/
theorem isNearestRank_zero_of_small {x : ℚ} (hx : x ≤ 10 ^ (-401 : Int)) : IsNearestRank x 0 := by
  have hone : magnitude 1 = 1 / 2 ^ 1074 := by
    have hunits : units 1 = 1 := rfl
    have hcast : ((unitsPerOne : ℕ) : ℚ) = 2 ^ 1074 := cast_twoPow 1074
    rw [magnitude, hunits, hcast, Nat.cast_one]
  have hpow : (2 : ℚ) * 2 ^ 1074 ≤ 10 ^ 401 := by
    rw [← pow_succ']
    exact two_pow_le_ten_pow (by decide)
  apply isNearestRank_of_midpoints
  · rw [magnitude_zero, Nat.zero_add, zero_add, hone]
    calc
      2 * x ≤ 2 * 10 ^ (-401 : Int) := mul_le_mul_of_nonneg_left hx two_pos.le
      _ = 2 / 10 ^ 401 := rfl
      _ ≤ 1 / 2 ^ 1074 := by
        rw [div_le_div_iff₀ (pow_pos (by norm_num) 401) (pow_pos two_pos 1074), one_mul]
        exact hpow
  · intro hne
    exact absurd rfl hne
  · intro hodd
    exact absurd hodd (by decide)

/-- The place of the first digit tells between which powers of ten a number lies. -/
theorem valueOf_mul_bounds {d : Char} {rest : List Char}
    (hdigits : ∀ c ∈ d :: rest, c.isDigit = true) (hd : d ≠ '0') (scale : Int) :
    (10 : ℚ) ^ (rest.length + scale) ≤ valueOf (d :: rest) * 10 ^ scale ∧
      (valueOf (d :: rest) : ℚ) * 10 ^ scale ≤ 10 ^ ((rest.length + 1 : ℕ) + scale) := by
  have hten : (10 : ℚ) ≠ 0 := by norm_num
  have hscale : (0 : ℚ) ≤ 10 ^ scale := zpow_nonneg (by norm_num) scale
  have hlow : (10 : ℚ) ^ rest.length ≤ valueOf (d :: rest) := by
    exact_mod_cast le_valueOf (hdigits d List.mem_cons_self) hd rest
  have hhigh : (valueOf (d :: rest) : ℚ) ≤ 10 ^ (rest.length + 1) := by
    have hlt := valueOf_lt hdigits
    rw [List.length_cons] at hlt
    exact_mod_cast hlt.le
  rw [zpow_add₀ hten, zpow_add₀ hten, zpow_natCast, zpow_natCast]
  exact ⟨mul_le_mul_of_nonneg_right hlow hscale, mul_le_mul_of_nonneg_right hhigh hscale⟩

/-- Digits with a scale are read as the nearest number. -/
theorem nearestBinary64_eq_ofRank (negative : Bool) (hdigits : ∀ c ∈ ds, c.isDigit = true)
    (hnear : IsNearestRank (valueOf ds * 10 ^ scale) rank) :
    nearestBinary64 negative (ds.dropWhile (· == '0')) scale = ofRank negative rank := by
  have hdigits' : ∀ c ∈ ds.dropWhile (· == '0'), c.isDigit = true :=
    fun c hc ↦ hdigits c (List.dropWhile_subset _ hc)
  rw [← valueOf_dropWhile_zeros] at hnear
  cases hdrop : ds.dropWhile (· == '0') with
  | nil =>
    have hvalue : ((valueOf [] : ℕ) : ℚ) * 10 ^ scale = magnitude 0 := by
      rw [magnitude_zero]
      exact mul_eq_zero_of_left Nat.cast_zero _
    rw [hdrop, hvalue] at hnear
    rw [← (isNearestRank_magnitude 0).unique hnear]
    rfl
  | cons d rest =>
    have hd : d ≠ '0' := by
      have hhead := List.head?_dropWhile_not (· == '0') ds
      rw [hdrop] at hhead
      simpa using hhead
    rw [hdrop] at hnear hdigits'
    obtain ⟨hlow, hhigh⟩ := valueOf_mul_bounds hdigits' hd scale
    unfold nearestBinary64
    rw [if_neg (by simp), List.length_cons]
    split_ifs with hlarge hsmall
    · have hexponent : ((400 : ℕ) : Int) ≤ rest.length + scale := by
        push_cast at hlarge ⊢
        omega
      have hx : (10 : ℚ) ^ 400 ≤ valueOf (d :: rest) * 10 ^ scale := by
        calc
          (10 : ℚ) ^ 400 = 10 ^ ((400 : ℕ) : Int) := (zpow_natCast 10 400).symm
          _ ≤ 10 ^ (rest.length + scale) := zpow_le_zpow_right₀ (by norm_num) hexponent
          _ ≤ valueOf (d :: rest) * 10 ^ scale := hlow
      unfold ofRank
      rw [dif_neg (Nat.not_lt.2 (overflowRank_le_of_large hx hnear))]
    · have hexponent : ((rest.length + 1 : ℕ) : Int) + scale ≤ -401 := by
        push_cast at hsmall ⊢
        omega
      have hx := hhigh.trans (zpow_le_zpow_right₀ (by norm_num) hexponent)
      rw [(isNearestRank_zero_of_small hx).unique hnear]
    · have hquotient : ((valueOf (d :: rest) * tenPow scale.toNat : ℕ) : ℚ) /
          (tenPow (-scale).toNat : ℕ) = valueOf (d :: rest) * 10 ^ scale := by
        rw [Nat.cast_mul, mul_div_assoc, tenPow_div_tenPow]
      have hnear' := isNearestRank_rankOfQuotient (valueOf (d :: rest) * tenPow scale.toNat)
        (tenPow_pos (-scale).toNat)
      rw [hquotient] at hnear'
      rw [ofQuotient, hnear'.unique hnear]

end Scaled

end BucketStats.Decimal

import BucketStats.Proofs.Binary64.Precision
import BucketStats.Proofs.Decimal.Places
import BucketStats.Proofs.Decimal.Shortest
import Mathlib.Algebra.Order.Floor.Semifield
import Mathlib.Data.Int.Log
/-!
# Decimals of few significant digits

A number is written with some significant digits by rounding it to the grid of decimals on which its
leading digit is the first of them.  Up to fifteen digits a decimal that has no more than these is
recovered from the binary64 number nearest to it: it lies on the grid, and the error of binary64 is
less than half a step of the grid.
-/

namespace BucketStats.Decimal

open Binary64

/-! ## Leading digits -/

section Leading

variable {num den : Nat}

/-- A quotient in steps of a power of ten is a quotient of whole numbers again. -/
theorem scaled_quotient (num den : Nat) (scale : Int) :
    ((num * tenPow (-scale).toNat : ℕ) : ℚ) / (den * tenPow scale.toNat : ℕ) =
      num / den / 10 ^ scale := by
  rw [← tenPow_div_tenPow, Nat.cast_mul, Nat.cast_mul, div_div_div_eq, mul_comm]

theorem floor_scaled_quotient (num den : Nat) (scale : Int) :
    num * tenPow (-scale).toNat / (den * tenPow scale.toNat) =
      ⌊(num : ℚ) / den / 10 ^ scale⌋₊ := by
  rw [← scaled_quotient, Nat.floor_div_eq_div]

theorem length_digits {n : Nat} (hn : n ≠ 0) : (digits n).length = Nat.log 10 n + 1 := by
  have hlt (k : Nat) (hk : 0 < k) : (digits n).length ≤ k ↔ Nat.log 10 n < k := by
    rw [length_digits_le_iff hk]
    exact (Nat.log_lt_iff_lt_pow (by decide) hn).symm
  apply le_antisymm
  · exact (hlt _ (Nat.succ_pos _)).2 (Nat.lt_succ_self _)
  · exact (hlt _ (List.length_pos_iff.2 (digits_ne_nil n))).1 le_rfl

theorem log_div_zpow {x : ℚ} (hx : 0 < x) (scale : Int) :
    Int.log 10 (x / 10 ^ scale) = Int.log 10 x - scale := by
  have hscale : (0 : ℚ) < 10 ^ scale := zpow_pos (by norm_num) scale
  have hlog {y : ℚ} (hy : 0 < y) (k : Int) : k ≤ Int.log 10 y ↔ 10 ^ k ≤ y :=
    (Int.zpow_le_iff_le_log (by decide) hy).symm
  apply eq_of_forall_le_iff
  intro k
  rw [hlog (div_pos hx hscale), le_div_iff₀ hscale, ← zpow_add₀ (by norm_num), ← hlog hx,
    le_sub_iff_add_le]

/-- On any grid that reaches a quotient its leading digit is found. -/
theorem leadingExponentOn_eq (num den : Nat) (scale : Int) :
    leadingExponentOn scale num den =
      if (num : ℚ) / den < 10 ^ scale then none else some (Int.log 10 ((num : ℚ) / den)) := by
  have hscale : (0 : ℚ) < 10 ^ scale := zpow_pos (by norm_num) scale
  have hzero : ⌊(num : ℚ) / den / 10 ^ scale⌋₊ = 0 ↔ (num : ℚ) / den < 10 ^ scale := by
    rw [Nat.floor_eq_zero, div_lt_one hscale]
  unfold leadingExponentOn
  simp only [floor_scaled_quotient, hzero]
  split_ifs with hsmall
  · rfl
  · have hone : 1 ≤ (num : ℚ) / den / 10 ^ scale := by
      rw [one_le_div hscale]
      exact not_lt.1 hsmall
    have hpos : (0 : ℚ) < num / den := hscale.trans_le (not_lt.1 hsmall)
    have hlog := Int.log_of_one_le_right 10 hone
    rw [log_div_zpow hpos] at hlog
    rw [length_digits (hzero.not.2 hsmall)]
    congr 1
    omega

theorem leadingExponent_eq (h : (10 : ℚ) ^ (-400 : Int) ≤ num / den) :
    leadingExponent num den = Int.log 10 ((num : ℚ) / den) := by
  unfold leadingExponent
  rw [leadingExponentOn_eq, leadingExponentOn_eq, if_neg (not_lt.2 h)]
  split_ifs with hsmall
  · rfl
  · rfl

end Leading

/-! ## Recovered decimals -/

/-- Whether a number is a decimal of at most so many significant digits. -/
def HasSignificantDigits (count : Nat) (d : ℚ) : Prop :=
  ∃ (n : Nat) (scale : Int), n < 10 ^ count ∧ d = n * 10 ^ scale

section Recovered

variable {count rank : Nat} {d x : ℚ} {scale : Int}

theorem two_mul_ten_pow_lt (hcount : count ≤ 15) : 2 * (10 : ℚ) ^ count < 2 ^ 52 := by
  calc
    2 * (10 : ℚ) ^ count ≤ 2 * 10 ^ 15 :=
      mul_le_mul_of_nonneg_left (pow_le_pow_right₀ (by norm_num) hcount) two_pos.le
    _ < 2 ^ 52 := by norm_num

/-- A decimal of few digits lies on the grid on which a number close to it has as many. -/
theorem HasSignificantDigits.exists_steps (hdigits : HasSignificantDigits count d)
    (hcount : count ≤ 15) (hclose : |x - d| ≤ d / 2 ^ 53)
    (hlow : (10 : ℚ) ^ (scale + count - 1) ≤ x) : ∃ steps : Nat, d = steps * 10 ^ scale := by
  obtain ⟨n, fine, hn, rfl⟩ := hdigits
  have hten : (10 : ℚ) ≠ 0 := by norm_num
  rcases le_or_gt scale fine with hle | hlt
  · have hsplit : (10 : ℚ) ^ fine = 10 ^ (fine - scale).toNat * 10 ^ scale := by
      rw [← zpow_natCast, ← zpow_add₀ hten]
      congr 1
      omega
    refine ⟨n * 10 ^ (fine - scale).toNat, ?_⟩
    rw [hsplit, Nat.cast_mul, Nat.cast_pow, Nat.cast_ofNat, mul_assoc]
  · -- on a finer grid alone, the number would be less than the first of its digits says
    exfalso
    have hstep : (0 : ℚ) < 10 ^ fine := zpow_pos (by norm_num) fine
    have hpower : (10 : ℚ) ^ count * 10 ^ fine ≤ 10 ^ (scale + count - 1) := by
      rw [← zpow_natCast, ← zpow_add₀ hten]
      exact zpow_le_zpow_right₀ (by norm_num) (by omega)
    have hn' : (n : ℚ) + 1 ≤ 10 ^ count := by exact_mod_cast hn
    have hlimit := two_mul_ten_pow_lt hcount
    have hless : (n : ℚ) * (1 + 1 / 2 ^ 53) < 10 ^ count := by
      linarith
    have hupper : x ≤ n * (1 + 1 / 2 ^ 53) * 10 ^ fine := by
      linarith [(abs_le.1 hclose).2]
    have hx : x < 10 ^ count * 10 ^ fine := hupper.trans_lt (mul_lt_mul_of_pos_right hless hstep)
    linarith

/-- A number close to a decimal of few digits is less than half a step off it. -/
theorem abs_div_sub_lt {steps : Nat} (hcount : count ≤ 15)
    (hclose : |x - steps * 10 ^ scale| ≤ steps * 10 ^ scale / 2 ^ 53)
    (hhigh : x < 10 ^ (scale + count)) : |x / 10 ^ scale - steps| < 1 / 2 := by
  have hscale : (0 : ℚ) < 10 ^ scale := zpow_pos (by norm_num) scale
  have hpower : (10 : ℚ) ^ (scale + count) = 10 ^ count * 10 ^ scale := by
    rw [add_comm, zpow_add₀ (by norm_num), zpow_natCast]
  have hlimit := mul_lt_mul_of_pos_right (two_mul_ten_pow_lt hcount) hscale
  have hd : (steps : ℚ) * 10 ^ scale < 2 ^ 52 * 10 ^ scale := by
    linarith [(abs_le.1 hclose).1]
  have hquotient : x / 10 ^ scale - steps = (x - steps * 10 ^ scale) / 10 ^ scale := by
    rw [sub_div, mul_div_cancel_right₀ _ hscale.ne']
  rw [hquotient, abs_div, abs_of_pos hscale, div_lt_iff₀ hscale]
  linarith

theorem significant_eq_ofScaled (count : Nat) (hrank : rank ≠ 0) :
    let scale := leadingExponent (units rank) unitsPerOne - count + 1
    significant count rank =
      .ofScaled (roundHalfEven (gridQuotient rank scale).1 (gridQuotient rank scale).2) scale :=
  if_neg hrank

theorem isRounded_gridQuotient (rank : Nat) (scale : Int) :
    IsRounded (magnitude rank / 10 ^ scale)
      (roundHalfEven (gridQuotient rank scale).1 (gridQuotient rank scale).2) := by
  rw [magnitude, ← scaled_quotient]
  exact isRounded_roundHalfEven _ (Nat.mul_pos unitsPerOne_pos (tenPow_pos _))

theorem leadingExponent_units (hrank : twoPow 52 ≤ rank) :
    leadingExponent (units rank) unitsPerOne = Int.log 10 (magnitude rank) := by
  apply leadingExponent_eq
  calc
    (10 : ℚ) ^ (-400 : Int) = 1 / 10 ^ 400 := by rw [zpow_neg, zpow_ofNat, one_div]
    _ ≤ 1 / 2 ^ 1022 :=
      one_div_le_one_div_of_le (pow_pos two_pos 1022) (two_pow_le_ten_pow (by decide))
    _ = magnitude (twoPow 52) := magnitude_twoPow.symm
    _ ≤ magnitude rank := magnitude_strictMono.monotone hrank

/-- From full precision on, a decimal of few digits is what its binary64 number is written as with
that many digits. -/
theorem value_significant (hdigits : HasSignificantDigits count d) (hcount : count ≤ 15)
    (hd : magnitude (twoPow 52) ≤ d) (hnear : IsNearestRank d rank) :
    (significant count rank).IsNumeral ∧ (significant count rank).value = d := by
  have hfull : twoPow 52 ≤ rank := (isNearestRank_magnitude _).le_of_le hnear hd
  have hrank : rank ≠ 0 := ((twoPow_pos 52).trans_le hfull).ne'
  have hclose := hnear.abs_sub_le hd
  obtain ⟨scale, hscale⟩ : ∃ scale, scale = Int.log 10 (magnitude rank) - count + 1 := ⟨_, rfl⟩
  have hlow : (10 : ℚ) ^ (scale + count - 1) ≤ magnitude rank := by
    have hfirst : scale + count - 1 = Int.log 10 (magnitude rank) := by omega
    rw [hfirst]
    exact Int.zpow_log_le_self (by decide) (magnitude_pos hrank)
  have hhigh : magnitude rank < (10 : ℚ) ^ (scale + count) := by
    have hpast : scale + count = Int.log 10 (magnitude rank) + 1 := by omega
    rw [hpast]
    exact Int.lt_zpow_succ_log_self (by decide) _
  obtain ⟨steps, rfl⟩ := hdigits.exists_steps hcount hclose hlow
  have hsteps : 0 < steps := by
    rw [Nat.pos_iff_ne_zero]
    rintro rfl
    rw [Nat.cast_zero, zero_mul] at hd
    exact absurd hd (not_le.2 (magnitude_pos (twoPow_pos 52).ne'))
  have hround := (isRounded_gridQuotient rank scale).eq_of_abs_sub_lt
    (abs_div_sub_lt hcount hclose hhigh)
  rw [significant_eq_ofScaled count hrank, leadingExponent_units hfull, ← hscale]
  simp only [hround]
  exact value_ofScaled hsteps scale

end Recovered

end BucketStats.Decimal

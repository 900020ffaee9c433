import BucketStats.Decimal.Shortest
import BucketStats.Proofs.Decimal.Scientific
import Mathlib.Data.List.TakeWhile
/-!
# Shortest decimals read back

The shortest decimal of a magnitude lies between the midpoints to the neighbouring magnitudes, so the
magnitude is the nearest one to it.  Written in full, with the sign in front, it is read as the very
number that was written.
-/

namespace BucketStats.Decimal

open Binary64

/-! ## Scaled numbers -/

theorem Scientific.isNumeral_zero : Scientific.zero.IsNumeral :=
  ⟨List.cons_ne_nil '0' [], List.forall_mem_singleton.2 rfl⟩

theorem Scientific.value_zero : Scientific.zero.value = 0 :=
  mul_eq_zero_of_left Nat.cast_zero _

section Scaled

theorem exists_zeros (ds : List Char) :
    ∃ n, ds = dropTrailingZeros ds ++ List.replicate n '0' := by
  refine ⟨(ds.reverse.takeWhile (· == '0')).length, ?_⟩
  have hzeros : ∀ c ∈ (ds.reverse.takeWhile (· == '0')).reverse, c = '0' := by
    intro c hc
    simpa using List.mem_takeWhile_imp (List.mem_reverse.1 hc)
  have hreplicate := List.eq_replicate_of_mem hzeros
  rw [List.length_reverse] at hreplicate
  rw [← hreplicate, dropTrailingZeros, ← List.reverse_append, List.takeWhile_append_dropWhile,
    List.reverse_reverse]

variable {n : Nat}

/-- A positive number of steps keeps its value without trailing zeros. -/
theorem value_ofScaled (hn : 0 < n) (scale : Int) :
    (Scientific.ofScaled n scale).IsNumeral ∧
      (Scientific.ofScaled n scale).value = n * 10 ^ scale := by
  obtain ⟨zeros, hzeros⟩ := exists_zeros (Decimal.digits n)
  have hvalue : n = valueOf (dropTrailingZeros (Decimal.digits n)) * 10 ^ zeros := by
    rw [← valueOf_append_zeros, ← hzeros, valueOf_digits]
  have hlength := congrArg List.length hzeros
  rw [List.length_append, List.length_replicate] at hlength
  have hten : (10 : ℚ) ≠ 0 := by norm_num
  refine ⟨⟨?_, ?_⟩, ?_⟩
  · intro hnil
    have hnil' : dropTrailingZeros (Decimal.digits n) = [] := hnil
    have hzero : n = 0 := by
      rw [hvalue, hnil']
      exact Nat.zero_mul _
    omega
  · intro c hc
    apply isDigit_of_mem_digits (n := n)
    rw [hzeros]
    exact List.mem_append_left _ hc
  · have hscale : scale + (Decimal.digits n).length - 1 + 1 -
        (dropTrailingZeros (Decimal.digits n)).length = zeros + scale := by omega
    have hcast : (n : ℚ) = valueOf (dropTrailingZeros (Decimal.digits n)) * 10 ^ zeros := by
      exact_mod_cast hvalue
    calc
      (Scientific.ofScaled n scale).value
        = valueOf (dropTrailingZeros (Decimal.digits n)) * 10 ^ (zeros + scale) := by
          rw [← hscale]
          rfl
      _ = valueOf (dropTrailingZeros (Decimal.digits n)) * 10 ^ zeros * 10 ^ scale := by
          rw [zpow_add₀ hten, zpow_natCast, mul_assoc]
      _ = n * 10 ^ scale := by rw [← hcast]

end Scaled

/-! ## Decimals that read back -/

section ReadsBack

variable {rank n : Nat} {scale : Int}

/-- A unit of which decimals at a scale and magnitudes are whole multiples. -/
def commonUnit (scale : Int) : ℚ :=
  (unitsPerOne : ℚ) * tenPow (-scale).toNat

theorem commonUnit_pos (scale : Int) : 0 < commonUnit scale := by
  apply mul_pos unitsPerOne_cast_pos
  exact_mod_cast tenPow_pos (-scale).toNat

theorem two_mul_decimal_mul_commonUnit (n : Nat) (scale : Int) :
    2 * (n * (10 : ℚ) ^ scale) * commonUnit scale =
      (2 * n * (unitsPerOne * tenPow scale.toNat) : ℕ) := by
  have hten : ((tenPow (-scale).toNat : ℕ) : ℚ) ≠ 0 := by
    exact_mod_cast (tenPow_pos (-scale).toNat).ne'
  rw [← tenPow_div_tenPow, commonUnit, Nat.cast_mul, Nat.cast_mul, Nat.cast_mul, Nat.cast_ofNat]
  generalize ((unitsPerOne : ℕ) : ℚ) = one
  field_simp

theorem midpoint_mul_commonUnit (r r' : Nat) (scale : Int) :
    (magnitude r + magnitude r') * commonUnit scale =
      ((units r + units r') * tenPow (-scale).toNat : ℕ) := by
  have hone := unitsPerOne_cast_pos.ne'
  unfold magnitude commonUnit
  rw [Nat.cast_mul, Nat.cast_add]
  generalize ((unitsPerOne : ℕ) : ℚ) = one at hone
  field_simp

/-- A decimal that passes the test has the rank nearest to it. -/
theorem isNearestRank_of_readsBack (h : readsBack rank scale n = true) :
    IsNearestRank (n * 10 ^ scale) rank := by
  have hunit := commonUnit_pos scale
  have htwice := two_mul_decimal_mul_commonUnit n scale
  have hbelow := midpoint_mul_commonUnit (rank - 1) rank scale
  have habove := midpoint_mul_commonUnit rank (rank + 1) scale
  unfold readsBack at h
  dsimp only at h
  generalize 2 * n * (unitsPerOne * tenPow scale.toNat) = twice at h htwice
  generalize (units (rank - 1) + units rank) * tenPow (-scale).toNat = below at h hbelow
  generalize (units rank + units (rank + 1)) * tenPow (-scale).toNat = above at h habove
  generalize commonUnit scale = unit at hunit htwice hbelow habove
  have hle : below ≤ twice ∧ twice ≤ above := by
    split at h
    · simpa using h
    · simp only [Bool.and_eq_true, decide_eq_true_eq] at h
      exact ⟨h.1.le, h.2.le⟩
  apply isNearestRank_of_midpoints
  · apply le_of_mul_le_mul_right _ hunit
    rw [htwice, habove]
    exact_mod_cast hle.2
  · intro _
    apply le_of_mul_le_mul_right _ hunit
    rw [htwice, hbelow]
    exact_mod_cast hle.1
  · intro hodd
    rw [if_neg (by omega)] at h
    simp only [Bool.and_eq_true, decide_eq_true_eq] at h
    constructor
    · intro heq
      have heq' : (twice : ℚ) = above := by rw [← htwice, heq, habove]
      have hnat : twice = above := by exact_mod_cast heq'
      omega
    · intro heq
      have heq' : (twice : ℚ) = below := by rw [← htwice, heq, hbelow]
      have hnat : twice = below := by exact_mod_cast heq'
      omega

theorem roundHalfEven_eq_or (num den : Nat) :
    roundHalfEven num den = num / den ∨ roundHalfEven num den = num / den + 1 := by
  unfold roundHalfEven
  split_ifs
  · exact .inl rfl
  · exact .inr rfl
  · rcases Nat.mod_two_eq_zero_or_one (num / den) with heven | hodd
    · rw [heven]
      exact .inl rfl
    · rw [hodd]
      exact .inr rfl

/-- A point that is found on a grid passes the test. -/
theorem readsBack_of_nearestOnGrid (h : nearestOnGrid rank scale = some n) :
    readsBack rank scale n = true := by
  unfold nearestOnGrid at h
  generalize gridQuotient rank scale = quotient at h
  obtain ⟨num, den⟩ := quotient
  dsimp only at h
  split at h
  · rename_i hlow hhigh
    rw [← Option.some.inj h]
    rcases roundHalfEven_eq_or num den with heq | heq
    · rw [heq]
      exact hlow
    · rw [heq]
      exact hhigh
  · rename_i hlow _
    rw [← Option.some.inj h]
    exact hlow
  · rename_i _ hhigh
    rw [← Option.some.inj h]
    exact hhigh
  · cases h

/-- A magnitude is a whole number of steps of the power of ten that has as many places. -/
theorem isNearestRank_exact {places : Nat} (hplaces : unitsPerOne = twoPow places) (rank : Nat) :
    IsNearestRank ((units rank * Nat.pow 5 places : ℕ) * 10 ^ (-(places : Int))) rank := by
  have hten : (10 : ℚ) ^ places = 5 ^ places * 2 ^ places := by
    rw [← mul_pow]
    norm_num
  have hcast : ((Nat.pow 5 places : ℕ) : ℚ) = 5 ^ places := Nat.cast_pow 5 places
  have hfive : (5 : ℚ) ^ places ≠ 0 := pow_ne_zero places (by norm_num)
  have hexact : ((units rank * Nat.pow 5 places : ℕ) : ℚ) * 10 ^ (-(places : Int)) =
      magnitude rank := by
    rw [zpow_neg, zpow_natCast, ← div_eq_mul_inv, Nat.cast_mul, hcast, hten, mul_comm,
      mul_div_mul_left _ _ hfive, magnitude, hplaces, cast_twoPow]
  rw [hexact]
  exact isNearestRank_magnitude rank

theorem isNearestRank_getD {found : Option (Nat × Int)} {otherwise : Nat × Int}
    (hfound : ∀ e, found = some e → IsNearestRank (e.1 * 10 ^ e.2) rank)
    (hotherwise : IsNearestRank (otherwise.1 * 10 ^ otherwise.2) rank) :
    IsNearestRank ((found.getD otherwise).1 * 10 ^ (found.getD otherwise).2) rank := by
  cases found with
  | none => exact hotherwise
  | some e => exact hfound e rfl

/-- A rank is nearest to its shortest decimal. -/
theorem isNearestRank_shortestScaled (rank : Nat) :
    IsNearestRank ((shortestScaled rank).1 * 10 ^ (shortestScaled rank).2) rank := by
  unfold shortestScaled
  -- no power of this exponent is to be evaluated
  generalize hplaces : 1074 = places
  have hone : unitsPerOne = twoPow places := by
    rw [← hplaces]
    rfl
  have hscale : (-1074 : Int) = -(places : Int) := by
    rw [← hplaces]
    rfl
  rw [hscale]
  apply isNearestRank_getD
  · intro e he
    obtain ⟨k, _, hk⟩ := List.exists_of_findSome?_eq_some he
    obtain ⟨n, hn, rfl⟩ := Option.map_eq_some_iff.1 hk
    exact isNearestRank_of_readsBack (readsBack_of_nearestOnGrid hn)
  · exact isNearestRank_exact hone rank

end ReadsBack

/-! ## Numbers written in full -/

theorem shortest_eq_ofScaled {rank : Nat} (hrank : rank ≠ 0) :
    shortest rank = .ofScaled (shortestScaled rank).1 (shortestScaled rank).2 :=
  if_neg hrank

theorem isNearestRank_shortest (rank : Nat) :
    (shortest rank).IsNumeral ∧ IsNearestRank (shortest rank).value rank := by
  by_cases hrank : rank = 0
  · subst hrank
    have hnear := isNearestRank_magnitude 0
    rw [magnitude_zero, ← Scientific.value_zero] at hnear
    exact ⟨Scientific.isNumeral_zero, hnear⟩
  · have hnear := isNearestRank_shortestScaled rank
    rw [shortest_eq_ofScaled hrank]
    generalize shortestScaled rank = scaled at hnear
    have hsteps : 0 < scaled.1 := by
      rw [Nat.pos_iff_ne_zero]
      intro hzero
      have hmagnitude : ((scaled.1 : ℕ) : ℚ) * 10 ^ scaled.2 = magnitude 0 := by
        rw [hzero, Nat.cast_zero, zero_mul, magnitude_zero]
      rw [hmagnitude] at hnear
      exact hrank (hnear.unique (isNearestRank_magnitude 0))
    obtain ⟨hnumeral, hvalue⟩ := value_ofScaled hsteps scaled.2
    rw [hvalue]
    exact ⟨hnumeral, hnear⟩

theorem isMark_of_mem_writeShortest (x : Finite) :
    ∀ c ∈ writeShortest (.finite x), IsMark c :=
  isMark_of_mem_signed (Scientific.isText_write (isNearestRank_shortest x.rank).1 fullLayout).isMark

/-- A number is read back from its shortest text, with its sign even if it is zero. -/
theorem readDecimal_writeShortest (x : Finite) :
    readDecimal (writeShortest (.finite x)) = some (.finite x) := by
  obtain ⟨hnumeral, hnear⟩ := isNearestRank_shortest x.rank
  exact Scientific.readDecimal_signed_write hnumeral hnear fullLayout

end BucketStats.Decimal

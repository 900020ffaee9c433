import BucketStats.Proofs.Binary64.Magnitude
/-!
# Rounding to the nearest magnitude

A rank is nearest to a number if no magnitude is nearer and, should another one be as near, the rank
is even.  There is one such rank for each number, it grows with the number, and it is the rank that
`rankOfQuotient` finds.  A quotient below a power of two that is in range never overflows.
-/

namespace BucketStats

/-! ## Whole numbers -/

section RoundHalfEven

variable {num den n : Nat}

/-- The result is at most half a unit off, and less if it is odd. -/
theorem roundHalfEven_error (num : Nat) {den : Nat} (hden : 0 < den) :
    2 * num + roundHalfEven num den % 2 ≤ 2 * (roundHalfEven num den * den) + den ∧
      2 * (roundHalfEven num den * den) + roundHalfEven num den % 2 ≤ 2 * num + den := by
  have hsplit := Nat.div_add_mod num den
  have hcomm := Nat.mul_comm den (num / den)
  have hlt := Nat.mod_lt num hden
  unfold roundHalfEven
  split_ifs with hbelow habove
  · constructor <;> omega
  · rw [Nat.add_mul]
    constructor <;> omega
  · rcases Nat.mod_two_eq_zero_or_one (num / den) with heven | hodd
    · rw [heven, Nat.add_zero]
      constructor <;> omega
    · rw [hodd, Nat.add_mul]
      constructor <;> omega

theorem roundHalfEven_le (hden : 0 < den) (h : num ≤ n * den) : roundHalfEven num den ≤ n := by
  have herror := (roundHalfEven_error num hden).2
  by_contra hgt
  have hstep : (n + 1) * den ≤ roundHalfEven num den * den :=
    Nat.mul_le_mul_right den (Nat.not_le.1 hgt)
  rw [Nat.add_mul] at hstep
  omega

theorem le_roundHalfEven (hden : 0 < den) (h : n * den ≤ num) : n ≤ roundHalfEven num den := by
  have herror := (roundHalfEven_error num hden).1
  by_contra hlt
  have hstep : (roundHalfEven num den + 1) * den ≤ n * den :=
    Nat.mul_le_mul_right den (Nat.not_le.1 hlt)
  rw [Nat.add_mul] at hstep
  omega

end RoundHalfEven

namespace Binary64

/-! ## The rank of a quotient -/

/-- The shift of a quotient is zero or brings its significand to at least 53 bits, and no more. -/
theorem shift_bounds (scaled : Nat) {den : Nat} (hden : 0 < den) :
    let shift := (scaled / den).log2 - 52
    scaled ≤ 2 * twoPow 52 * (den * twoPow shift) ∧
      (shift = 0 ∨ twoPow 52 * (den * twoPow shift) ≤ scaled) := by
  intro shift
  have hdiv := Nat.div_add_mod scaled den
  have hmod := Nat.mod_lt scaled hden
  constructor
  · have hlog : scaled / den < twoPow ((scaled / den).log2 + 1) := Nat.lt_log2_self
    have hpow : twoPow ((scaled / den).log2 + 1) ≤ 2 * twoPow 52 * twoPow shift := by
      rw [← twoPow_succ, ← twoPow_add]
      exact twoPow_le_twoPow (by omega)
    calc
      scaled ≤ den * (scaled / den + 1) := by
        rw [Nat.mul_add, Nat.mul_one]
        omega
      _ ≤ den * (2 * twoPow 52 * twoPow shift) := Nat.mul_le_mul_left den (by omega)
      _ = _ := Nat.mul_left_comm _ _ _
  · by_cases hsmall : (scaled / den).log2 ≤ 52
    · exact Or.inl (Nat.sub_eq_zero_of_le hsmall)
    · right
      have hne : scaled / den ≠ 0 := by
        intro hzero
        rw [hzero] at hsmall
        exact hsmall (by decide)
      have hlog : twoPow (scaled / den).log2 ≤ scaled / den := Nat.log2_self_le hne
      rw [← Nat.add_sub_cancel' (Nat.le_of_not_le hsmall), twoPow_add] at hlog
      calc
        _ = den * (twoPow 52 * twoPow shift) := Nat.mul_left_comm _ _ _
        _ ≤ den * (scaled / den) := Nat.mul_le_mul_left den hlog
        _ ≤ scaled := by omega

section Midpoints

variable {scaled den shift significand rank : Nat}

/-- What is rounded to a significand lies below the midpoint above its rank, or on it if the rank is
even. -/
theorem le_midpoint_above (hle : significand ≤ 2 * twoPow 52)
    (hnormal : shift = 0 ∨ twoPow 52 ≤ significand)
    (herror : 2 * scaled + significand % 2 ≤
      2 * (significand * (den * twoPow shift)) + den * twoPow shift)
    (hrank : rank = shift * twoPow 52 + significand) :
    2 * scaled + rank % 2 ≤ (units rank + units (rank + 1)) * den := by
  have hunits : significand * (den * twoPow shift) = units rank * den := by
    rw [hrank, units_shift hle hnormal]
    ring
  have hparity : rank % 2 = significand % 2 := by
    rw [hrank, twoPow_fiftyTwo]
    omega
  have hgap : twoPow shift ≤ gap rank := by
    rcases Nat.lt_or_eq_of_le hle with hlt | heq
    · rw [hrank, gap_shift hlt hnormal]
    · have hprev : gap (shift * twoPow 52 + (2 * twoPow 52 - 1)) = twoPow shift := by
        apply gap_shift
        · rw [twoPow_fiftyTwo]
          omega
        · exact Or.inr (by rw [twoPow_fiftyTwo]; omega)
      rw [← hprev]
      exact gap_mono (by omega)
  have hscaled := Nat.mul_le_mul_right den hgap
  rw [Nat.mul_comm (twoPow shift) den] at hscaled
  rw [hunits] at herror
  rw [units_succ, hparity]
  calc
    _ ≤ 2 * (units rank * den) + den * twoPow shift := herror
    _ ≤ 2 * (units rank * den) + gap rank * den := Nat.add_le_add_left hscaled _
    _ = _ := by ring

/-- What is rounded to a significand lies above the midpoint below its rank, or on it if the rank is
even. -/
theorem midpoint_below_le (hle : significand ≤ 2 * twoPow 52)
    (hnormal : shift = 0 ∨ twoPow 52 ≤ significand)
    (hlower : shift = 0 ∨ twoPow 52 * (den * twoPow shift) ≤ scaled)
    (herror : 2 * (significand * (den * twoPow shift)) + significand % 2 ≤
      2 * scaled + den * twoPow shift)
    (hrank : rank = shift * twoPow 52 + significand) (hpos : rank ≠ 0) :
    (units (rank - 1) + units rank) * den + rank % 2 ≤ 2 * scaled := by
  have hunits : significand * (den * twoPow shift) = units rank * den := by
    rw [hrank, units_shift hle hnormal]
    ring
  have hparity : rank % 2 = significand % 2 := by
    rw [hrank, twoPow_fiftyTwo]
    omega
  rw [hunits] at herror
  rw [hparity]
  by_cases hinner : shift = 0 ∨ twoPow 52 < significand
  · -- the rank below has the same shift
    have hsignificand : 0 < significand := by
      rcases hinner with hzero | hlt
      · rw [hzero, Nat.zero_mul, Nat.zero_add] at hrank
        omega
      · omega
    have hprev : gap (rank - 1) = twoPow shift := by
      rw [hrank, Nat.add_sub_assoc hsignificand]
      exact gap_shift (by omega) (by omega)
    have hsucc : units rank = units (rank - 1) + twoPow shift := by
      rw [← hprev, ← units_succ, Nat.sub_add_cancel (Nat.one_le_iff_ne_zero.2 hpos)]
    have hdouble : (units (rank - 1) + units rank) * den + den * twoPow shift =
        2 * (units rank * den) := by
      rw [hsucc]
      ring
    omega
  · -- the least significand at a shift: what is rounded to it is not below its magnitude
    rw [not_or] at hinner
    have hleast : significand = twoPow 52 :=
      le_antisymm (Nat.not_lt.1 hinner.2) (hnormal.resolve_left hinner.1)
    have hmagnitude := hlower.resolve_left hinner.1
    rw [← hleast, hunits] at hmagnitude
    have heven : significand % 2 = 0 := by
      rw [hleast]
      rfl
    have hmono : units (rank - 1) * den ≤ units rank * den :=
      Nat.mul_le_mul_right den (units_strictMono.monotone (Nat.sub_le rank 1))
    rw [heven, Nat.add_mul]
    omega

end Midpoints

/-- A quotient lies between the midpoints around its rank, and off them if the rank is odd. -/
theorem rankOfQuotient_midpoints (num : Nat) {den : Nat} (hden : 0 < den) :
    let rank := rankOfQuotient num den
    2 * (num * unitsPerOne) + rank % 2 ≤ (units rank + units (rank + 1)) * den ∧
      (rank ≠ 0 → (units (rank - 1) + units rank) * den + rank % 2 ≤ 2 * (num * unitsPerOne)) := by
  obtain ⟨hupper, hlower⟩ := shift_bounds (num * unitsPerOne) hden
  have hstep : 0 < den * twoPow ((num * unitsPerOne / den).log2 - 52) :=
    Nat.mul_pos hden (twoPow_pos _)
  have hle := roundHalfEven_le hstep hupper
  have hnormal := hlower.imp_right (le_roundHalfEven hstep)
  obtain ⟨habove, hbelow⟩ := roundHalfEven_error (num * unitsPerOne) hstep
  exact ⟨le_midpoint_above hle hnormal habove rfl, midpoint_below_le hle hnormal hlower hbelow rfl⟩

/-! ## Nearest ranks -/

/-- Whether a number is rounded to a rank. -/
structure IsNearestRank (x : ℚ) (rank : Nat) : Prop where
  nearest : ∀ other, |magnitude rank - x| ≤ |magnitude other - x|
  even_of_tie : ∀ other, other ≠ rank → |magnitude other - x| = |magnitude rank - x| → rank % 2 = 0

variable {x y : ℚ} {rank rank' : Nat}

theorem isNearestRank_of_midpoints
    (habove : 2 * x ≤ magnitude rank + magnitude (rank + 1))
    (hbelow : rank ≠ 0 → magnitude (rank - 1) + magnitude rank ≤ 2 * x)
    (hodd : rank % 2 = 1 → 2 * x ≠ magnitude rank + magnitude (rank + 1) ∧
      2 * x ≠ magnitude (rank - 1) + magnitude rank) : IsNearestRank x rank := by
  have hclose (other : Nat) (hother : other ≠ rank) :
      |magnitude rank - x| ≤ |magnitude other - x| ∧
        (|magnitude other - x| = |magnitude rank - x| → rank % 2 = 0) := by
    rcases Nat.lt_or_gt_of_ne hother with hlt | hgt
    · have hprev : magnitude other ≤ magnitude (rank - 1) :=
        magnitude_strictMono.monotone (by omega)
      have hrank : magnitude (rank - 1) < magnitude rank := magnitude_strictMono (by omega)
      have hmid := hbelow (by omega)
      have hfar : |magnitude other - x| = x - magnitude other := by
        rw [abs_sub_comm, abs_of_nonneg (by linarith)]
      rw [hfar]
      refine ⟨abs_le.2 ⟨by linarith, by linarith⟩, fun htie ↦ ?_⟩
      by_contra hparity
      apply (hodd (by omega)).2
      rcases abs_cases (magnitude rank - x) with ⟨habs, -⟩ | ⟨habs, -⟩ <;> linarith
    · have hnext : magnitude (rank + 1) ≤ magnitude other := magnitude_strictMono.monotone hgt
      have hrank : magnitude rank < magnitude (rank + 1) := magnitude_strictMono (by omega)
      have hfar : |magnitude other - x| = magnitude other - x := abs_of_nonneg (by linarith)
      rw [hfar]
      refine ⟨abs_le.2 ⟨by linarith, by linarith⟩, fun htie ↦ ?_⟩
      by_contra hparity
      apply (hodd (by omega)).1
      rcases abs_cases (magnitude rank - x) with ⟨habs, -⟩ | ⟨habs, -⟩ <;> linarith
  constructor
  · intro other
    rcases eq_or_ne other rank with rfl | hne
    · exact le_rfl
    · exact (hclose other hne).1
  · intro other hne
    exact (hclose other hne).2

/-- A quotient is rounded to its rank. -/
theorem isNearestRank_rankOfQuotient (num : Nat) {den : Nat} (hden : 0 < den) :
    IsNearestRank ((num : ℚ) / den) (rankOfQuotient num den) := by
  obtain ⟨habove, hbelow⟩ := rankOfQuotient_midpoints num hden
  have hcast : (0 : ℚ) < den := by exact_mod_cast hden
  have hone := unitsPerOne_cast_pos
  generalize rankOfQuotient num den = rank at *
  have hquotient : 2 * ((num : ℚ) / den) = (2 * (num * unitsPerOne) : ℕ) / (unitsPerOne * den) := by
    push_cast
    field_simp
  have hsum (r r' : Nat) : magnitude r + magnitude r' =
      ((units r + units r') * den : ℕ) / (unitsPerOne * den) := by
    unfold magnitude
    push_cast
    field_simp
  have hpos : (0 : ℚ) < unitsPerOne * den := mul_pos hone hcast
  apply isNearestRank_of_midpoints
  · rw [hquotient, hsum]
    exact div_le_div_of_nonneg_right (Nat.cast_le.2 (by omega)) hpos.le
  · intro hrank
    have hle := hbelow hrank
    rw [hquotient, hsum]
    exact div_le_div_of_nonneg_right (Nat.cast_le.2 (by omega)) hpos.le
  · intro hodd
    have hrank : rank ≠ 0 := by
      rintro rfl
      exact absurd hodd (by decide)
    have hstrict := hbelow hrank
    rw [hquotient, hsum, hsum]
    constructor
    · intro heq
      have hnat := Nat.cast_injective ((div_left_inj' hpos.ne').1 heq)
      omega
    · intro heq
      have hnat := Nat.cast_injective ((div_left_inj' hpos.ne').1 heq)
      omega

/-- Rounding keeps the order of numbers. -/
theorem IsNearestRank.le_of_le (hx : IsNearestRank x rank) (hy : IsNearestRank y rank')
    (hxy : x ≤ y) : rank ≤ rank' := by
  by_contra hgt
  rw [Nat.not_le] at hgt
  have hlt := magnitude_strictMono hgt
  -- both numbers lie on the midpoint of the two magnitudes
  have hxfar : magnitude rank' + magnitude rank ≤ 2 * x := by
    have hnear := hx.nearest rank'
    rcases abs_cases (magnitude rank - x) with ⟨h, _⟩ | ⟨h, _⟩ <;>
      rcases abs_cases (magnitude rank' - x) with ⟨h', _⟩ | ⟨h', _⟩ <;> linarith
  have hyfar : 2 * y ≤ magnitude rank' + magnitude rank := by
    have hnear := hy.nearest rank
    rcases abs_cases (magnitude rank - y) with ⟨h, _⟩ | ⟨h, _⟩ <;>
      rcases abs_cases (magnitude rank' - y) with ⟨h', _⟩ | ⟨h', _⟩ <;> linarith
  have hmid : 2 * x = magnitude rank' + magnitude rank := by linarith
  have htie : |magnitude rank' - x| = |magnitude rank - x| := by
    rw [abs_of_neg (by linarith), abs_of_pos (by linarith)]
    linarith
  have heven := hx.even_of_tie rank' hgt.ne htie
  have hyx : y = x := by linarith
  rw [hyx] at hy
  have heven' := hy.even_of_tie rank hgt.ne' htie.symm
  -- so a rank lies between the two and is nearer
  have hbetween : rank' + 1 < rank := by omega
  have hlow := magnitude_strictMono (Nat.lt_add_one rank')
  have hhigh := magnitude_strictMono hbetween
  have hnear := hx.nearest (rank' + 1)
  rw [abs_of_pos (by linarith : 0 < magnitude rank - x)] at hnear
  rcases abs_cases (magnitude (rank' + 1) - x) with ⟨h, _⟩ | ⟨h, _⟩ <;> linarith

theorem IsNearestRank.unique (h : IsNearestRank x rank) (h' : IsNearestRank x rank') :
    rank = rank' :=
  le_antisymm (h.le_of_le h' le_rfl) (h'.le_of_le h le_rfl)

theorem isNearestRank_magnitude (rank : Nat) : IsNearestRank (magnitude rank) rank := by
  constructor
  · intro other
    rw [sub_self, abs_zero]
    exact abs_nonneg _
  · intro other hne htie
    rw [sub_self, abs_zero, abs_eq_zero, sub_eq_zero] at htie
    exact absurd (magnitude_strictMono.injective htie) hne

/-! ## The range -/

/-- The least magnitude of each run of ranks that share one gap is a power of two. -/
theorem magnitude_mul_twoPow (n : Nat) : magnitude ((n + 1) * twoPow 52) = 2 ^ n / 2 ^ 1022 := by
  have hrank : (n + 1) * twoPow 52 = n * twoPow 52 + twoPow 52 := Nat.succ_mul n _
  have hle : twoPow 52 ≤ 2 * twoPow 52 := Nat.le_mul_of_pos_left _ (by decide)
  have hone : (unitsPerOne : ℚ) = 2 ^ 52 * 2 ^ 1022 := by
    rw [← pow_add]
    exact cast_twoPow 1074
  unfold magnitude
  rw [hrank, units_shift hle (Or.inr le_rfl), Nat.cast_mul, cast_twoPow, cast_twoPow, hone]
  exact mul_div_mul_left _ _ (pow_ne_zero 52 two_ne_zero)

theorem magnitude_rankOfPower (exponent : Nat) :
    magnitude ((1023 + exponent) * twoPow 52) = 2 ^ exponent := by
  have hrank : 1023 + exponent = 1022 + exponent + 1 := by omega
  rw [hrank, magnitude_mul_twoPow, pow_add]
  exact mul_div_cancel_left₀ _ (pow_ne_zero 1022 two_ne_zero)

theorem magnitude_rankOfOne : magnitude (1023 * twoPow 52) = 1 := by
  rw [← pow_zero (2 : ℚ), ← magnitude_rankOfPower 0, Nat.add_zero]

theorem magnitude_rankOfHalf : magnitude (1022 * twoPow 52) = 1 / 2 := by
  refine (magnitude_mul_twoPow 1021).trans ?_
  rw [pow_succ 2 1021]
  field_simp

theorem ofRank_of_lt (negative : Bool) (h : rank < overflowRank) :
    ofRank negative rank = .finite ⟨negative, rank, h⟩ :=
  dif_pos h

theorem ofRank_of_not_lt (negative : Bool) (h : ¬ rank < overflowRank) :
    ofRank negative rank = .infinite negative :=
  dif_neg h

/-- A quotient of at most `2 ^ exponent` has a finite rank. -/
theorem rankOfQuotient_lt_overflowRank {num den exponent : Nat} (hden : 0 < den)
    (hexponent : exponent ≤ 1023) (h : num ≤ 2 ^ exponent * den) :
    rankOfQuotient num den < overflowRank := by
  have hcast : (0 : ℚ) < den := by exact_mod_cast hden
  have hquotient : (num : ℚ) / den ≤ magnitude ((1023 + exponent) * twoPow 52) := by
    rw [magnitude_rankOfPower, div_le_iff₀ hcast]
    exact_mod_cast h
  have hle := (isNearestRank_rankOfQuotient num hden).le_of_le
    (isNearestRank_magnitude ((1023 + exponent) * twoPow 52)) hquotient
  calc
    _ ≤ (1023 + exponent) * twoPow 52 := hle
    _ < 2047 * twoPow 52 := Nat.mul_lt_mul_of_pos_right (by omega) (twoPow_pos 52)

/-! ## Nearest numbers -/

/-- Whether a number is rounded to a binary64 number. -/
structure IsNearest (x : ℚ) (rounded : Finite) : Prop where
  nearest : ∀ other : Finite, |rounded.value - x| ≤ |other.value - x|
  even_of_tie : ∀ other : Finite, other.value ≠ rounded.value →
    |other.value - x| = |rounded.value - x| → rounded.rank % 2 = 0

/-- A number that is not negative is rounded to the binary64 number of the nearest rank. -/
theorem IsNearestRank.isNearest (hx : 0 ≤ x) (h : IsNearestRank x rank)
    (hrank : rank < overflowRank) : IsNearest x ⟨false, rank, hrank⟩ := by
  have hvalue : (⟨false, rank, hrank⟩ : Finite).value = magnitude rank := rfl
  have hfar (other : Finite) : |magnitude other.rank - x| ≤ |other.value - x| := by
    rw [← other.abs_value]
    have hdist := abs_abs_sub_abs_le_abs_sub other.value x
    rwa [abs_of_nonneg hx] at hdist
  constructor
  · intro other
    calc
      _ = |magnitude rank - x| := by rw [hvalue]
      _ ≤ |magnitude other.rank - x| := h.nearest other.rank
      _ ≤ |other.value - x| := hfar other
  · intro other hne htie
    rw [hvalue] at hne htie
    have htie' : |magnitude other.rank - x| = |magnitude rank - x| :=
      le_antisymm ((hfar other).trans htie.le) (h.nearest other.rank)
    apply h.even_of_tie other.rank _ htie'
    -- the same magnitude with the other sign is as near only if it is zero
    rintro rfl
    apply hne
    have hnegative : other.value = -magnitude other.rank := by
      unfold Finite.value at hne ⊢
      split
      · rfl
      · rename_i hsign
        rw [if_neg hsign] at hne
        exact absurd rfl hne
    have hmagnitude := magnitude_nonneg other.rank
    have hzero : magnitude other.rank = 0 := by
      have hnear := h.nearest 0
      rw [magnitude_zero, zero_sub, abs_neg, abs_of_nonneg hx] at hnear
      rw [hnegative, abs_of_nonpos (by linarith)] at htie
      rcases abs_cases (magnitude other.rank - x) with ⟨h', _⟩ | ⟨h', _⟩ <;> linarith
    rw [hnegative, hzero, neg_zero]

/-- Whether a number that is not negative is rounded to a binary64 number.  Zero has no sign then. -/
structure RoundsTo (x : ℚ) (rounded : Finite) : Prop where
  nonnegative : rounded.negative = false
  nearest : IsNearestRank x rounded.rank

namespace RoundsTo

variable {rounded rounded' : Finite}

theorem isNearest (h : RoundsTo x rounded) (hx : 0 ≤ x) : IsNearest x rounded := by
  have hrank := h.nearest.isNearest hx rounded.rank_lt
  obtain ⟨negative, rank, hlt⟩ := rounded
  obtain rfl : negative = false := h.nonnegative
  exact hrank

theorem value_eq (h : RoundsTo x rounded) : rounded.value = magnitude rounded.rank := by
  rw [Finite.value, h.nonnegative]
  rfl

theorem value_nonneg (h : RoundsTo x rounded) : 0 ≤ rounded.value := by
  rw [h.value_eq]
  exact magnitude_nonneg _

theorem value_mono (h : RoundsTo x rounded) (h' : RoundsTo y rounded') (hle : x ≤ y) :
    rounded.value ≤ rounded'.value := by
  rw [h.value_eq, h'.value_eq]
  exact magnitude_strictMono.monotone (h.nearest.le_of_le h'.nearest hle)

/-- What lies between two numbers is rounded to a number between those that they are rounded to. -/
theorem value_mem_uIcc {z : ℚ} {rounded'' : Finite} (hx : RoundsTo x rounded)
    (hy : RoundsTo y rounded') (hz : RoundsTo z rounded'') (hmem : z ∈ Set.uIcc x y) :
    rounded''.value ∈ Set.uIcc rounded.value rounded'.value := by
  rw [Set.mem_uIcc] at hmem ⊢
  rcases hmem with ⟨hlow, hhigh⟩ | ⟨hlow, hhigh⟩
  · exact .inl ⟨hx.value_mono hz hlow, hz.value_mono hy hhigh⟩
  · exact .inr ⟨hy.value_mono hz hlow, hz.value_mono hx hhigh⟩

/-- What is at least a magnitude is rounded to no less. -/
theorem magnitude_le_value (h : RoundsTo x rounded) (hle : magnitude rank ≤ x) :
    magnitude rank ≤ rounded.value := by
  rw [h.value_eq]
  exact magnitude_strictMono.monotone ((isNearestRank_magnitude rank).le_of_le h.nearest hle)

/-- What is at most a magnitude is rounded to no more. -/
theorem value_le_magnitude (h : RoundsTo x rounded) (hle : x ≤ magnitude rank) :
    rounded.value ≤ magnitude rank := by
  rw [h.value_eq]
  exact magnitude_strictMono.monotone (h.nearest.le_of_le (isNearestRank_magnitude rank) hle)

theorem value_le_one (h : RoundsTo x rounded) (hle : x ≤ 1) : rounded.value ≤ 1 := by
  rw [← magnitude_rankOfOne] at hle ⊢
  exact h.value_le_magnitude hle

theorem value_one (h : RoundsTo 1 rounded) : rounded.value = 1 := by
  have hnearest := h.nearest
  rw [← magnitude_rankOfOne] at hnearest
  rw [h.value_eq, hnearest.unique (isNearestRank_magnitude _), magnitude_rankOfOne]

end RoundsTo

/-- What lies between zero and one is rounded to a finite number. -/
theorem exists_roundsTo (hx : 0 ≤ x) (hle : x ≤ 1) : ∃ rounded, RoundsTo x rounded := by
  have hnum : ((x.num.natAbs : ℕ) : ℚ) = x.num := by
    rw [Nat.cast_natAbs, abs_of_nonneg (Rat.num_nonneg.2 hx)]
  have hquotient : ((x.num.natAbs : ℕ) : ℚ) / x.den = x := by
    rw [hnum, Rat.num_div_den]
  have hnear := isNearestRank_rankOfQuotient x.num.natAbs x.den_pos
  have hrank : rankOfQuotient x.num.natAbs x.den < overflowRank := by
    apply rankOfQuotient_lt_overflowRank x.den_pos (Nat.zero_le 1023)
    have hcast : ((x.num.natAbs : ℕ) : ℚ) ≤ x.den := by
      rwa [← div_le_one (Nat.cast_pos.2 x.den_pos), hquotient]
    rw [pow_zero, one_mul]
    exact_mod_cast hcast
  rw [hquotient] at hnear
  exact ⟨⟨false, _, hrank⟩, rfl, hnear⟩

end Binary64

end BucketStats

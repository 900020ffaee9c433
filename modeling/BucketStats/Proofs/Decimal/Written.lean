import BucketStats.Proofs.Decimal.Scientific
/-!
# Decimals as they are written

A decimal is written in digits, perhaps with a point among or around them and with an exponent after
them.  It stands for a rational number exactly, however many digits it has.  Reading it rounds that
number once, to the nearest binary64 number.
-/

namespace BucketStats.Decimal

open Binary64

/-- Whether a text is the exponent at the end of a numeral. -/
inductive IsExponent : Int → List Char → Prop where
  | absent : IsExponent 0 []
  | positive {mark : Char} {sign ds : List Char} (hmark : mark = 'e' ∨ mark = 'E')
      (hsign : sign = [] ∨ sign = ['+']) (hne : ds ≠ []) (hdigits : ∀ c ∈ ds, c.isDigit = true) :
      IsExponent (valueOf ds) (mark :: (sign ++ ds))
  | negative {mark : Char} {ds : List Char} (hmark : mark = 'e' ∨ mark = 'E') (hne : ds ≠ [])
      (hdigits : ∀ c ∈ ds, c.isDigit = true) : IsExponent (-(valueOf ds : Int)) (mark :: '-' :: ds)

/-- Whether a text without a sign is a numeral of a number. -/
inductive IsUnsigned : ℚ → List Char → Prop where
  | whole {ds tail : List Char} {exponent : Int} (hne : ds ≠ [])
      (hdigits : ∀ c ∈ ds, c.isDigit = true) (htail : IsExponent exponent tail) :
      IsUnsigned (valueOf ds * 10 ^ exponent) (ds ++ tail)
  | point {whole fraction tail : List Char} {exponent : Int} (hne : whole ≠ [] ∨ fraction ≠ [])
      (hwhole : ∀ c ∈ whole, c.isDigit = true) (hfraction : ∀ c ∈ fraction, c.isDigit = true)
      (htail : IsExponent exponent tail) :
      IsUnsigned (valueOf (whole ++ fraction) * 10 ^ (exponent - fraction.length))
        (whole ++ '.' :: (fraction ++ tail))

/-- Whether a text is a numeral of a number that is not negative. -/
def IsNumeralOf (d : ℚ) (s : List Char) : Prop :=
  IsUnsigned d s ∨ ∃ unsigned, s = '+' :: unsigned ∧ IsUnsigned d unsigned

/-- Whether a text is a numeral of a magnitude with a sign in front, or with none.  Zero takes either
sign. -/
inductive IsSigned : Bool → ℚ → List Char → Prop where
  | bare {d : ℚ} {unsigned : List Char} (h : IsUnsigned d unsigned) : IsSigned false d unsigned
  | plus {d : ℚ} {unsigned : List Char} (h : IsUnsigned d unsigned) :
      IsSigned false d ('+' :: unsigned)
  | minus {d : ℚ} {unsigned : List Char} (h : IsUnsigned d unsigned) :
      IsSigned true d ('-' :: unsigned)

theorem IsNumeralOf.isSigned {d : ℚ} {s : List Char} (h : IsNumeralOf d s) : IsSigned false d s := by
  rcases h with h | ⟨unsigned, rfl, h⟩
  · exact .bare h
  · exact .plus h

theorem isUnsigned_whole {n : ℕ} {ds : List Char} (hne : ds ≠ [])
    (hdigits : ∀ c ∈ ds, c.isDigit = true) (hn : valueOf ds = n) : IsUnsigned n ds := by
  have hunsigned := IsUnsigned.whole hne hdigits .absent
  rwa [List.append_nil, hn, zpow_zero, mul_one] at hunsigned

/-- Digits around a point count tenths, hundredths and so on. -/
theorem isUnsigned_point {d : ℚ} {whole fraction : List Char} (hne : whole ≠ [] ∨ fraction ≠ [])
    (hwhole : ∀ c ∈ whole, c.isDigit = true) (hfraction : ∀ c ∈ fraction, c.isDigit = true)
    (hd : d * 10 ^ fraction.length = valueOf (whole ++ fraction)) :
    IsUnsigned d (whole ++ '.' :: fraction) := by
  have hvalue : (valueOf (whole ++ fraction) : ℚ) * 10 ^ (0 - (fraction.length : Int)) = d := by
    rw [← hd, zero_sub, zpow_neg, zpow_natCast]
    exact mul_inv_cancel_right₀ (pow_ne_zero _ (by norm_num)) d
  have hunsigned := IsUnsigned.point hne hwhole hfraction .absent
  rwa [List.append_nil, hvalue] at hunsigned

theorem isNumeralOf_point {d : ℚ} {whole fraction : List Char} (hne : whole ≠ [] ∨ fraction ≠ [])
    (hwhole : ∀ c ∈ whole, c.isDigit = true) (hfraction : ∀ c ∈ fraction, c.isDigit = true)
    (hd : d * 10 ^ fraction.length = valueOf (whole ++ fraction)) :
    IsNumeralOf d (whole ++ '.' :: fraction) :=
  .inl (isUnsigned_point hne hwhole hfraction hd)

section Written

variable {d : ℚ} {s tail : List Char} {exponent : Int} {rank : Nat}

theorem readExponent_of_isExponent (h : IsExponent exponent tail) :
    readExponent tail = some exponent := by
  cases h with
  | absent => rfl
  | @positive _ sign ds hmark hsign hne hdigits =>
    have hsplit : splitSign (sign ++ ds) = (false, ds) := by
      rcases hsign with rfl | rfl
      · obtain ⟨d, rest, rfl⟩ := List.exists_cons_of_ne_nil hne
        exact splitSign_signed false (hdigits d List.mem_cons_self) rest
      · rfl
    rw [readExponent_signed hmark hne hdigits hsplit, if_neg Bool.false_ne_true]
  | negative hmark hne hdigits => rw [readExponent_signed hmark hne hdigits rfl, if_pos rfl]

theorem isInk_of_digits {ds : List Char} (hdigits : ∀ c ∈ ds, c.isDigit = true) :
    ∀ c ∈ ds, IsInk c :=
  fun c hc ↦ isInk_of_isDigit (hdigits c hc)

theorem isInk_of_isExponent (h : IsExponent exponent tail) : ∀ c ∈ tail, IsInk c := by
  have hink {mark : Char} (hmark : mark = 'e' ∨ mark = 'E') : IsInk mark := by
    rcases hmark with rfl | rfl
    · decide
    · decide
  cases h with
  | absent => simp
  | positive hmark hsign _ hdigits =>
    refine List.forall_mem_cons.2 ⟨hink hmark, List.forall_mem_append.2 ⟨?_, ?_⟩⟩
    · rcases hsign with rfl | rfl
      · simp
      · exact List.forall_mem_singleton.2 (by decide)
    · exact isInk_of_digits hdigits
  | negative hmark _ hdigits =>
    exact List.forall_mem_cons.2 ⟨hink hmark,
      List.forall_mem_cons.2 ⟨by decide, isInk_of_digits hdigits⟩⟩

theorem readMagnitude_of_isUnsigned (h : IsUnsigned d s) (hnear : IsNearestRank d rank)
    (negative : Bool) : readMagnitude negative s = some (ofRank negative rank) := by
  cases h with
  | whole hne hdigits htail =>
    exact readMagnitude_whole hdigits hne (readExponent_of_isExponent htail) hnear
  | point hne hwhole hfraction htail =>
    exact readMagnitude_point hwhole hne hfraction (readExponent_of_isExponent htail) hnear

/-- A numeral begins with a digit or a point, and so with no sign. -/
theorem exists_head_of_isUnsigned (h : IsUnsigned d s) :
    ∃ c rest, s = c :: rest ∧ IsMark c ∧ c ≠ '-' ∧ c ≠ '+' := by
  have hdigit {c : Char} (hc : c.isDigit = true) : IsMark c ∧ c ≠ '-' ∧ c ≠ '+' := by
    refine ⟨.inl hc, ?_, ?_⟩
    · rintro rfl
      exact absurd hc (by decide)
    · rintro rfl
      exact absurd hc (by decide)
  cases h with
  | whole hne hdigits _ =>
    obtain ⟨c, rest, rfl⟩ := List.exists_cons_of_ne_nil hne
    exact ⟨c, _, rfl, hdigit (hdigits c List.mem_cons_self)⟩
  | @point whole _ _ _ _ hwhole _ _ =>
    cases whole with
    | nil => exact ⟨'.', _, rfl, by decide, by decide, by decide⟩
    | cons c rest => exact ⟨c, _, rfl, hdigit (hwhole c List.mem_cons_self)⟩

theorem isInk_of_isUnsigned (h : IsUnsigned d s) : ∀ c ∈ s, IsInk c := by
  cases h with
  | whole _ hdigits htail =>
    exact List.forall_mem_append.2 ⟨isInk_of_digits hdigits, isInk_of_isExponent htail⟩
  | point _ hwhole hfraction htail =>
    refine List.forall_mem_append.2 ⟨isInk_of_digits hwhole, List.forall_mem_cons.2 ⟨by decide, ?_⟩⟩
    exact List.forall_mem_append.2 ⟨isInk_of_digits hfraction, isInk_of_isExponent htail⟩

theorem IsUnsigned.nonneg (h : IsUnsigned d s) : 0 ≤ d := by
  cases h with
  | whole => exact mul_nonneg (Nat.cast_nonneg _) (zpow_nonneg (by norm_num) _)
  | point => exact mul_nonneg (Nat.cast_nonneg _) (zpow_nonneg (by norm_num) _)

theorem nonneg_of_isNumeralOf (h : IsNumeralOf d s) : 0 ≤ d := by
  rcases h with h | ⟨_, _, h⟩
  · exact h.nonneg
  · exact h.nonneg

theorem exists_head_of_isNumeralOf (h : IsNumeralOf d s) : ∃ c rest, s = c :: rest ∧ c ≠ '-' := by
  rcases h with h | ⟨unsigned, rfl, _⟩
  · obtain ⟨c, rest, rfl, _, hminus, _⟩ := exists_head_of_isUnsigned h
    exact ⟨c, rest, rfl, hminus⟩
  · exact ⟨'+', unsigned, rfl, by decide⟩

/-- A sign that stands in front is split off, and what is left is visible as the whole is. -/
theorem exists_unsigned_of_isSigned {negative : Bool} (h : IsSigned negative d s) :
    ∃ unsigned, IsUnsigned d unsigned ∧ splitSign s = (negative, unsigned) ∧ ∀ c ∈ s, IsInk c := by
  cases h with
  | bare h =>
    obtain ⟨c, rest, rfl, _, hminus, hplus⟩ := exists_head_of_isUnsigned h
    exact ⟨_, h, splitSign_of_ne hminus hplus rest, isInk_of_isUnsigned h⟩
  | plus h => exact ⟨_, h, rfl, List.forall_mem_cons.2 ⟨by decide, isInk_of_isUnsigned h⟩⟩
  | minus h => exact ⟨_, h, rfl, List.forall_mem_cons.2 ⟨by decide, isInk_of_isUnsigned h⟩⟩

/-- A numeral is read as the number nearest to what it stands for, with its sign. -/
theorem readDecimal_of_isSigned {negative : Bool} (h : IsSigned negative d s)
    (hnear : IsNearestRank d rank) : readDecimal s = some (ofRank negative rank) := by
  obtain ⟨unsigned, hunsigned, hsplit, hink⟩ := exists_unsigned_of_isSigned h
  obtain ⟨c, rest, rfl, hc, _, _⟩ := exists_head_of_isUnsigned hunsigned
  rw [readDecimal_of_splitSign hink hsplit hc, readMagnitude_of_isUnsigned hunsigned hnear]

theorem readDecimal_of_isNumeralOf (h : IsNumeralOf d s) (hnear : IsNearestRank d rank) :
    readDecimal s = some (ofRank false rank) :=
  readDecimal_of_isSigned h.isSigned hnear

end Written

end BucketStats.Decimal

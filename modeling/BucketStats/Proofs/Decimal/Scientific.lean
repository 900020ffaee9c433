import BucketStats.Decimal.Digits
import BucketStats.Proofs.Decimal.Numeral
import Mathlib.Data.Bool.AllAny
/-!
# Reading what was laid out

Significant digits with a decimal exponent are a number.  However they are laid out, in positions or
with an exponent and with or without a point at the end, the text is read as the binary64 number
nearest to that number.
-/

namespace BucketStats.Decimal

open Binary64

/-! ## The parts of a numeral -/

section Parts

variable {whole fraction tail : List Char} {exponent : Int} {negative : Bool} {rank : Nat}

/-- An exponent starts with neither a digit nor a point. -/
theorem head_of_readExponent (htail : readExponent tail = some exponent) :
    ∀ c ∈ tail.head?, c.isDigit = false ∧ c ≠ '.' := by
  cases tail with
  | nil => simp
  | cons c rest =>
    have hmark : (c == 'e' || c == 'E') = true := by
      by_contra hmark
      rw [readExponent, if_neg hmark] at htail
      cases htail
    simp only [Bool.or_eq_true, beq_iff_eq] at hmark
    intro c' hc'
    obtain rfl : c = c' := Option.some.inj hc'
    rcases hmark with rfl | rfl
    · decide
    · decide

theorem span_isDigit {ds : List Char} (hdigits : ∀ c ∈ ds, c.isDigit = true)
    (htail : ∀ c ∈ tail.head?, c.isDigit = false) :
    (ds ++ tail).span Char.isDigit = (ds, tail) := by
  rw [List.span_eq_takeWhile_dropWhile, List.takeWhile_append_of_pos hdigits,
    List.dropWhile_append_of_pos hdigits]
  cases tail with
  | nil => simp
  | cons c rest =>
    have hc : c.isDigit = false := htail c rfl
    simp [hc]

theorem readExponent_signed {mark : Char} {signed ds : List Char} {negative : Bool}
    (hmark : mark = 'e' ∨ mark = 'E') (hne : ds ≠ []) (hdigits : ∀ c ∈ ds, c.isDigit = true)
    (hsign : splitSign signed = (negative, ds)) :
    readExponent (mark :: signed) =
      some (if negative then -(valueOf ds : Int) else valueOf ds) := by
  have hspoilt : (ds.isEmpty || !ds.all Char.isDigit) = false := by
    rw [List.isEmpty_eq_false_iff.2 hne, List.all_eq_true.2 hdigits]
    rfl
  have hmark' : (mark == 'e' || mark == 'E') = true := by simpa using hmark
  rw [readExponent, if_pos hmark', hsign]
  simp only [hspoilt]
  rfl

/-- Digits around a point count together, less a power of ten for each one after it. -/
theorem readMagnitude_point (hwhole : ∀ c ∈ whole, c.isDigit = true)
    (hne : whole ≠ [] ∨ fraction ≠ [])
    (hfraction : ∀ c ∈ fraction, c.isDigit = true) (htail : readExponent tail = some exponent)
    (hnear : IsNearestRank (valueOf (whole ++ fraction) * 10 ^ (exponent - fraction.length)) rank) :
    readMagnitude negative (whole ++ '.' :: (fraction ++ tail)) = some (ofRank negative rank) := by
  have hdigits : ∀ c ∈ whole ++ fraction, c.isDigit = true :=
    fun c hc ↦ (List.mem_append.1 hc).elim (hwhole c) (hfraction c)
  have hspan : (whole ++ '.' :: (fraction ++ tail)).span Char.isDigit =
      (whole, '.' :: (fraction ++ tail)) := span_isDigit hwhole (by simp)
  have hspan' : (fraction ++ tail).span Char.isDigit = (fraction, tail) :=
    span_isDigit hfraction fun c hc ↦ (head_of_readExponent htail c hc).1
  have hempty : (whole.isEmpty && fraction.isEmpty) = false := by
    rcases hne with hne | hne <;> simp [hne]
  unfold readMagnitude
  simp only [hspan, hspan', hempty, htail]
  rw [← nearestBinary64_eq_ofRank negative hdigits hnear]
  rfl

theorem readMagnitude_whole (hwhole : ∀ c ∈ whole, c.isDigit = true) (hne : whole ≠ [])
    (htail : readExponent tail = some exponent)
    (hnear : IsNearestRank (valueOf whole * 10 ^ exponent) rank) :
    readMagnitude negative (whole ++ tail) = some (ofRank negative rank) := by
  have hspan : (whole ++ tail).span Char.isDigit = (whole, tail) :=
    span_isDigit hwhole fun c hc ↦ (head_of_readExponent htail c hc).1
  have hempty : (whole.isEmpty && List.isEmpty ([] : List Char)) = false := by simp [hne]
  rw [← nearestBinary64_eq_ofRank negative hwhole hnear]
  unfold readMagnitude
  simp only [hspan]
  split
  · exact absurd rfl (head_of_readExponent htail '.' rfl).2
  · simp only [hempty, htail, List.append_nil]
    simp

end Parts

/-- Whether a character is a digit, a point, the mark of an exponent or a sign. -/
def IsMark (c : Char) : Prop :=
  c.isDigit = true ∨ c ∈ ['.', 'e', '-', '+']

instance (c : Char) : Decidable (IsMark c) :=
  inferInstanceAs (Decidable (_ ∨ _))

/-- Whether a text begins with a digit and holds only what numerals hold. -/
structure IsText (s : List Char) : Prop where
  digit_first : ∃ d rest, d.isDigit = true ∧ s = d :: rest
  isMark : ∀ c ∈ s, IsMark c

theorem IsText.of_digit {d : Char} {rest : List Char} (hd : d.isDigit = true)
    (hrest : ∀ c ∈ rest, IsMark c) : IsText (d :: rest) :=
  ⟨⟨d, rest, hd, rfl⟩, List.forall_mem_cons.2 ⟨.inl hd, hrest⟩⟩

theorem isInk_of_isMark {c : Char} (h : IsMark c) : IsInk c := by
  rcases h with h | h
  · exact isInk_of_isDigit h
  · have hmarks : ∀ c ∈ ['.', 'e', '-', '+'], IsInk c := List.all_iff_forall_prop.1 (by decide)
    exact hmarks c h

theorem isMark_of_mem_signed {negative : Bool} {s : List Char} (hs : ∀ c ∈ s, IsMark c) :
    ∀ c ∈ signed negative s, IsMark c := by
  cases negative with
  | true => exact List.forall_mem_cons.2 ⟨.inr (by decide), hs⟩
  | false => exact hs

/-! ## Signs and words -/

theorem toLower_of_isDigit {c : Char} (h : c.isDigit = true) : c.toLower = c := by
  have hrange : 0x30 ≤ c.toNat ∧ c.toNat ≤ 0x39 := Char.isDigit_iff_toNat.1 h
  unfold Char.toLower
  rw [dif_neg]
  rintro ⟨hupper, _⟩
  have hupper' : 0x41 ≤ c.toNat := UInt32.le_iff_toNat_le.1 hupper
  omega

theorem toLower_of_isMark {c : Char} (h : IsMark c) : c.toLower = c := by
  rcases h with h | h
  · exact toLower_of_isDigit h
  · have hmarks : ∀ c ∈ ['.', 'e', '-', '+'], c.toLower = c :=
      List.all_iff_forall_prop.1 (by decide)
    exact hmarks c h

/-- The words that stand for no decimal begin with letters that are no marks. -/
theorem contains_toLower_eq_false {words : List (List Char)} {c : Char} (hc : IsMark c)
    (hwords : ∀ word ∈ words, word.head? ∈ [some 'i', some 'n']) (rest : List Char) :
    words.contains ((c :: rest).map Char.toLower) = false := by
  rw [List.contains_eq_mem, decide_eq_false_iff_not]
  intro hmem
  have hletters : ∀ letter ∈ ['i', 'n'], ¬ IsMark letter := List.all_iff_forall_prop.1 (by decide)
  have hhead := hwords _ hmem
  rw [List.map_cons, toLower_of_isMark hc, List.head?_cons] at hhead
  exact hletters c (by simpa using hhead) hc

/-- What is no word is read without its sign. -/
theorem readDecimal_of_splitSign {s rest : List Char} {c : Char} {negative : Bool}
    (hink : ∀ c ∈ s, IsInk c) (hsplit : splitSign s = (negative, c :: rest)) (hc : IsMark c) :
    readDecimal s = readMagnitude negative (c :: rest) := by
  have hinfinity : infinityWords.contains ((c :: rest).map Char.toLower) = false :=
    contains_toLower_eq_false hc (by decide) rest
  have hnan : [['n', 'a', 'n']].contains ((c :: rest).map Char.toLower) = false :=
    contains_toLower_eq_false hc (by decide) rest
  rw [List.contains_cons, List.contains_nil, Bool.or_false] at hnan
  rw [readDecimal, numeralChars_of_isInk hink, Option.bind_eq_bind, Option.bind_some, hsplit]
  simp only [hinfinity, hnan]
  rfl

theorem readDecimal_signed {s : List Char} (hs : IsText s) (negative : Bool) :
    readDecimal (signed negative s) = readMagnitude negative s := by
  have hink : ∀ c ∈ signed negative s, IsInk c :=
    fun c hc ↦ isInk_of_isMark (isMark_of_mem_signed hs.isMark c hc)
  obtain ⟨d, rest, hd, rfl⟩ := hs.digit_first
  exact readDecimal_of_splitSign hink (splitSign_signed negative hd rest) (.inl hd)

namespace Scientific

/-- Whether there are digits and nothing else. -/
structure IsNumeral (x : Scientific) : Prop where
  digits_ne_nil : x.digits ≠ []
  isDigit : ∀ c ∈ x.digits, c.isDigit = true

/-- The number `d₁.d₂…dₖ × 10 ^ e`. -/
def value (x : Scientific) : ℚ :=
  valueOf x.digits * 10 ^ (x.exponent + 1 - x.digits.length)

theorem readExponent_exponentText (e : Int) : readExponent (exponentText e) = some e := by
  have hdigits : ∀ c ∈ List.replicate (2 - (Decimal.digits e.natAbs).length) '0' ++
      Decimal.digits e.natAbs, c.isDigit = true :=
    isDigit_of_mem_zeros fun c hc ↦ isDigit_of_mem_digits hc
  have hne : List.replicate (2 - (Decimal.digits e.natAbs).length) '0' ++
      Decimal.digits e.natAbs ≠ [] :=
    List.append_ne_nil_of_right_ne_nil _ (digits_ne_nil _)
  unfold exponentText
  by_cases hneg : e < 0
  · have habs : -(e.natAbs : Int) = e := by omega
    rw [if_pos hneg, readExponent_signed (.inl rfl) hne hdigits rfl, valueOf_zeros_append,
      valueOf_digits, if_pos rfl, habs]
  · have habs : (e.natAbs : Int) = e := by omega
    rw [if_neg hneg, readExponent_signed (.inl rfl) hne hdigits rfl, valueOf_zeros_append,
      valueOf_digits, if_neg Bool.false_ne_true, habs]

section Write

variable {x : Scientific} {ds : List Char} {rank : Nat} {negative : Bool}

/-- Digits of a number below one stand after zeros. -/
theorem readMagnitude_zeros (zeros : Nat) (hdigits : ∀ c ∈ ds, c.isDigit = true)
    (hnear : IsNearestRank (valueOf ds * 10 ^ (-(zeros + ds.length : ℕ) : Int)) rank) :
    readMagnitude negative ('0' :: '.' :: (List.replicate zeros '0' ++ ds)) =
      some (ofRank negative rank) := by
  have hzero : ∀ c ∈ ['0'], c.isDigit = true := List.forall_mem_singleton.2 rfl
  have hvalue : valueOf (['0'] ++ (List.replicate zeros '0' ++ ds)) = valueOf ds := by
    rw [← List.append_assoc, ← List.replicate_one, List.replicate_append_replicate,
      valueOf_zeros_append]
  rw [← List.append_nil (List.replicate zeros '0' ++ ds)]
  apply readMagnitude_point hzero (.inl (List.cons_ne_nil _ _)) (isDigit_of_mem_zeros hdigits) rfl
  rw [hvalue, List.length_append, List.length_replicate, zero_sub]
  exact hnear

/-- Zeros fill the digits of a whole number up. -/
theorem readMagnitude_filled (fill : Nat) (hne : ds ≠ []) (hdigits : ∀ c ∈ ds, c.isDigit = true)
    (hnear : IsNearestRank (valueOf ds * 10 ^ fill) rank) (keepPoint : Bool) :
    readMagnitude negative
        (ds ++ List.replicate fill '0' ++ if keepPoint then ['.', '0'] else []) =
      some (ofRank negative rank) := by
  have hfilled : ∀ c ∈ ds ++ List.replicate fill '0', c.isDigit = true := by
    intro c hc
    exact isDigit_of_mem_zeros hdigits c (List.mem_append.2 (List.mem_append.1 hc).symm)
  have hne' : ds ++ List.replicate fill '0' ≠ [] := List.append_ne_nil_of_left_ne_nil hne _
  have hten : (10 : ℚ) ≠ 0 := by norm_num
  cases keepPoint with
  | true =>
    apply readMagnitude_point hfilled (.inl hne') (List.forall_mem_singleton.2 rfl) rfl
    have hvalue : valueOf (ds ++ List.replicate fill '0' ++ ['0']) =
        valueOf ds * 10 ^ (fill + 1) := by
      rw [← List.replicate_one, List.append_assoc, List.replicate_append_replicate,
        valueOf_append_zeros]
    have hone : ((fill + 1 : ℕ) : Int) + (0 - (1 : ℕ)) = fill := by omega
    rw [hvalue, List.length_singleton, Nat.cast_mul, Nat.cast_pow, Nat.cast_ofNat, mul_assoc,
      ← zpow_natCast, ← zpow_add₀ hten, hone, zpow_natCast]
    exact hnear
  | false =>
    apply readMagnitude_whole hfilled hne' rfl
    rw [valueOf_append_zeros, zpow_zero, mul_one, Nat.cast_mul, Nat.cast_pow, Nat.cast_ofNat]
    exact hnear

/-- The point stands among the digits. -/
theorem readMagnitude_split {whole : Nat} (hpos : 0 < whole) (hlt : whole < ds.length)
    (hdigits : ∀ c ∈ ds, c.isDigit = true)
    (hnear : IsNearestRank (valueOf ds * 10 ^ (-(ds.length - whole : ℕ) : Int)) rank) :
    readMagnitude negative (ds.take whole ++ '.' :: ds.drop whole) =
      some (ofRank negative rank) := by
  have hne : ds.take whole ≠ [] := by
    rw [← List.length_pos_iff, List.length_take]
    omega
  rw [← List.append_nil (ds.drop whole)]
  apply readMagnitude_point (fun c hc ↦ hdigits c (List.mem_of_mem_take hc)) (.inl hne)
    (fun c hc ↦ hdigits c (List.mem_of_mem_drop hc)) rfl
  rw [List.take_append_drop, List.length_drop, zero_sub]
  exact hnear

theorem readMagnitude_positional (hx : x.IsNumeral) (hnear : IsNearestRank x.value rank)
    (keepPoint : Bool) :
    readMagnitude negative (x.positional keepPoint) = some (ofRank negative rank) := by
  obtain ⟨hne, hdigits⟩ := hx
  have hlength : 0 < x.digits.length := List.length_pos_iff.2 hne
  unfold value at hnear
  unfold positional
  split
  · apply readMagnitude_zeros _ hdigits
    have hscale : (-((-x.exponent - 1).toNat + x.digits.length : ℕ) : Int) =
        x.exponent + 1 - x.digits.length := by
      omega
    rwa [hscale]
  · dsimp only
    split
    · apply readMagnitude_filled _ hne hdigits
      have hscale : (((x.exponent + 1).toNat - x.digits.length : ℕ) : Int) =
          x.exponent + 1 - x.digits.length := by
        omega
      rwa [← zpow_natCast, hscale]
    · apply readMagnitude_split (by omega) (by omega) hdigits
      have hscale : (-(x.digits.length - (x.exponent + 1).toNat : ℕ) : Int) =
          x.exponent + 1 - x.digits.length := by
        omega
      rwa [hscale]

theorem readMagnitude_exponential (hx : x.IsNumeral) (hnear : IsNearestRank x.value rank) :
    readMagnitude negative x.exponential = some (ofRank negative rank) := by
  obtain ⟨hne, hdigits⟩ := hx
  have hexponent := readExponent_exponentText x.exponent
  unfold value at hnear
  unfold exponential
  split
  · rename_i hnil
    exact absurd hnil hne
  · rename_i d hd
    rw [hd] at hdigits hnear
    apply readMagnitude_whole hdigits (List.cons_ne_nil d []) hexponent
    rwa [List.length_singleton, Nat.cast_one, add_sub_cancel_right] at hnear
  · rename_i d rest _ hd
    rw [hd] at hdigits hnear
    obtain ⟨hd', hrest⟩ := List.forall_mem_cons.1 hdigits
    have hfirst : ∀ c ∈ [d], c.isDigit = true := by simpa using hd'
    apply readMagnitude_point hfirst (.inl (List.cons_ne_nil d [])) hrest hexponent
    have hscale : x.exponent + 1 - (d :: rest).length = x.exponent - rest.length := by
      rw [List.length_cons]
      omega
    rwa [hscale] at hnear

/-- However a number is laid out, it is read as the binary64 number nearest to it. -/
theorem readMagnitude_write (hx : x.IsNumeral) (hnear : IsNearestRank x.value rank)
    (layout : Layout) :
    readMagnitude negative (x.write layout) = some (ofRank negative rank) := by
  unfold write
  split
  · exact readMagnitude_positional hx hnear layout.keepPoint
  · exact readMagnitude_exponential hx hnear

/-! ## Characters -/

theorem isText_positional (hx : x.IsNumeral) (keepPoint : Bool) :
    IsText (x.positional keepPoint) := by
  obtain ⟨hne, hdigits⟩ := hx
  obtain ⟨d, ds, hds⟩ := List.exists_cons_of_ne_nil hne
  rw [hds] at hdigits
  obtain ⟨hd, hrest⟩ := List.forall_mem_cons.1 hdigits
  have hzeros (n : Nat) : ∀ c ∈ List.replicate n '0', IsMark c := by
    intro c hc
    rw [List.eq_of_mem_replicate hc]
    exact .inl rfl
  have hpoint : IsMark '.' := .inr (by decide)
  unfold positional
  rw [hds]
  split
  · apply IsText.of_digit rfl
    rw [List.forall_mem_cons, List.forall_mem_append]
    exact ⟨hpoint, hzeros _, fun c hc ↦ .inl (hdigits c hc)⟩
  · dsimp only
    split
    · rw [List.append_assoc, List.cons_append]
      apply IsText.of_digit hd
      rw [List.forall_mem_append, List.forall_mem_append]
      refine ⟨fun c hc ↦ .inl (hrest c hc), hzeros _, ?_⟩
      cases keepPoint with
      | true => exact List.forall_mem_cons.2 ⟨hpoint, hzeros 1⟩
      | false => exact List.forall_mem_nil _
    · rename_i hnonneg _
      obtain ⟨whole, hwhole⟩ : ∃ whole, (x.exponent + 1).toNat = whole + 1 :=
        ⟨x.exponent.toNat, by omega⟩
      rw [hwhole, List.take_succ_cons, List.drop_succ_cons, List.cons_append]
      apply IsText.of_digit hd
      rw [List.forall_mem_append, List.forall_mem_cons]
      exact ⟨fun c hc ↦ .inl (hrest c (List.mem_of_mem_take hc)), hpoint,
        fun c hc ↦ .inl (hrest c (List.mem_of_mem_drop hc))⟩

theorem isMark_of_mem_exponentText {e : Int} {c : Char} (hc : c ∈ exponentText e) : IsMark c := by
  unfold exponentText at hc
  rw [List.mem_cons, List.mem_cons] at hc
  rcases hc with rfl | rfl | hc
  · exact .inr (by decide)
  · split
    · exact .inr (by decide)
    · exact .inr (by decide)
  · exact .inl (isDigit_of_mem_zeros (fun c hc ↦ isDigit_of_mem_digits hc) c hc)

theorem isText_exponential (hx : x.IsNumeral) : IsText x.exponential := by
  obtain ⟨hne, hdigits⟩ := hx
  unfold exponential
  split
  · rename_i hnil
    exact absurd hnil hne
  · rename_i d hd
    rw [hd] at hdigits
    exact IsText.of_digit (hdigits d List.mem_cons_self) fun c hc ↦ isMark_of_mem_exponentText hc
  · rename_i d rest _ hd
    rw [hd] at hdigits
    obtain ⟨hd', hrest⟩ := List.forall_mem_cons.1 hdigits
    rw [List.cons_append]
    apply IsText.of_digit hd'
    rw [List.forall_mem_append, List.forall_mem_cons]
    exact ⟨⟨.inr (by decide), fun c hc ↦ .inl (hrest c hc)⟩,
      fun c hc ↦ isMark_of_mem_exponentText hc⟩

theorem isText_write (hx : x.IsNumeral) (layout : Layout) : IsText (x.write layout) := by
  unfold write
  split
  · exact isText_positional hx layout.keepPoint
  · exact isText_exponential hx

/-- What is laid out behind a sign is read as the number nearest to it, with that sign. -/
theorem readDecimal_signed_write {level : Finite} (hx : x.IsNumeral)
    (hnear : IsNearestRank x.value level.rank) (layout : Layout) :
    readDecimal (signed level.negative (x.write layout)) = some (.finite level) := by
  rw [readDecimal_signed (isText_write hx layout), readMagnitude_write hx hnear layout,
    ofRank_of_lt level.negative level.rank_lt]

end Write

end Scientific

end BucketStats.Decimal

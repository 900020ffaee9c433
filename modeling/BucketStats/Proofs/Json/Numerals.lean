import BucketStats.Proofs.Decimal.Shortest
import BucketStats.Proofs.Json.Reader
/-!
# Numerals in JSON read back

The digits of an integer and the shortest text of a number are JSON numerals: no needless zero comes
first, and a point has digits on both sides.
-/

namespace BucketStats.Document

open Decimal Binary64

/-! ## Digits and what comes after them -/

section Parts

variable {whole fraction rest : List Char}

/-- Whether digits may stand before a point: there are some, and no needless zero comes first. -/
structure IsWhole (whole : List Char) : Prop where
  ne_nil : whole ≠ []
  isDigit : ∀ c ∈ whole, c.isDigit = true
  no_zero : whole.length = 1 ∨ whole.head? ≠ some '0'

theorem isWhole_digit {d : Char} (hd : d.isDigit = true) : IsWhole [d] :=
  ⟨List.cons_ne_nil d [], List.forall_mem_singleton.2 hd, .inl rfl⟩

theorem isWhole_digits (n : Nat) : IsWhole (digits n) := by
  refine ⟨digits_ne_nil n, fun c hc ↦ isDigit_of_mem_digits hc, ?_⟩
  rcases n.eq_zero_or_pos with rfl | hn
  · exact .inl rfl
  · exact .inr (head?_digits_ne_zero hn)

theorem splitMinus_signed (hwhole : IsWhole whole) (negative : Bool) (rest : List Char) :
    splitMinus (signed negative (whole ++ rest)) = (negative, whole ++ rest) := by
  obtain ⟨d, ds, rfl⟩ := List.exists_cons_of_ne_nil hwhole.ne_nil
  cases negative with
  | true => rfl
  | false =>
    have hd : d ≠ '-' := by
      rintro rfl
      exact absurd (hwhole.isDigit '-' List.mem_cons_self) (by decide)
    change splitMinus (d :: (ds ++ rest)) = _
    unfold splitMinus
    split
    · rename_i heq
      cases heq
      exact absurd rfl hd
    · rfl

theorem readNumeral_signed (hwhole : IsWhole whole) (hrest : ∀ c ∈ rest.head?, c.isDigit = false)
    (hpointed : isPointed rest = true) (negative : Bool) :
    readNumeral (signed negative (whole ++ rest)) =
      if rest.isEmpty then
        some (.integer (if negative then -(valueOf whole : Int) else valueOf whole))
      else (readMagnitude negative (whole ++ rest)).map .number := by
  have hspan : (whole ++ rest).span Char.isDigit = (whole, rest) :=
    span_isDigit hwhole.isDigit hrest
  have hspoilt : (whole.isEmpty || (whole.head? == some '0' && decide (1 < whole.length)) ||
      !isPointed rest) = false := by
    rw [List.isEmpty_eq_false_iff.2 hwhole.ne_nil, hpointed]
    rcases hwhole.no_zero with hone | hhead
    · simp [hone]
    · simp [hhead]
  unfold readNumeral
  rw [splitMinus_signed hwhole]
  simp only [hspan, hspoilt]
  rfl

theorem readNumeral_toString (n : Int) : readNumeral (toString n).toList = some (.integer n) := by
  have hread := readNumeral_signed (isWhole_digits n.natAbs) (by simp) (rfl : isPointed [] = true)
    (decide (n < 0))
  rw [List.append_nil, ← toList_toString, valueOf_digits] at hread
  rw [hread, List.isEmpty_nil, if_pos rfl]
  by_cases hneg : n < 0
  · rw [decide_eq_true hneg, if_pos rfl]
    congr 2
    omega
  · rw [decide_eq_false hneg, if_neg Bool.false_ne_true]
    congr 2
    omega

/-! ## Shortest decimals -/

/-- Whether a text is made of digits and a point with a digit after it or the mark of an exponent. -/
def IsFractional (s : List Char) : Prop :=
  ∃ whole rest, s = whole ++ rest ∧ IsWhole whole ∧ rest ≠ [] ∧
    (∀ c ∈ rest.head?, c.isDigit = false) ∧ isPointed rest = true

theorem readNumeral_of_isFractional {s : List Char} (h : IsFractional s) (negative : Bool) :
    readNumeral (signed negative s) = (readMagnitude negative s).map .number := by
  obtain ⟨whole, rest, rfl, hwhole, hne, hdigit, hpointed⟩ := h
  rw [readNumeral_signed hwhole hdigit hpointed, if_neg (by simpa using hne)]

theorem isFractional_point (hwhole : IsWhole whole) (hne : fraction ≠ [])
    (hfraction : ∀ c ∈ fraction, c.isDigit = true) (tail : List Char) :
    IsFractional (whole ++ '.' :: (fraction ++ tail)) := by
  refine ⟨whole, _, rfl, hwhole, List.cons_ne_nil _ _, by simp, ?_⟩
  obtain ⟨d, ds, rfl⟩ := List.exists_cons_of_ne_nil hne
  exact hfraction d List.mem_cons_self

theorem isFractional_exponent {d : Char} (hd : d.isDigit = true) (e : Int) :
    IsFractional ([d] ++ Scientific.exponentText e) :=
  ⟨[d], _, rfl, isWhole_digit hd, List.cons_ne_nil _ _, by simp [Scientific.exponentText], rfl⟩

end Parts

section Scientific

variable {x : Scientific}

/-- Whether a zero comes first in the number zero only. -/
def IsNormal (x : Scientific) : Prop :=
  x = .zero ∨ x.digits.head? ≠ some '0'

theorem isFractional_positional (hx : x.IsNumeral) (hnormal : IsNormal x) :
    IsFractional (x.positional true) := by
  obtain ⟨hne, hdigits⟩ := hx
  have hzeros (n : Nat) : ∀ c ∈ List.replicate n '0' ++ x.digits, c.isDigit = true :=
    isDigit_of_mem_zeros hdigits
  unfold Scientific.positional
  split
  · have hfraction := isFractional_point (isWhole_digit (rfl : '0'.isDigit = true))
      (List.append_ne_nil_of_right_ne_nil _ hne) (hzeros (-x.exponent - 1).toNat) []
    rwa [List.append_nil] at hfraction
  · dsimp only
    split
    · have hfilled : IsWhole
          (x.digits ++ List.replicate ((x.exponent + 1).toNat - x.digits.length) '0') := by
        refine ⟨List.append_ne_nil_of_left_ne_nil hne _, ?_, ?_⟩
        · intro c hc
          exact hzeros _ c (List.mem_append.2 (List.mem_append.1 hc).symm)
        · rcases hnormal with rfl | hhead
          · exact .inl rfl
          · rw [List.head?_append_of_ne_nil _ hne]
            exact .inr hhead
      exact isFractional_point hfilled (List.cons_ne_nil '0' []) (List.forall_mem_singleton.2 rfl) []
    · rename_i hnonneg hlength
      have hwhole : IsWhole (x.digits.take (x.exponent + 1).toNat) := by
        refine ⟨?_, fun c hc ↦ hdigits c (List.mem_of_mem_take hc), ?_⟩
        · have hpos := List.length_pos_iff.2 hne
          rw [← List.length_pos_iff, List.length_take]
          omega
        · rcases hnormal with rfl | hhead
          · exact absurd (by decide) hlength
          · rw [List.head?_take, if_neg (by omega)]
            exact .inr hhead
      have hdrop : x.digits.drop (x.exponent + 1).toNat ≠ [] := by
        rw [← List.length_pos_iff, List.length_drop]
        omega
      have hfraction := isFractional_point hwhole hdrop
        (fun c hc ↦ hdigits c (List.mem_of_mem_drop hc)) []
      rwa [List.append_nil] at hfraction

theorem isFractional_exponential (hx : x.IsNumeral) : IsFractional x.exponential := by
  obtain ⟨hne, hdigits⟩ := hx
  unfold Scientific.exponential
  split
  · rename_i hnil
    exact absurd hnil hne
  · rename_i d hd
    rw [hd] at hdigits
    exact isFractional_exponent (hdigits d List.mem_cons_self) x.exponent
  · rename_i d rest hrest hd
    rw [hd] at hdigits
    obtain ⟨hd', hdigits⟩ := List.forall_mem_cons.1 hdigits
    exact isFractional_point (isWhole_digit hd') hrest hdigits _

end Scientific

theorem isNormal_shortest (rank : Nat) : IsNormal (shortest rank) := by
  by_cases hrank : rank = 0
  · exact .inl (if_pos hrank)
  · obtain ⟨⟨hne, _⟩, _⟩ := isNearestRank_shortest rank
    rw [shortest_eq_ofScaled hrank] at hne ⊢
    generalize (shortestScaled rank).1 = n at hne
    have hne' : dropTrailingZeros (digits n) ≠ [] := hne
    obtain ⟨zeros, hzeros⟩ := exists_zeros (digits n)
    have hn : 0 < n := by
      rw [Nat.pos_iff_ne_zero]
      rintro rfl
      exact hne rfl
    have hhead := head?_digits_ne_zero hn
    rw [hzeros, List.head?_append_of_ne_nil _ hne'] at hhead
    exact .inr hhead

/-- The shortest text of a number is read as that number. -/
theorem readNumeral_writeShortest (x : Finite) :
    readNumeral (writeShortest (.finite x)) = some (.number (.finite x)) := by
  obtain ⟨hnumeral, hnear⟩ := isNearestRank_shortest x.rank
  have hfractional : IsFractional ((shortest x.rank).write fullLayout) := by
    unfold Scientific.write
    split
    · exact isFractional_positional hnumeral (isNormal_shortest x.rank)
    · exact isFractional_exponential hnumeral
  have htext : writeShortest (.finite x) =
      signed x.negative ((shortest x.rank).write fullLayout) := rfl
  rw [htext, readNumeral_of_isFractional hfractional,
    Scientific.readMagnitude_write hnumeral hnear, ofRank_of_lt x.negative x.rank_lt]
  rfl

end BucketStats.Document

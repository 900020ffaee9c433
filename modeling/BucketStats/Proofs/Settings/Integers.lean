import BucketStats.Proofs.Settings.Quotes
import BucketStats.Proofs.Settings.Usable
/-!
# Whole numbers in settings

A setting is a whole number if its text is read as a binary64 number that is one.  So a long numeral
can be a whole number only because it was rounded to one.  Up to `2 ^ 53` nothing is rounded, and a
whole number in decimal digits stands for itself, whatever zeros, blanks and quotes come with it.
-/

namespace BucketStats.Settings

open Text Decimal Binary64

/-! ## Numerals of whole numbers -/

/-- Whether a text is a sign that the numeral of a whole number can begin with. -/
inductive IsSignOf (n : Int) : List Char → Prop where
  | absent (hn : 0 ≤ n) : IsSignOf n []
  | plus (hn : 0 ≤ n) : IsSignOf n ['+']
  | minus (hn : n ≤ 0) : IsSignOf n ['-']

/-- Whether a text is what stands behind the digits of a whole number: nothing, or a point and
zeros. -/
inductive IsZeroFraction : List Char → Prop where
  | absent : IsZeroFraction []
  | zeros (count : Nat) : IsZeroFraction ('.' :: List.replicate count '0')

/-- Whether a text is a numeral of a whole number, perhaps with zeros in front and behind. -/
inductive IsWhole (n : Int) : List Char → Prop where
  | mk {sign fraction : List Char} (hsign : IsSignOf n sign) (zeros : Nat)
      (hfraction : IsZeroFraction fraction) :
      IsWhole n (sign ++ (List.replicate zeros '0' ++ digits n.natAbs ++ fraction))

/-- Whether a text is another one with blanks around it, or in one layer of quotes. -/
inductive Surrounds (s : List Char) : List Char → Prop where
  | blanks (before after : Blanks) : Surrounds s (before.val ++ (s ++ after.val))
  | quotes (layer : Layer) : Surrounds s (layer.enclose s)

section Whole

variable {n : Int} {s t : List Char}

theorem isDigit_of_mem_filled {zeros m : Nat} :
    ∀ c ∈ List.replicate zeros '0' ++ digits m, c.isDigit = true :=
  isDigit_of_mem_zeros fun _ hc ↦ isDigit_of_mem_digits hc

theorem isUnsigned_filled (zeros m : Nat) {fraction : List Char}
    (hfraction : IsZeroFraction fraction) :
    IsUnsigned m (List.replicate zeros '0' ++ digits m ++ fraction) := by
  have hne : List.replicate zeros '0' ++ digits m ≠ [] :=
    List.append_ne_nil_of_right_ne_nil _ (digits_ne_nil m)
  have hvalue : Decimal.valueOf (List.replicate zeros '0' ++ digits m) = m := by
    rw [valueOf_zeros_append, valueOf_digits]
  cases hfraction with
  | absent =>
    rw [List.append_nil]
    exact isUnsigned_whole hne isDigit_of_mem_filled hvalue
  | zeros count =>
    have hzeros : ∀ c ∈ List.replicate count '0', c.isDigit = true := fun c hc ↦ by
      rw [List.eq_of_mem_replicate hc]
      rfl
    apply isUnsigned_point (.inl hne) isDigit_of_mem_filled hzeros
    rw [valueOf_append_zeros, hvalue, List.length_replicate, Nat.cast_mul, Nat.cast_pow,
      Nat.cast_ofNat]

theorem IsWhole.exists_isSigned (h : IsWhole n s) :
    ∃ negative, IsSigned negative n.natAbs s ∧
      (if negative then -(n.natAbs : Int) else n.natAbs) = n := by
  cases h with
  | mk hsign zeros hfraction =>
    have hunsigned := isUnsigned_filled zeros n.natAbs hfraction
    cases hsign with
    | absent hn => exact ⟨false, .bare hunsigned, Int.natAbs_of_nonneg hn⟩
    | plus hn => exact ⟨false, .plus hunsigned, Int.natAbs_of_nonneg hn⟩
    | minus hn =>
      refine ⟨true, .minus hunsigned, ?_⟩
      rw [if_pos rfl, Int.ofNat_natAbs_of_nonpos hn, neg_neg]

theorem IsWhole.isMark (h : IsWhole n s) : ∀ c ∈ s, IsMark c := by
  cases h with
  | mk hsign zeros hfraction =>
    refine List.forall_mem_append.2 ⟨?_, List.forall_mem_append.2 ⟨?_, ?_⟩⟩
    · cases hsign with
      | absent => simp
      | plus => exact List.forall_mem_singleton.2 (by decide)
      | minus => exact List.forall_mem_singleton.2 (by decide)
    · exact fun c hc ↦ .inl (isDigit_of_mem_filled c hc)
    · cases hfraction with
      | absent => simp
      | zeros count =>
        refine List.forall_mem_cons.2 ⟨by decide, fun c hc ↦ ?_⟩
        rw [List.eq_of_mem_replicate hc]
        decide

theorem IsWhole.hasMarkEnds (h : IsWhole n s) : HasMarkEnds s := by
  refine hasMarkEnds_of_isMark ?_ h.isMark
  cases h with
  | mk _ zeros _ =>
    exact List.append_ne_nil_of_right_ne_nil _ (List.append_ne_nil_of_left_ne_nil
      (List.append_ne_nil_of_right_ne_nil _ (digits_ne_nil _)) _)

/-- What is around a text that begins and ends as numerals do is no part of its number. -/
theorem Surrounds.numberOfText_eq (h : Surrounds s t) (hs : HasMarkEnds s) :
    numberOfText t = readDecimal s := by
  cases h with
  | blanks before after =>
    rw [numberOfText_eq_readDecimal, trim_margins, hs.trim_eq, hs.unquote_eq]
  | quotes layer => rw [layer.numberOfText_enclose, hs.trim_eq]

/-- Up to `2 ^ 53` a numeral of a whole number is read as it. -/
theorem integerOfText_of_isWhole (hn : n.natAbs ≤ 2 ^ 53) (hs : IsWhole n s) (ht : Surrounds s t) :
    integerOfText t = some n := by
  obtain ⟨negative, hsigned, hvalue⟩ := hs.exists_isSigned
  rw [integerOfText, ht.numberOfText_eq hs.hasMarkEnds, toInt?_of_isSigned hsigned hn, hvalue]

end Whole

/-! ## The whole number under a key -/

section Key

variable (settings : Settings) (key : String)

/-- The number under a key, if its text is one. -/
def numberUnder? : Option Binary64 :=
  (settings.find? key).bind fun s ↦ numberOfText s.toList

theorem numberOf_valueOf :
    numberOf (settings.valueOf key) = .ok (settings.numberUnder? key) := by
  unfold valueOf numberUnder?
  cases settings.find? key with
  | none => rfl
  | some s => rfl

theorem integerUnder_eq :
    integerUnder (.text key) settings.toValue = .ok ((settings.numberUnder? key).bind toInt?) := by
  rw [integerUnder_toValue, numberUnder?, Option.bind_assoc]
  rfl

end Key

/-- Reading the whole number under a key always succeeds.  It gives a whole number just if the number
under the key is finite and has that value, and up to `2 ^ 53` it gives back the whole number that
stands there in decimal digits. -/
theorem integerUnder_exact (settings : Settings) (key : String) :
    ∃ result, integerUnder (.text key) settings.toValue = .ok result ∧
      (∀ n, result = some n ↔
        ∃ x, numberOf (settings.valueOf key) = .ok (some (.finite x)) ∧ x.value = n) ∧
      ∀ (n : Int) (numeral text : List Char), n.natAbs ≤ 2 ^ 53 → IsWhole n numeral →
        Surrounds numeral text → settings.find? key = some (String.ofList text) →
          result = some n := by
  refine ⟨_, integerUnder_eq settings key, fun n ↦ ?_, fun n numeral text hn hs ht hfind ↦ ?_⟩
  · rw [numberOf_valueOf, Option.bind_eq_some_iff]
    constructor
    · rintro ⟨y, hy, hwhole⟩
      obtain ⟨x, rfl, hvalue⟩ := toInt?_eq_some_iff.1 hwhole
      exact ⟨x, congrArg Except.ok hy, hvalue⟩
    · rintro ⟨x, hx, hvalue⟩
      exact ⟨.finite x, Except.ok.inj hx, toInt?_eq_some_iff.2 ⟨x, rfl, hvalue⟩⟩
  · rw [numberUnder?, hfind, Option.bind_some, String.toList_ofList]
    exact integerOfText_of_isWhole hn hs ht

theorem integerUnder_exact_of_seven :
    IsWhole (-7) "-007.000".toList ∧ Surrounds "-007.000".toList " '\t-007.000' \n".toList ∧
      integerUnder (.text "bins") (toValue [("bins", " '\t-007.000' \n")]) = .ok (some (-7)) := by
  have hwhole : IsWhole (-7) "-007.000".toList := .mk (.minus (by decide)) 2 (.zeros 3)
  have htext : looseLayer.enclose "-007.000".toList = " '\t-007.000' \n".toList := by decide
  have hsurrounds : Surrounds "-007.000".toList " '\t-007.000' \n".toList := by
    rw [← htext]
    exact .quotes looseLayer
  obtain ⟨result, hresult, -, hexact⟩ := integerUnder_exact [("bins", " '\t-007.000' \n")] "bins"
  rw [hresult, hexact (-7) _ _ (by decide) hwhole hsurrounds rfl]
  exact ⟨hwhole, hsurrounds, rfl⟩

end BucketStats.Settings

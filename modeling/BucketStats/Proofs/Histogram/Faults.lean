import BucketStats.Proofs.Histogram.Observations
/-!
# Faults of integers

Given integers, the mean, a quantile and the count of observations are found unless an integer is
negative or there are no observations, and each of the two has its own family of faults.  There is
one exception: the fault of the first negative integer shows it, and an integer past the limit of
digits cannot be shown.
-/

namespace BucketStats

/-- Whether a computation fails as invalid input under one condition, as an empty distribution under
another, and in no other way. -/
structure FailsOnly {α : Type} (invalid empty : Prop) (x : Except Fault α) : Prop where
  family_of_error : ∀ f, x = .error f →
    f.family = .invalidInput ∨ f.family = .emptyDistribution
  invalidInput_iff : (∃ f, x = .error f ∧ f.family = .invalidInput) ↔ invalid
  emptyDistribution_iff : (∃ f, x = .error f ∧ f.family = .emptyDistribution) ↔ empty

section FailsOnly

variable {α : Type} {invalid empty : Prop}

theorem failsOnly_ok_iff (a : α) :
    FailsOnly invalid empty (.ok a : Except Fault α) ↔ ¬ invalid ∧ ¬ empty := by
  constructor
  · intro h
    refine ⟨fun hinvalid ↦ ?_, fun hempty ↦ ?_⟩
    · obtain ⟨f, hf, _⟩ := h.invalidInput_iff.2 hinvalid
      cases hf
    · obtain ⟨f, hf, _⟩ := h.emptyDistribution_iff.2 hempty
      cases hf
  · rintro ⟨hinvalid, hempty⟩
    have hnone (family : Fault.Family) :
        ¬ ∃ f, (.ok a : Except Fault α) = .error f ∧ f.family = family := by
      rintro ⟨f, hf, _⟩
      cases hf
    refine ⟨?_, iff_of_false (hnone _) hinvalid, iff_of_false (hnone _) hempty⟩
    intro f hf
    cases hf

theorem failsOnly_error_iff (f : Fault) :
    FailsOnly invalid empty (.error f : Except Fault α) ↔
      (f.family = .invalidInput ∧ invalid ∧ ¬ empty) ∨
        (f.family = .emptyDistribution ∧ ¬ invalid ∧ empty) := by
  have hfamily (family : Fault.Family) :
      (∃ f', (.error f : Except Fault α) = .error f' ∧ f'.family = family) ↔ f.family = family := by
    simp
  constructor
  · rintro ⟨honly, hinvalid, hempty⟩
    rw [hfamily] at hinvalid hempty
    rcases honly f rfl with hf | hf
    · exact .inl ⟨hf, hinvalid.1 hf, fun h ↦ by rw [hempty.2 h] at hf; cases hf⟩
    · exact .inr ⟨hf, fun h ↦ (by rw [hinvalid.2 h] at hf; cases hf), hempty.1 hf⟩
  · intro h
    have honly : f.family = .invalidInput ∨ f.family = .emptyDistribution :=
      h.imp And.left And.left
    refine ⟨fun f' hf' ↦ Except.error.inj hf' ▸ honly, ?_, ?_⟩
    · rw [hfamily]
      rcases h with ⟨hf, hinvalid, _⟩ | ⟨hf, hinvalid, _⟩ <;> simp [hf, hinvalid]
    · rw [hfamily]
      rcases h with ⟨hf, _, hempty⟩ | ⟨hf, _, hempty⟩ <;> simp [hf, hempty]

/-- The fault that shows an integer, or that there are too many digits to show. -/
def showing (n : Int) (fault : String → Fault) : Fault :=
  if Decimal.WithinLimit n then fault (toString n) else .tooManyDigits

theorem integerText_bind_error (n : Int) (fault : String → Fault) :
    (integerText n >>= fun shown ↦ (.error (fault shown) : Except Fault α)) =
      .error (showing n fault) := by
  unfold showing
  by_cases hlimit : Decimal.WithinLimit n
  · rw [if_pos hlimit, integerText_eq_ok_iff.2 ⟨hlimit, rfl⟩, ok_bind]
  · have herror : integerText n = .error .tooManyDigits := by
      cases htext : integerText n with
      | ok s => exact absurd (integerText_eq_ok_iff.1 htext).1 hlimit
      | error f =>
        unfold integerText at htext
        split at htext
        · cases htext
        · exact htext.symm
    rw [if_neg hlimit, herror]
    rfl

/-- Invalid input is told as such if it can be shown. -/
theorem failsOnly_showing_iff {n : Int} {fault : String → Fault} (hinvalid : invalid)
    (hempty : ¬ empty) (hfamily : ∀ shown, (fault shown).family = .invalidInput) :
    FailsOnly invalid empty (.error (showing n fault) : Except Fault α) ↔
      Decimal.WithinLimit n := by
  rw [failsOnly_error_iff]
  unfold showing
  split_ifs with hlimit
  · simp [hfamily, hinvalid, hempty, hlimit]
  · simp [Fault.family, hlimit]

end FailsOnly

namespace Histogram

section Integers

variable {counts : List Int}

/-- Whether the first negative integer, if there is one, can be shown. -/
def ShowsFirstNegative (counts : List Int) : Prop :=
  ∀ n ∈ counts.find? (· < 0), Decimal.WithinLimit n

instance (counts : List Int) : Decidable (ShowsFirstNegative counts) :=
  inferInstanceAs (Decidable (∀ n ∈ counts.find? (· < 0), Decimal.WithinLimit n))

theorem showsFirstNegative_of_nonneg (hnonneg : ∀ n ∈ counts, 0 ≤ n) :
    ShowsFirstNegative counts := by
  have hnone : counts.find? (· < 0) = none := by
    rw [List.find?_eq_none]
    intro n hn
    simpa using hnonneg n hn
  intro n hn
  rw [hnone] at hn
  cases hn

theorem showsFirstNegative_iff {first : Nat} {count : Int}
    (hfirst : counts.findIdx? (· < 0) = some first) (hcount : counts[first]? = some count) :
    ShowsFirstNegative counts ↔ Decimal.WithinLimit count := by
  have hfind : counts.find? (· < 0) = some count := find?_eq_some_of_first hfirst hcount
  simp [ShowsFirstNegative, hfind]

/-! ## Integers of which one is negative -/

/-- The first negative observation ends the count. -/
theorem ofObservations_of_negative {first : Nat} {count : Int}
    (hfirst : counts.findIdx? (· < 0) = some first) (hcount : counts[first]? = some count)
    (hfits : ∀ n ∈ counts, n < memoryLimit) :
    ofObservations (.list (counts.map .int)) =
      integerText count >>= fun shown ↦ .error (.negativeObservation first shown) := by
  apply ofObservations_of_misfit (v := .int count) rfl
  · rw [← hfirst, ← findIdx?_map_int, List.findIdx?_map, List.findIdx?_map]
    rfl
  · rw [List.getElem?_map, hcount, Option.map_some]
  · intro value hvalue
    obtain ⟨n, hn, hsame⟩ := List.mem_map.1 (List.mem_of_mem_take hvalue)
    cases hsame
    exact_mod_cast hfits value hn

/-- Where an integer is negative, all three fail in the same way. -/
theorem failures_of_negative (level : Binary64) {first : Nat} {count : Int}
    (hfirst : counts.findIdx? (· < 0) = some first) (hcount : counts[first]? = some count) :
    let values := Value.list (counts.map .int)
    weightedMeanOf values = .error (showing count (.negativeCount first)) ∧
      quantileOf values (.float level) = .error (showing count (.negativeCount first)) ∧
      ((∀ n ∈ counts, n < memoryLimit) →
        ofObservations values = .error (showing count (.negativeObservation first))) := by
  intro values
  have hvalue : ofValue values = .error (showing count (.negativeCount first)) := by
    rw [ofValue_ints_of_negative hfirst hcount, integerText_bind_error]
  refine ⟨?_, ?_, fun hfits ↦ ?_⟩
  · rw [weightedMeanOf, hvalue]
    rfl
  · rw [quantileOf, hvalue]
    rfl
  · rw [ofObservations_of_negative hfirst hcount hfits, integerText_bind_error]

/-! ## Integers none of which is negative -/

theorem failsOnly_of_total (h : Histogram) {α : Type} (a : α) :
    FailsOnly False (h.total = 0)
      (if h.total = 0 then .error (.noObservations h.length) else .ok a) := by
  split_ifs with hempty
  · exact (failsOnly_error_iff _).2 (.inr ⟨rfl, not_false, hempty⟩)
  · exact (failsOnly_ok_iff a).2 ⟨not_false, hempty⟩

theorem ofObservations_natCast (observed : List Nat)
    (hfits : ∀ value ∈ observed, value < memoryLimit) :
    ofObservations (.list (observed.map fun (value : Nat) ↦ .int value)) = .ok (tally observed) := by
  have hall := @ofObservations_eq_tally (observed.map some) fun value hvalue ↦
    hfits value (by simpa using hvalue)
  have hpresent : (observed.map some).reduceOption = observed := by
    simp [List.reduceOption]
  rw [List.map_map, hpresent] at hall
  exact hall

/-- Where no integer is negative, only a distribution without observations fails. -/
theorem failsOnly_of_natCast (h : Histogram) (level : Binary64) :
    let values := Value.list (h.map fun (count : Nat) ↦ .int count)
    FailsOnly False (h.total = 0) (weightedMeanOf values) ∧
      FailsOnly False (h.total = 0) (quantileOf values (.float level)) ∧
      ((∀ count ∈ h, count < memoryLimit) → FailsOnly False False (ofObservations values)) := by
  intro values
  have hvalue : ofValue values = .ok h := h.ofValue_toValue
  refine ⟨?_, ?_, fun hfits ↦ ?_⟩
  · rw [weightedMeanOf, hvalue]
    exact failsOnly_of_total h _
  · rw [quantileOf, hvalue]
    exact failsOnly_of_total h _
  · rw [ofObservations_natCast h hfits]
    exact (failsOnly_ok_iff _).2 ⟨not_false, not_false⟩

end Integers

/-- Given integers and any level, the mean and a quantile fail as invalid input if one of them is
negative, as an empty distribution if there are none but zeros, and in no other way, and the count of
observations that fit into memory as invalid input alone: exactly if the first negative integer can
be shown.  If it cannot, that is what all three fail with. -/
theorem failsOnly_iff (counts : List Int) (level : Binary64) :
    let values := Value.list (counts.map .int)
    let negative := ∃ n ∈ counts, n < 0
    let empty := ∀ n ∈ counts, n = 0
    (FailsOnly negative empty (weightedMeanOf values) ↔ ShowsFirstNegative counts) ∧
    (FailsOnly negative empty (quantileOf values (.float level)) ↔ ShowsFirstNegative counts) ∧
    ((∀ n ∈ counts, n < memoryLimit) →
      (FailsOnly negative False (ofObservations values) ↔ ShowsFirstNegative counts)) ∧
    (¬ ShowsFirstNegative counts →
      weightedMeanOf values = .error .tooManyDigits ∧
      quantileOf values (.float level) = .error .tooManyDigits ∧
      ((∀ n ∈ counts, n < memoryLimit) → ofObservations values = .error .tooManyDigits)) := by
  intro values negative empty
  by_cases hnegative : ∃ n ∈ counts, n < 0
  · obtain ⟨first, count, hfirst, hcount, hneg, _⟩ := exists_first_negative hnegative
    have hempty : ¬ empty := fun hzeros ↦
      absurd (hzeros count (List.mem_of_getElem? hcount)) hneg.ne
    obtain ⟨hmean, hquantile, hobservations⟩ := failures_of_negative level hfirst hcount
    rw [showsFirstNegative_iff hfirst hcount]
    refine ⟨?_, ?_, fun hfits ↦ ?_, fun hlimit ↦ ?_⟩
    · rw [hmean]
      exact failsOnly_showing_iff hnegative hempty fun _ ↦ rfl
    · rw [hquantile]
      exact failsOnly_showing_iff hnegative hempty fun _ ↦ rfl
    · rw [hobservations hfits]
      exact failsOnly_showing_iff hnegative not_false fun _ ↦ rfl
    · unfold showing at hmean hquantile hobservations
      rw [if_neg hlimit] at hmean hquantile hobservations
      exact ⟨hmean, hquantile, hobservations⟩
  · have hnonneg : ∀ n ∈ counts, 0 ≤ n := by
      intro n hn
      exact Int.not_lt.1 fun hneg ↦ hnegative ⟨n, hn, hneg⟩
    have hshows := showsFirstNegative_of_nonneg hnonneg
    obtain ⟨h, rfl⟩ := exists_eq_map_cast hnonneg
    have hempty : empty ↔ h.total = 0 := by
      rw [total_eq_zero_iff]
      simp [empty]
    have hvalues : values = .list (h.map fun (count : Nat) ↦ .int count) := by
      simp only [values, List.map_map]
      rfl
    obtain ⟨hmean, hquantile, hobservations⟩ := failsOnly_of_natCast h level
    have hnegative : negative = False := eq_false hnegative
    rw [hnegative, propext hempty, hvalues]
    simp only [hshows, iff_true, not_true_eq_false, false_imp_iff, and_true]
    refine ⟨hmean, hquantile, fun hfits ↦ hobservations fun count hcount ↦ ?_⟩
    exact_mod_cast hfits count (List.mem_map_of_mem hcount)

/-- A negative integer between others is told as such; one with 4301 digits is not, whatever the level
is. -/
theorem failsOnly_of_three_integers :
    let counts : List Int := [3, -1, 0]
    let large : List Int := [0, -(tenPow 4300 : Nat)]
    let values := Value.list (counts.map .int)
    let negative := ∃ n ∈ counts, n < 0
    let empty := ∀ n ∈ counts, n = 0
    FailsOnly negative empty (weightedMeanOf values) ∧
      FailsOnly negative empty (quantileOf values (.float (.nan 0))) ∧
      FailsOnly negative False (ofObservations values) ∧
      weightedMeanOf (.list (large.map .int)) = .error .tooManyDigits ∧
      quantileOf (.list (large.map .int)) (.float (.nan 0)) = .error .tooManyDigits ∧
      ofObservations (.list (large.map .int)) = .error .tooManyDigits := by
  intro counts large values negative empty
  have hshows : ShowsFirstNegative counts := by decide
  have hlarge : ¬ ShowsFirstNegative large := by decide +kernel
  obtain ⟨hmean, hquantile, hobservations, _⟩ := failsOnly_iff counts (.nan 0)
  obtain ⟨_, _, _, hfails⟩ := failsOnly_iff large (.nan 0)
  obtain ⟨hmean', hquantile', hobservations'⟩ := hfails hlarge
  exact ⟨hmean.2 hshows, hquantile.2 hshows, (hobservations (by decide +kernel)).2 hshows, hmean',
    hquantile', hobservations' (by decide +kernel)⟩

/-- The greatest negative integer with 4301 digits is invalid input, and none of the three says so. -/
theorem not_failsOnly_of_many_digits :
    let counts : List Int := [-(tenPow 4300 : Nat)]
    let values := Value.list (counts.map .int)
    let negative := ∃ n ∈ counts, n < 0
    let empty := ∀ n ∈ counts, n = 0
    ¬ FailsOnly negative empty (weightedMeanOf values) ∧
      ¬ FailsOnly negative empty (quantileOf values (.float (.nan 0))) ∧
      ¬ FailsOnly negative False (ofObservations values) := by
  intro counts values negative empty
  have hmean : weightedMeanOf values = .error .tooManyDigits := by decide +kernel
  have hquantile : quantileOf values (.float (.nan 0)) = .error .tooManyDigits := by decide +kernel
  have hobservations : ofObservations values = .error .tooManyDigits := by decide +kernel
  rw [hmean, hquantile, hobservations]
  simp [failsOnly_error_iff, Fault.family]

end Histogram

end BucketStats

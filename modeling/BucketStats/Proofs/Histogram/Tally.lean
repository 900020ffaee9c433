import BucketStats.Proofs.Histogram.Observations
/-!
# The histogram of some observations

It is as long as the greatest observation needs, and each bucket holds how often its value was
observed.  So it depends neither on the order of the observations nor on missing ones, and a histogram
whose last bucket is not empty is the one of the observations that it stands for.
-/

namespace BucketStats.Histogram

/-! ## Lengths -/

theorem size_observe_le_iff (counts : Array Nat) (value n : Nat) :
    (observe counts value).size ≤ n ↔ counts.size ≤ n ∧ value < n := by
  have hsize : (observe counts value).size = counts.size + (value + 1 - counts.size) := by
    simp [observe]
  omega

theorem size_foldl_observe_le_iff (observed : List Nat) (counts : Array Nat) (n : Nat) :
    (observed.foldl observe counts).size ≤ n ↔
      counts.size ≤ n ∧ ∀ value ∈ observed, value < n := by
  induction observed generalizing counts with
  | nil => simp
  | cons value rest ih =>
    rw [List.foldl_cons, ih, size_observe_le_iff, List.forall_mem_cons, and_assoc]

/-- The histogram of some observations is no longer than they need. -/
theorem length_tally_le_iff (observed : List Nat) (n : Nat) :
    (tally observed).length ≤ n ↔ ∀ value ∈ observed, value < n := by
  have hall := size_foldl_observe_le_iff observed #[] n
  simpa [tally] using hall

theorem length_tally (observed : List Nat) :
    (tally observed).length = observed.max?.elim 0 (· + 1) := by
  cases hmax : observed.max? with
  | none =>
    rw [List.max?_eq_none_iff] at hmax
    subst hmax
    rfl
  | some greatest =>
    obtain ⟨hmem, hle⟩ := List.max?_eq_some_iff.1 hmax
    apply le_antisymm
    · exact (length_tally_le_iff _ _).2 fun value hvalue ↦ Nat.lt_succ_of_le (hle value hvalue)
    · exact (length_tally_le_iff _ _).1 le_rfl greatest hmem

/-! ## Entries -/

theorem countP_le_succ (observed : List Nat) (bound : Nat) :
    observed.countP (· ≤ bound + 1) = observed.countP (· ≤ bound) + observed.count (bound + 1) := by
  induction observed with
  | nil => rfl
  | cons value rest ih =>
    rw [List.countP_cons, List.countP_cons, List.count_cons, ih]
    simp only [decide_eq_true_eq, beq_iff_eq]
    split_ifs <;> omega

/-- A bucket holds how often its value was observed. -/
theorem getD_tally (observed : List Nat) (value : Nat) :
    (tally observed).getD value 0 = observed.count value := by
  cases value with
  | zero =>
    rw [← cumulative_zero, cumulative_tally, List.count]
    apply List.countP_congr
    simp
  | succ value =>
    have hstep := cumulative_succ (tally observed) value
    rw [cumulative_tally, cumulative_tally, countP_le_succ] at hstep
    exact (Nat.add_left_cancel hstep).symm

/-! ## Histograms without empty buckets at the end -/

/-- Whether the last bucket, if there is one, is not empty. -/
def EndsFilled (h : Histogram) : Prop :=
  ∀ last ∈ h.getLast?, 0 < last

instance (h : Histogram) : Decidable h.EndsFilled :=
  inferInstanceAs (Decidable (∀ last ∈ h.getLast?, 0 < last))

theorem EndsFilled.getD_pos {h : Histogram} (hends : h.EndsFilled) (hne : h ≠ []) :
    0 < h.getD (h.length - 1) 0 := by
  have hlast : h.getLast? = some (h.getD (h.length - 1) 0) := by
    have hlt : h.length - 1 < h.length := Nat.sub_one_lt (List.length_pos_iff.2 hne).ne'
    rw [List.getLast?_eq_getElem?, List.getD_eq_getElem _ _ hlt, List.getElem?_eq_getElem hlt]
  exact hends _ hlast

theorem endsFilled_tally (observed : List Nat) : (tally observed).EndsFilled := by
  intro last hlast
  rw [Option.mem_def, List.getLast?_eq_getElem?] at hlast
  obtain ⟨hlt, rfl⟩ := List.getElem?_eq_some_iff.1 hlast
  -- the last bucket is there because a value needs it
  have hneeded : ¬ ∀ value ∈ observed, value < (tally observed).length - 1 := by
    rw [← length_tally_le_iff]
    omega
  push Not at hneeded
  obtain ⟨value, hvalue, hge⟩ := hneeded
  have hlength := (length_tally_le_iff observed _).1 le_rfl value hvalue
  obtain rfl : value = (tally observed).length - 1 := by omega
  rw [← List.getD_eq_getElem _ 0 hlt, getD_tally]
  exact List.count_pos_iff.2 hvalue

/-- Filled ends are where entries that are the same end. -/
theorem EndsFilled.length_le {h h' : Histogram} (hends : h.EndsFilled)
    (hsame : ∀ value, h.getD value 0 = h'.getD value 0) : h.length ≤ h'.length := by
  by_contra hlonger
  have hne : h ≠ [] := by
    rintro rfl
    exact hlonger (Nat.zero_le _)
  have hlast := hends.getD_pos hne
  rw [hsame, List.getD_eq_default _ _ (by omega)] at hlast
  exact lt_irrefl 0 hlast

/-- Without empty buckets at the end a histogram is told by its entries. -/
theorem EndsFilled.eq_of_getD {h h' : Histogram} (hends : h.EndsFilled) (hends' : h'.EndsFilled)
    (hsame : ∀ value, h.getD value 0 = h'.getD value 0) : h = h' := by
  have hlength : h.length = h'.length :=
    le_antisymm (hends.length_le hsame) (hends'.length_le fun value ↦ (hsame value).symm)
  apply List.ext_getElem hlength
  intro value hlt hlt'
  rw [← List.getD_eq_getElem h 0 hlt, ← List.getD_eq_getElem h' 0 hlt', hsame]

/-! ## The observations that a histogram stands for -/

/-- The observations that counts stand for whose first one stands for a given bucket. -/
def observationsFrom (bucket : Nat) : Histogram → List Nat
  | [] => []
  | count :: rest => List.replicate count bucket ++ observationsFrom (bucket + 1) rest

/-- The observations that a histogram stands for, in ascending order. -/
def observations (h : Histogram) : List Nat :=
  observationsFrom 0 h

theorem le_of_mem_observationsFrom {bucket value : Nat} {h : Histogram}
    (hvalue : value ∈ observationsFrom bucket h) : bucket ≤ value := by
  induction h generalizing bucket with
  | nil => cases hvalue
  | cons count rest ih =>
    rw [observationsFrom, List.mem_append] at hvalue
    rcases hvalue with hvalue | hvalue
    · exact (List.eq_of_mem_replicate hvalue).ge
    · exact Nat.le_of_succ_le (ih hvalue)

theorem count_observationsFrom (bucket index : Nat) (h : Histogram) :
    (observationsFrom bucket h).count (bucket + index) = h.getD index 0 := by
  induction h generalizing bucket index with
  | nil => rfl
  | cons count rest ih =>
    rw [observationsFrom, List.count_append, List.count_replicate]
    cases index with
    | zero =>
      have hnone : (observationsFrom (bucket + 1) rest).count (bucket + 0) = 0 := by
        apply List.count_eq_zero_of_not_mem
        intro hmem
        exact absurd (le_of_mem_observationsFrom hmem) (Nat.not_succ_le_self bucket)
      rw [hnone]
      simp
    | succ index =>
      have hshift : bucket + (index + 1) = bucket + 1 + index := by omega
      rw [hshift, ih, List.getD_cons_succ, if_neg (by simp; omega), Nat.zero_add]

@[simp]
theorem count_observations (h : Histogram) (value : Nat) :
    h.observations.count value = h.getD value 0 := by
  have hfrom := count_observationsFrom 0 value h
  rwa [Nat.zero_add] at hfrom

/-- Any arrangement of the observations that a histogram stands for gives it back. -/
theorem tally_of_perm {h : Histogram} (hends : h.EndsFilled) {observed : List Nat}
    (hperm : observed.Perm h.observations) : tally observed = h := by
  apply (endsFilled_tally observed).eq_of_getD hends
  intro value
  rw [getD_tally, hperm.count_eq, count_observations]

theorem tally_congr {observed observed' : List Nat} (hperm : observed'.Perm observed) :
    tally observed' = tally observed := by
  apply (endsFilled_tally observed').eq_of_getD (endsFilled_tally observed)
  intro value
  rw [getD_tally, getD_tally, hperm.count_eq]

/-! ## Observations given as values -/

theorem growthFault?_zero_eq_none_iff {value : Nat} :
    growthFault? 0 value = none ↔ value < memoryLimit := by
  refine ⟨fun hnone ↦ ?_, growthFault?_eq_none⟩
  by_contra hlarge
  unfold growthFault? at hnone
  split_ifs at hnone with hindex hmemory
  exact hmemory ⟨Nat.zero_le _, Nat.not_lt.1 hlarge⟩

theorem count_reduceOption (observations : List (Option Nat)) (value : Nat) :
    observations.reduceOption.count value = observations.count (some value) := by
  induction observations with
  | nil => rfl
  | cons o rest ih =>
    cases o with
    | none => simpa [List.reduceOption_cons_of_none] using ih
    | some observed => simp [List.reduceOption_cons_of_some, List.count_cons, ih]

/-- The same observations, in any order and with any missing ones among them, have one histogram. -/
theorem ofObservations_of_perm {observations : List (Option Nat)} {observed : List Nat}
    (hperm : observations.reduceOption.Perm observed)
    (hgrows : ∀ value ∈ observed, growthFault? 0 value = none) :
    ofObservations (.list (observations.map observationValue)) = .ok (tally observed) := by
  have hfits : ∀ value, some value ∈ observations → value < memoryLimit := by
    intro value hvalue
    have hmem : value ∈ observed := hperm.mem_iff.1 (List.reduceOption_mem_iff.2 hvalue)
    exact growthFault?_zero_eq_none_iff.1 (hgrows value hmem)
  rw [ofObservations_eq_tally hfits, tally_congr hperm]

/-- Counting observations for which there is memory.  The histogram has a bucket for each value up to
the greatest one, holds how often each was observed, does not end in an empty bucket, and is the same
for any order of the observations and any missing ones among them; a histogram that does not end in
an empty bucket is the one of the observations that it stands for, in any order; and the first value
that is no observation, which has to be one that can be shown, is told by its position, missing
observations counted. -/
theorem ofObservations_counts :
    (∀ observations : List (Option Nat),
      (∀ value, some value ∈ observations → growthFault? 0 value = none) →
      ∃ h, ofObservations (.list (observations.map observationValue)) = .ok h ∧
        h.length = observations.reduceOption.max?.elim 0 (· + 1) ∧
        (∀ value, h.getD value 0 = observations.count (some value)) ∧ h.EndsFilled ∧
        ∀ observations' : List (Option Nat),
          observations'.reduceOption.Perm observations.reduceOption →
            ofObservations (.list (observations'.map observationValue)) = .ok h) ∧
    (∀ h : Histogram, h.EndsFilled → (∀ value ∈ h.observations, growthFault? 0 value = none) →
      ∀ observations : List (Option Nat), observations.reduceOption.Perm h.observations →
        ofObservations (.list (observations.map observationValue)) = .ok h) ∧
    ∀ items : List Value, (∀ value : Nat, .int value ∈ items → growthFault? 0 value = none) →
      (∀ v ∈ items.find? (fun v ↦ !isObservation v), v.IsShowable) →
      (∃ v ∈ items, isObservation v = false) →
      ∃ first v shown fault, items.findIdx? (fun v ↦ !isObservation v) = some first ∧
        items[first]? = some v ∧ v.literal = .ok shown ∧
        ofObservations (.list items) = .error fault ∧ fault.family = .invalidInput ∧
        fault.message = s!"observation at position {first} is {shortcoming v}: {shown}" := by
  refine ⟨fun observations hgrows ↦ ?_, fun h hends hgrows observations hperm ↦ ?_,
    fun items hgrows hshown hmisfit ↦ ?_⟩
  · have hpresent : ∀ value ∈ observations.reduceOption, growthFault? 0 value = none :=
      fun value hvalue ↦ hgrows value (List.reduceOption_mem_iff.1 hvalue)
    refine ⟨tally observations.reduceOption, ofObservations_of_perm (.refl _) hpresent,
      length_tally _, fun value ↦ ?_, endsFilled_tally _, fun observations' hperm ↦ ?_⟩
    · rw [getD_tally, count_reduceOption]
    · exact ofObservations_of_perm hperm hpresent
  · rw [ofObservations_of_perm hperm hgrows, tally_of_perm hends (.refl _)]
  · have hsome : ∃ v ∈ items, (!isObservation v) = true := by simpa using hmisfit
    obtain ⟨first, v, shown, hfirst, hv, hliteral⟩ := exists_first_shown hsome hshown
    have hfits : ∀ value : Nat, .int value ∈ items.take first → value < memoryLimit :=
      fun value hvalue ↦ growthFault?_zero_eq_none_iff.1 (hgrows value (List.mem_of_mem_take hvalue))
    have herror := @ofObservations_of_misfit (.list items) items first v rfl hfirst hv hfits
    rw [hliteral] at herror
    refine ⟨first, v, shown, _, hfirst, hv, hliteral, herror, ?_, message_misfit rfl rfl v⟩
    cases v <;> rfl

/-- Three observations in two orders, one more of them missing, back from the histogram, and a truth
value after a missing observation. -/
theorem ofObservations_counts_of_three_observations :
    ofObservations (.list [.int 3, .null, .int 0, .int 3]) = .ok [1, 0, 0, 2] ∧
      ofObservations (.list [.int 0, .int 3, .int 3]) = .ok [1, 0, 0, 2] ∧
      ofObservations (.list [.int 3, .int 0, .int 3]) = .ok [1, 0, 0, 2] ∧
      ∃ fault, ofObservations (.list [.null, .int 5, .bool false, .int (-2)]) = .error fault ∧
        fault.family = .invalidInput ∧
        fault.message = "observation at position 2 is not an integer: False" := by
  have hgrows : ∀ value ≤ 5, growthFault? 0 value = none := by decide
  obtain ⟨hcounts, hback, hmisfit⟩ := ofObservations_counts
  obtain ⟨h, hh, hlength, hentries, -, hsame⟩ := hcounts [some 3, none, some 0, some 3] (by
    intro value hvalue
    apply hgrows
    simp at hvalue
    omega)
  obtain ⟨a, b, c, d, rfl⟩ : ∃ a b c d, h = [a, b, c, d] := List.length_eq_four.1 hlength
  obtain rfl : a = 1 := hentries 0
  obtain rfl : b = 0 := hentries 1
  obtain rfl : c = 0 := hentries 2
  obtain rfl : d = 2 := hentries 3
  refine ⟨hh, hsame [some 0, some 3, some 3] (by decide), ?_, ?_⟩
  · exact hback [1, 0, 0, 2] (by decide) (by decide) [some 3, some 0, some 3] (by decide)
  · obtain ⟨first, v, shown, fault, hfirst, hv, hliteral, hfault, hfamily, hmessage⟩ :=
      hmisfit [.null, .int 5, .bool false, .int (-2)] (by
        intro value hvalue
        apply hgrows
        simp at hvalue
        omega) (by decide) ⟨.bool false, by simp, rfl⟩
    cases hfirst
    cases hv
    cases hliteral
    exact ⟨fault, hfault, hfamily, hmessage⟩

end BucketStats.Histogram

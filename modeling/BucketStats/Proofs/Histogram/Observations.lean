import BucketStats.Histogram.Observations
import BucketStats.Proofs.Histogram.Checked
import BucketStats.Proofs.Histogram.Quantile
import Mathlib.Data.List.ReduceOption
import Mathlib.Data.List.Sort
/-!
# Histograms and raw observations

Each observation adds one to the total, its value to the weighted sum, and one to the cumulative
counts from its value on.  So the histogram of some observations has their number and their sum for
totals, and its quantiles are their order statistics: the quantile at a level is the entry of the
ascending observations whose position is the level's threshold.
-/

namespace BucketStats.Histogram

/-! ## One observation -/

section Grown

variable {h : Histogram} {value : Nat}

theorem total_modify (hlt : value < h.length) : total (h.modify value (· + 1)) = h.total + 1 := by
  induction h generalizing value with
  | nil => exact absurd hlt (Nat.not_lt_zero value)
  | cons count rest ih =>
    cases value with
    | zero =>
      rw [List.modify_zero_cons, total_cons, total_cons]
      omega
    | succ value =>
      rw [List.modify_succ_cons, total_cons, total_cons, ih (Nat.lt_of_succ_lt_succ hlt),
        Nat.add_assoc]

theorem weightedSumFrom_modify (bucket : Nat) (hlt : value < h.length) :
    weightedSumFrom bucket (h.modify value (· + 1)) =
      weightedSumFrom bucket h + (bucket + value) := by
  induction h generalizing bucket value with
  | nil => exact absurd hlt (Nat.not_lt_zero value)
  | cons count rest ih =>
    cases value with
    | zero =>
      rw [List.modify_zero_cons, weightedSumFrom, weightedSumFrom, Nat.mul_add]
      omega
    | succ value =>
      rw [List.modify_succ_cons, weightedSumFrom, weightedSumFrom,
        ih (bucket + 1) (Nat.lt_of_succ_lt_succ hlt)]
      omega

theorem cumulative_modify (bucket : Nat) (hlt : value < h.length) :
    cumulative (h.modify value (· + 1)) bucket =
      h.cumulative bucket + if value ≤ bucket then 1 else 0 := by
  induction h generalizing bucket value with
  | nil => exact absurd hlt (Nat.not_lt_zero value)
  | cons count rest ih =>
    cases value with
    | zero =>
      rw [List.modify_zero_cons, if_pos (Nat.zero_le bucket)]
      cases bucket with
      | zero => rw [cumulative_cons_zero, cumulative_cons_zero]
      | succ bucket =>
        rw [cumulative_cons_succ, cumulative_cons_succ]
        omega
    | succ value =>
      rw [List.modify_succ_cons]
      cases bucket with
      | zero =>
        rw [cumulative_cons_zero, cumulative_cons_zero, if_neg (Nat.not_succ_le_zero value),
          Nat.add_zero]
      | succ bucket =>
        rw [cumulative_cons_succ, cumulative_cons_succ, ih bucket (Nat.lt_of_succ_lt_succ hlt),
          Nat.add_assoc]
        simp only [Nat.add_le_add_iff_right]

end Grown

section Observe

variable (counts : Array Nat) (value : Nat)

theorem toList_observe :
    (observe counts value).toList =
      (counts.toList ++ List.replicate (value + 1 - counts.size) 0).modify value (· + 1) := by
  simp [observe]

theorem lt_length_grown :
    value < (counts.toList ++ List.replicate (value + 1 - counts.size) 0).length := by
  rw [List.length_append, List.length_replicate, Array.length_toList]
  omega

theorem total_observe :
    total (observe counts value).toList = total counts.toList + 1 := by
  rw [toList_observe, total_modify (lt_length_grown counts value), total_append,
    total_replicate_zero, Nat.add_zero]

theorem weightedSum_observe :
    weightedSum (observe counts value).toList = weightedSum counts.toList + value := by
  rw [weightedSum_eq, weightedSum_eq, toList_observe,
    weightedSumFrom_modify 0 (lt_length_grown counts value), weightedSumFrom_append_zeros,
    Nat.zero_add]

theorem cumulative_observe (bucket : Nat) :
    cumulative (observe counts value).toList bucket =
      cumulative counts.toList bucket + if value ≤ bucket then 1 else 0 := by
  rw [toList_observe, cumulative_modify bucket (lt_length_grown counts value),
    cumulative_append_zeros]

end Observe

/-! ## All observations -/

/-- The histogram of some observations. -/
def tally (observed : List Nat) : Histogram :=
  (observed.foldl observe #[]).toList

/-- What each observation adds to a quantity, all of them add to it. -/
theorem foldl_observe_add (quantity : Histogram → Nat) (added : Nat → Nat)
    (hstep : ∀ counts value, quantity (observe counts value).toList =
      quantity counts.toList + added value) (observed : List Nat) (counts : Array Nat) :
    quantity (observed.foldl observe counts).toList =
      quantity counts.toList + (observed.map added).sum := by
  induction observed generalizing counts with
  | nil => rfl
  | cons value rest ih =>
    rw [List.foldl_cons, ih, hstep, List.map_cons, List.sum_cons, Nat.add_assoc]

@[simp]
theorem total_tally (observed : List Nat) : total (tally observed) = observed.length := by
  have hall := foldl_observe_add total (fun _ ↦ 1) total_observe observed #[]
  simpa [tally] using hall

@[simp]
theorem weightedSum_tally (observed : List Nat) : weightedSum (tally observed) = observed.sum := by
  have hall := foldl_observe_add weightedSum id weightedSum_observe observed #[]
  simpa [tally, weightedSum] using hall

theorem sum_map_indicator (observed : List Nat) (bound : Nat) :
    (observed.map fun value ↦ if value ≤ bound then 1 else 0).sum =
      observed.countP (· ≤ bound) := by
  induction observed with
  | nil => rfl
  | cons value rest ih => simp [List.countP_cons, ih, Nat.add_comm]

theorem cumulative_tally (observed : List Nat) (bucket : Nat) :
    cumulative (tally observed) bucket = observed.countP (· ≤ bucket) := by
  have hall := foldl_observe_add (fun h ↦ cumulative h bucket)
    (fun value ↦ if value ≤ bucket then 1 else 0)
    (fun counts value ↦ cumulative_observe counts value bucket) observed #[]
  rw [sum_map_indicator] at hall
  simpa [tally] using hall

/-! ## Order statistics -/

/-- In an ascending list the entries up to a bound are those that come first. -/
theorem getElem_le_iff_lt_countP {sorted : List Nat} (hsorted : sorted.Pairwise (· ≤ ·)) {k : Nat}
    (hk : k < sorted.length) (bound : Nat) :
    sorted[k] ≤ bound ↔ k < sorted.countP (· ≤ bound) := by
  induction sorted generalizing k with
  | nil => exact absurd hk (Nat.not_lt_zero k)
  | cons least rest ih =>
    rw [List.pairwise_cons] at hsorted
    rw [List.countP_cons]
    by_cases hleast : least ≤ bound
    · rw [if_pos (decide_eq_true hleast)]
      cases k with
      | zero => simpa using hleast
      | succ k =>
        rw [List.getElem_cons_succ, ih hsorted.2 (Nat.lt_of_succ_lt_succ hk),
          Nat.add_lt_add_iff_right]
    · -- beyond the bound nothing comes back to it
      have hnone : rest.countP (· ≤ bound) = 0 := by
        rw [List.countP_eq_zero]
        intro value hvalue hle
        exact hleast ((hsorted.1 value hvalue).trans (of_decide_eq_true hle))
      have hbeyond : ¬ (least :: rest)[k] ≤ bound := by
        intro hle
        cases k with
        | zero => exact hleast hle
        | succ k =>
          rw [List.getElem_cons_succ] at hle
          exact hleast ((hsorted.1 _ (List.getElem_mem _)).trans hle)
      rw [hnone, if_neg (by simpa using hleast)]
      simpa using hbeyond

/-- The quantile of the histogram of some observations is an order statistic of theirs. -/
theorem quantile_tally (level : Binary64) {observed : List Nat} (hne : observed ≠ []) :
    observed.mergeSort[threshold level observed.length - 1]? =
      some ((tally observed).quantile level) := by
  have hlength : 0 < observed.length := List.length_pos_iff.2 hne
  have hpos : 0 < total (tally observed) := by rwa [total_tally]
  have hsorted : observed.mergeSort.Pairwise (· ≤ ·) := List.pairwise_mergeSort' (· ≤ ·) observed
  have hthreshold := threshold_pos level observed.length
  have hlt : threshold level observed.length - 1 < observed.mergeSort.length := by
    have hle := threshold_le level hlength
    rw [List.length_mergeSort]
    omega
  rw [List.getElem?_eq_getElem hlt]
  congr 1
  apply eq_of_forall_ge_iff
  intro bucket
  rw [quantile_le_iff hpos, getElem_le_iff_lt_countP hsorted, total_tally, cumulative_tally,
    (List.mergeSort_perm observed _).countP_eq]
  omega

/-! ## Observations given as values -/

/-- An observation as a value; a missing one is nothing. -/
def observationValue : Option Nat → Value
  | none => .null
  | some value => .int value

/-- Whether a value is an observation: a count, or nothing for a missing one. -/
def isObservation : Value → Bool
  | .null => true
  | v => v.isCount

theorem isObservation_iff {v : Value} : isObservation v = true ↔ ∃ o, v = observationValue o := by
  constructor
  · intro h
    cases v with
    | null => exact ⟨none, rfl⟩
    | int n =>
      have hint : (Value.int n).isCount = true := h
      obtain ⟨count, hcount⟩ := Value.isCount_iff.1 hint
      exact ⟨some count, hcount⟩
    | _ => cases h
  · rintro ⟨_ | count, rfl⟩
    · rfl
    · exact Value.isCount_iff.2 ⟨count, rfl⟩

theorem growthFault?_eq_none {size value : Nat} (hfits : value < memoryLimit) :
    growthFault? size value = none := by
  have hlimits : memoryLimit < indexLimit := by decide
  unfold growthFault?
  rw [if_neg (by omega), if_neg (fun h ↦ Nat.not_le.2 hfits h.2)]

/-- One observation that fits into memory is counted, and a missing one is passed over. -/
theorem observeValue_observationValue (counts : Array Nat) (position : Nat) {o : Option Nat}
    (hfits : ∀ value ∈ o, value < memoryLimit) :
    observeValue counts (observationValue o, position) = .ok (o.elim counts (observe counts)) := by
  cases o with
  | none => rfl
  | some value =>
    have hgrowth : growthFault? counts.size value = none := growthFault?_eq_none (hfits value rfl)
    simp only [observeValue, observationValue, checkObservation, checkInteger_natCast, ok_bind,
      hgrowth]
    rfl

theorem isCount_eq_false {v : Value} (hv : isObservation v = false) : v.isCount = false := by
  cases v with
  | null => rfl
  | _ => exact hv

/-- What is no observation is named by its position. -/
theorem observeValue_of_misfit (counts : Array Nat) (position : Nat) {v : Value}
    (hv : isObservation v = false) :
    observeValue counts (v, position) = v.literal >>= fun shown ↦ .error
      (misfit (.observationNotInteger position) (.negativeObservation position) v shown) := by
  have hcheck : checkObservation position v = v.literal >>= fun shown ↦ .error
      (misfit (.observationNotInteger position) (.negativeObservation position) v shown) :=
    checkInteger_of_misfit _ _ (isCount_eq_false hv)
  cases v with
  | null => cases hv
  | _ =>
    simp only [observeValue, hcheck]
    cases Value.literal _ <;> rfl

theorem foldlM_observeValue (observations : List (Option Nat)) (position : Nat)
    (counts : Array Nat) (hfits : ∀ value, some value ∈ observations → value < memoryLimit) :
    ((observations.map observationValue).zipIdx position).foldlM observeValue counts =
      .ok (observations.reduceOption.foldl observe counts) := by
  induction observations generalizing position counts with
  | nil => rfl
  | cons o rest ih =>
    have hrest := fun value hvalue ↦ hfits value (List.mem_cons_of_mem o hvalue)
    have hone : observeValue counts (observationValue o, position) =
        .ok (o.elim counts (observe counts)) := by
      apply observeValue_observationValue
      intro value hvalue
      rw [Option.mem_def] at hvalue
      exact hfits value (hvalue ▸ List.mem_cons_self)
    rw [List.map_cons, List.zipIdx_cons, List.foldlM_cons, hone]
    cases o with
    | none => exact ih (position + 1) counts hrest
    | some value => exact ih (position + 1) (observe counts value) hrest

/-- The first value that is no observation ends the count, whatever was counted before it. -/
theorem foldlM_observeValue_of_misfit {items : List Value} {first : Nat} {v : Value}
    (hfirst : items.findIdx? (fun v ↦ !isObservation v) = some first) (hv : items[first]? = some v)
    (hfits : ∀ value : Nat, .int value ∈ items.take first → value < memoryLimit) (position : Nat)
    (counts : Array Nat) :
    (items.zipIdx position).foldlM observeValue counts = v.literal >>= fun shown ↦ .error
      (misfit (.observationNotInteger (position + first)) (.negativeObservation (position + first))
        v shown) := by
  induction items generalizing first position counts with
  | nil => cases hv
  | cons u rest ih =>
    rw [List.zipIdx_cons, List.foldlM_cons]
    rw [List.findIdx?_cons] at hfirst
    cases hu : isObservation u with
    | false =>
      rw [hu] at hfirst
      cases hfirst
      cases hv
      rw [observeValue_of_misfit _ _ hu]
      cases v.literal <;> rfl
    | true =>
      rw [hu, if_neg (by decide), Option.map_eq_some_iff] at hfirst
      obtain ⟨first, hfirst, rfl⟩ := hfirst
      obtain ⟨o, rfl⟩ := isObservation_iff.1 hu
      rw [List.take_succ_cons] at hfits
      have hone : observeValue counts (observationValue o, position) =
          .ok (o.elim counts (observe counts)) := by
        apply observeValue_observationValue
        rintro value rfl
        exact hfits value List.mem_cons_self
      have hrest := fun value hvalue ↦ hfits value (List.mem_cons_of_mem _ hvalue)
      rw [hone, ok_bind, ih hfirst hv hrest, Nat.add_right_comm, Nat.add_assoc]

theorem ofObservations_of_misfit {values : Value} {items : List Value} {first : Nat} {v : Value}
    (hitems : values.items = .ok items)
    (hfirst : items.findIdx? (fun v ↦ !isObservation v) = some first) (hv : items[first]? = some v)
    (hfits : ∀ value : Nat, .int value ∈ items.take first → value < memoryLimit) :
    ofObservations values = v.literal >>= fun shown ↦ .error
      (misfit (.observationNotInteger first) (.negativeObservation first) v shown) := by
  have hfold := foldlM_observeValue_of_misfit hfirst hv hfits 0 #[]
  rw [Nat.zero_add] at hfold
  rw [ofObservations, hitems, ok_bind, hfold]
  cases v.literal <;> rfl

theorem ofObservations_eq_tally {observations : List (Option Nat)}
    (hfits : ∀ value, some value ∈ observations → value < memoryLimit) :
    ofObservations (.list (observations.map observationValue)) =
      .ok (tally observations.reduceOption) := by
  have hfold := foldlM_observeValue observations 0 #[] hfits
  change (((observations.map observationValue).zipIdx 0).foldlM observeValue #[]).bind
    (fun counts ↦ .ok counts.toList) = _
  rw [hfold]
  rfl

/-- Counting observations refines their statistics: the mean is taken of their number and their sum,
and the quantile at a level is the entry of the ascending observations at the position `⌈level * n⌉`,
counted from one, or the first entry at the level zero. -/
theorem statistics_of_observations (observations : List (Option Nat))
    (hsome : ∃ value, some value ∈ observations)
    (hfits : ∀ value, some value ∈ observations → value < memoryLimit) :
    let observed := observations.reduceOption
    let sorted := observed.mergeSort
    ∃ h, ofObservations (.list (observations.map observationValue)) = .ok h ∧
      weightedMeanOf (toValue h) = .ok ⟨observed.length, sorted.sum⟩ ∧
      ∀ level : Binary64.Finite, 0 ≤ level.value → level.value ≤ 1 →
        ∃ bucket, quantileOf (toValue h) (.float (.finite level)) = .ok bucket ∧
          sorted[max 1 ⌈level.value * observed.length⌉₊ - 1]? = some bucket := by
  intro observed sorted
  have hne : observed ≠ [] := by
    obtain ⟨value, hvalue⟩ := hsome
    exact List.ne_nil_of_mem (List.reduceOption_mem_iff.2 hvalue)
  have hpos : 0 < total (tally observed) := by
    rw [total_tally]
    exact List.length_pos_iff.2 hne
  refine ⟨tally observed, ofObservations_eq_tally hfits, ?_, ?_⟩
  · rw [weightedMeanOf_toValue hpos, total_tally, weightedSum_tally,
      (List.mergeSort_perm observed _).sum_eq]
  · intro level hlow hhigh
    refine ⟨(tally observed).quantile (.finite level), quantileOf_toValue hpos _, ?_⟩
    have hsorted := quantile_tally (.finite level) hne
    unfold threshold at hsorted
    rwa [clamped_of_mem_unitInterval hlow hhigh] at hsorted

/-- The median of four observations, one more of them missing. -/
theorem statistics_of_four_observations :
    ∃ h, ofObservations (.list [.int 3, .null, .int 0, .int 3, .int 1]) = .ok h ∧
      weightedMeanOf (toValue h) = .ok ⟨4, 7⟩ ∧
      quantileOf (toValue h) (.float (.finite ⟨false, 1022 * twoPow 52, by decide⟩)) = .ok 1 := by
  have hfits : ∀ value, some value ∈ [some 3, none, some 0, some 3, some 1] →
      value < memoryLimit := by
    intro value hvalue
    have hlimit : 4 < memoryLimit := by decide
    have hle : value ≤ 3 := by
      simp at hvalue
      omega
    omega
  have hsorted : [some 3, none, some 0, some 3, some 1].reduceOption.mergeSort = [0, 1, 3, 3] := by
    cbv
  have hvalue : Binary64.Finite.value ⟨false, 1022 * twoPow 52, by decide⟩ = 1 / 2 :=
    Binary64.magnitude_rankOfHalf
  obtain ⟨h, hh, hmean, hquantile⟩ := statistics_of_observations
    [some 3, none, some 0, some 3, some 1] ⟨3, by decide⟩ hfits
  obtain ⟨bucket, hbucket, hget⟩ := hquantile ⟨false, 1022 * twoPow 52, by decide⟩
    (by rw [hvalue]; norm_num) (by rw [hvalue]; norm_num)
  have hlength : [some 3, none, some 0, some 3, some 1].reduceOption.length = 4 := rfl
  have hposition : max 1 ⌈(1 / 2 : ℚ) * (4 : Nat)⌉₊ - 1 = 1 := by norm_num
  rw [hsorted, hvalue, hlength, hposition] at hget
  rw [hsorted] at hmean
  obtain rfl : 1 = bucket := Option.some.inj hget
  exact ⟨h, hh, hmean, hbucket⟩

end BucketStats.Histogram

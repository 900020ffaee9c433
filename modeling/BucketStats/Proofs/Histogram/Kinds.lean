import BucketStats.Proofs.Histogram.Checked
import BucketStats.Proofs.Histogram.Totals
/-!
# Counts of any kind

The weighted mean of a sequence of values of any kind ends in one of three ways: with the exact
totals, if all values are counts and there are observations; with the fault of the first value that is
no count; and otherwise with the fault of a distribution without observations.
-/

namespace BucketStats.Histogram

variable {values : Value} {items : List Value}

/-- The totals as plain sums over the counts. -/
theorem weightedMeanOf_eq_ok_iff (hitems : values.items = .ok items) {mean : WeightedMean} :
    weightedMeanOf values = .ok mean ↔
      ∃ h : Histogram, items = h.map (fun (count : Nat) ↦ .int count) ∧ 0 < h.sum ∧
        mean = ⟨h.sum, (h.mapIdx fun index count ↦ index * count).sum⟩ := by
  unfold weightedMeanOf
  rw [ofValue_of_items hitems, bind_eq_ok_iff]
  apply exists_congr
  intro h
  rw [ofItemsFrom_eq_ok_iff, weightedMean, ite_error_eq_ok_iff, total_eq_sum, weightedSum_eq_sum,
    Nat.pos_iff_ne_zero]

/-- The first value that is no count decides, whatever follows it. -/
theorem weightedMeanOf_of_misfit (hitems : values.items = .ok items) {first : Nat} {v : Value}
    (hfirst : items.findIdx? (fun v ↦ !v.isCount) = some first) (hv : items[first]? = some v)
    {shown : String} (hshown : v.literal = .ok shown) :
    weightedMeanOf values =
      .error (misfit (.countNotInteger first) (.negativeCount first) v shown) := by
  unfold weightedMeanOf
  rw [ofValue_of_items hitems, ofItemsFrom_of_misfit hfirst hv, hshown, Nat.zero_add]
  rfl

theorem weightedMeanOf_of_zeros {h : Histogram}
    (hitems : values.items = .ok (h.map fun (count : Nat) ↦ .int count)) (hzero : h.sum = 0) :
    weightedMeanOf values = .error (.noObservations h.length) := by
  unfold weightedMeanOf
  rw [ofValue_of_items hitems, ofItemsFrom_eq_ok_iff.2 rfl, ok_bind, weightedMean, total_eq_sum,
    if_pos hzero]

/-- The weighted mean of values of any kind: the exact totals, if and only if all of them are counts
and there are observations; the first value that is no count, by its index, if there is one, which
has to be one that can be shown; and the number of values otherwise. -/
theorem weightedMeanOf_items (hitems : values.items = .ok items)
    (hshown : ∀ v ∈ items.find? (fun v ↦ !v.isCount), v.IsShowable) :
    (∀ mean, weightedMeanOf values = .ok mean ↔
      ∃ h : Histogram, items = h.map (fun (count : Nat) ↦ .int count) ∧ 0 < h.sum ∧
        mean = ⟨h.sum, (h.mapIdx fun index count ↦ index * count).sum⟩) ∧
    ((∃ v ∈ items, v.isCount = false) →
      ∃ first v shown fault, items.findIdx? (fun v ↦ !v.isCount) = some first ∧
        items[first]? = some v ∧ v.literal = .ok shown ∧ weightedMeanOf values = .error fault ∧
        fault.family = .invalidInput ∧
        fault.message = s!"count at index {first} is {shortcoming v}: {shown}") ∧
    ∀ h : Histogram, items = h.map (fun (count : Nat) ↦ .int count) → h.sum = 0 →
      ∃ fault, weightedMeanOf values = .error fault ∧ fault.family = .emptyDistribution ∧
        fault.message = s!"no observations in {items.length} bucket(s)" := by
  refine ⟨fun mean ↦ weightedMeanOf_eq_ok_iff hitems, fun hmisfit ↦ ?_, fun h hh hzero ↦ ?_⟩
  · have hsome : ∃ v ∈ items, (!v.isCount) = true := by simpa using hmisfit
    obtain ⟨first, v, shown, hfirst, hv, hliteral⟩ := exists_first_shown hsome hshown
    refine ⟨first, v, shown, _, hfirst, hv, hliteral,
      weightedMeanOf_of_misfit hitems hfirst hv hliteral, ?_, message_misfit rfl rfl v⟩
    cases v <;> rfl
  · subst hh
    refine ⟨_, weightedMeanOf_of_zeros hitems hzero, rfl, ?_⟩
    rw [List.length_map]
    rfl

/-- A stream of counts, a truth value between two counts of which the second is wrong too, and a
zero. -/
theorem weightedMeanOf_items_of_mixed_kinds :
    weightedMeanOf (.stream [.int 3, .int 0, .int 2]) = .ok ⟨5, 4⟩ ∧
      (∃ fault, weightedMeanOf (.tuple [.int 0, .bool true, .int (-1)]) = .error fault ∧
        fault.family = .invalidInput ∧
        fault.message = "count at index 1 is not an integer: True") ∧
      ∃ fault, weightedMeanOf (.list [.int 0]) = .error fault ∧
        fault.family = .emptyDistribution ∧
        fault.message = "no observations in 1 bucket(s)" := by
  obtain ⟨hmean, -, -⟩ := @weightedMeanOf_items (.stream [.int 3, .int 0, .int 2]) _ rfl (by decide)
  obtain ⟨-, hmisfit, -⟩ := @weightedMeanOf_items (.tuple [.int 0, .bool true, .int (-1)]) _ rfl
    (by decide)
  obtain ⟨-, -, hzeros⟩ := @weightedMeanOf_items (.list [.int 0]) _ rfl (by decide)
  refine ⟨(hmean ⟨5, 4⟩).2 ⟨[3, 0, 2], rfl, by decide, rfl⟩, ?_, ?_⟩
  · obtain ⟨first, v, shown, fault, hfirst, hv, hliteral, hfault, hfamily, hmessage⟩ :=
      hmisfit ⟨.bool true, by simp, rfl⟩
    cases hfirst
    cases hv
    cases hliteral
    exact ⟨fault, hfault, hfamily, hmessage⟩
  · exact hzeros [0] rfl rfl

end BucketStats.Histogram

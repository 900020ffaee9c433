import BucketStats.Histogram.Basic
import BucketStats.Proofs.Binary64.Nearest
import Mathlib.Data.List.GetD
/-!
# Totals of histograms

The total and the weighted sum as sums over the buckets, and the cumulative counts between them.  No
bucket is past the length of the histogram, so its mean is in the range of binary64 and is the
number nearest to the quotient of the totals.
-/

namespace BucketStats

namespace Histogram

theorem total_eq_sum (h : Histogram) : h.total = h.sum := by
  induction h with
  | nil => rfl
  | cons count rest ih => rw [total_cons, List.sum_cons, ih]

/-! ## Weighted sums -/

/-- The weighted sum of counts whose first one stands for a given bucket. -/
def weightedSumFrom (bucket : Nat) : Histogram → Nat
  | [] => 0
  | count :: rest => bucket * count + weightedSumFrom (bucket + 1) rest

theorem weightedSum_eq (h : Histogram) : h.weightedSum = weightedSumFrom 0 h := by
  have hfold (bucket acc : Nat) : (h.zipIdx bucket).foldl (fun acc b ↦ acc + b.2 * b.1) acc =
      acc + weightedSumFrom bucket h := by
    induction h generalizing bucket acc with
    | nil => rfl
    | cons count rest ih =>
      rw [List.zipIdx_cons, List.foldl_cons, ih, weightedSumFrom, Nat.add_assoc]
  unfold weightedSum
  rw [hfold, Nat.zero_add]

/-- Moving all buckets up adds the distance once for each observation. -/
theorem weightedSumFrom_add (bucket distance : Nat) (h : Histogram) :
    weightedSumFrom (bucket + distance) h = weightedSumFrom bucket h + distance * h.total := by
  induction h generalizing bucket with
  | nil => rfl
  | cons count rest ih =>
    rw [weightedSumFrom, weightedSumFrom, Nat.add_right_comm bucket distance 1, ih, total_cons]
    ring

theorem weightedSum_cons (count : Nat) (rest : Histogram) :
    weightedSum (count :: rest) = rest.weightedSum + rest.total := by
  rw [weightedSum_eq, weightedSum_eq, weightedSumFrom, weightedSumFrom_add, Nat.zero_mul,
    Nat.zero_add, Nat.one_mul]

theorem weightedSumFrom_eq_sum (bucket : Nat) (h : Histogram) :
    weightedSumFrom bucket h = (h.mapIdx fun index count ↦ (bucket + index) * count).sum := by
  induction h generalizing bucket with
  | nil => rfl
  | cons count rest ih =>
    rw [weightedSumFrom, ih, List.mapIdx_cons, List.sum_cons, Nat.add_zero]
    congr 3
    funext index count
    rw [Nat.add_right_comm, Nat.add_assoc]

theorem weightedSum_eq_sum (h : Histogram) :
    h.weightedSum = (h.mapIdx fun index count ↦ index * count).sum := by
  rw [weightedSum_eq, weightedSumFrom_eq_sum]
  congr 2
  funext index count
  rw [Nat.zero_add]

/-- The total of counts that are given as integers. -/
theorem cast_total (h : Histogram) :
    (h.total : Int) = (h.map fun (count : Nat) ↦ (count : Int)).sum := by
  induction h with
  | nil => rfl
  | cons count rest ih => rw [total_cons, Nat.cast_add, ih, List.map_cons, List.sum_cons]

/-- Counts that are not all zero have observations. -/
theorem total_pos_of_ne_zero {h : Histogram}
    (hsome : ∃ n ∈ h.map (fun (count : Nat) ↦ (count : Int)), n ≠ 0) : 0 < h.total := by
  apply Nat.pos_of_ne_zero
  rw [Ne, total_eq_zero_iff]
  intro hzeros
  obtain ⟨n, hn, hne⟩ := hsome
  obtain ⟨count, hmem, rfl⟩ := List.mem_map.1 hn
  exact hne (by rw [hzeros count hmem]; rfl)

/-- The weighted sum of counts that are given as integers. -/
theorem cast_weightedSum (h : Histogram) :
    (h.weightedSum : Int) =
      ((h.map fun (count : Nat) ↦ (count : Int)).mapIdx fun index n ↦ (index : Int) * n).sum := by
  have hmap : ((h.map fun (count : Nat) ↦ (count : Int)).mapIdx fun index n ↦ (index : Int) * n) =
      (h.mapIdx fun index count ↦ index * count).map fun (n : Nat) ↦ (n : Int) := by
    apply List.ext_getElem?
    intro index
    simp only [List.getElem?_mapIdx, List.getElem?_map, Option.map_map]
    congr 1
  rw [hmap, weightedSum_eq_sum, ← total_eq_sum, cast_total]

theorem lt_length_of_getD_ne_zero {h : Histogram} {bucket : Nat} (hne : h.getD bucket 0 ≠ 0) :
    bucket < h.length := by
  by_contra hle
  exact hne (List.getD_eq_default _ _ (Nat.not_lt.1 hle))

/-- A factor that is larger at each bucket that is not empty gives a larger sum. -/
theorem sum_mapIdx_mul_le {factor factor' : Nat → Nat} {h : Histogram}
    (hle : ∀ index, h.getD index 0 ≠ 0 → factor index ≤ factor' index) :
    (h.mapIdx fun index count ↦ factor index * count).sum ≤
      (h.mapIdx fun index count ↦ factor' index * count).sum := by
  induction h generalizing factor factor' with
  | nil => exact le_rfl
  | cons count rest ih =>
    have hcount : factor 0 * count ≤ factor' 0 * count := by
      rcases Nat.eq_zero_or_pos count with rfl | hpos
      · exact le_rfl
      · exact Nat.mul_le_mul_right count (hle 0 hpos.ne')
    rw [List.mapIdx_cons, List.mapIdx_cons, List.sum_cons, List.sum_cons]
    exact Nat.add_le_add hcount (ih fun index hne ↦ hle (index + 1) (by rwa [List.getD_cons_succ]))

theorem sum_mapIdx_const_mul (factor : Nat) (h : Histogram) :
    (h.mapIdx fun _ count ↦ factor * count).sum = factor * h.total := by
  induction h with
  | nil => rfl
  | cons count rest ih =>
    rw [List.mapIdx_cons, List.sum_cons, ih, total_cons, Nat.mul_add]

/-- A bound on the buckets that are not empty bounds the weighted sum. -/
theorem weightedSum_le_mul {high : Nat} {h : Histogram}
    (hhigh : ∀ index, h.getD index 0 ≠ 0 → index ≤ high) : h.weightedSum ≤ high * h.total := by
  rw [weightedSum_eq_sum, ← sum_mapIdx_const_mul]
  exact sum_mapIdx_mul_le hhigh

theorem mul_le_weightedSum {low : Nat} {h : Histogram}
    (hlow : ∀ index, h.getD index 0 ≠ 0 → low ≤ index) : low * h.total ≤ h.weightedSum := by
  rw [weightedSum_eq_sum, ← sum_mapIdx_const_mul]
  exact sum_mapIdx_mul_le hlow

/-- A bucket that is not empty adds at least its index to the weighted sum. -/
theorem le_weightedSum_of_getD_ne_zero {h : Histogram} {bucket : Nat}
    (hne : h.getD bucket 0 ≠ 0) : bucket ≤ h.weightedSum := by
  have hlt := lt_length_of_getD_ne_zero hne
  have hmem : bucket * h[bucket] ∈ h.mapIdx fun index count ↦ index * count :=
    List.mem_mapIdx.2 ⟨bucket, hlt, rfl⟩
  rw [List.getD_eq_getElem _ _ hlt] at hne
  rw [weightedSum_eq_sum]
  calc
    bucket ≤ bucket * h[bucket] := Nat.le_mul_of_pos_right _ (Nat.pos_of_ne_zero hne)
    _ ≤ _ := List.single_le_sum (fun _ _ ↦ Nat.zero_le _) _ hmem

theorem weightedSum_le (h : Histogram) : h.weightedSum ≤ h.length * h.total :=
  weightedSum_le_mul fun _ hne ↦ (lt_length_of_getD_ne_zero hne).le

/-! ## Cumulative counts -/

@[simp]
theorem cumulative_nil (bucket : Nat) : cumulative [] bucket = 0 := by
  rw [cumulative, List.take_nil, total_nil]

@[simp]
theorem cumulative_cons_zero (count : Nat) (rest : Histogram) :
    cumulative (count :: rest) 0 = count := by
  rw [cumulative, List.take_succ_cons, List.take_zero, total_cons, total_nil, Nat.add_zero]

@[simp]
theorem cumulative_cons_succ (count bucket : Nat) (rest : Histogram) :
    cumulative (count :: rest) (bucket + 1) = count + cumulative rest bucket := by
  rw [cumulative, List.take_succ_cons, total_cons, cumulative]

theorem cumulative_zero (h : Histogram) : h.cumulative 0 = h.getD 0 0 := by
  cases h with
  | nil => rfl
  | cons count rest => rw [cumulative_cons_zero, List.getD_cons_zero]

theorem cumulative_succ (h : Histogram) (bucket : Nat) :
    h.cumulative (bucket + 1) = h.cumulative bucket + h.getD (bucket + 1) 0 := by
  induction h generalizing bucket with
  | nil => rfl
  | cons count rest ih =>
    cases bucket with
    | zero => rw [cumulative_cons_succ, cumulative_cons_zero, cumulative_zero, List.getD_cons_succ]
    | succ bucket =>
      rw [cumulative_cons_succ, cumulative_cons_succ, ih, List.getD_cons_succ, Nat.add_assoc]

theorem cumulative_mono (h : Histogram) : Monotone h.cumulative := by
  apply monotone_nat_of_le_succ
  intro bucket
  rw [cumulative_succ]
  exact Nat.le_add_right _ _

theorem cumulative_le_total (h : Histogram) (bucket : Nat) : h.cumulative bucket ≤ h.total := by
  rw [← h.cumulative_add_total_drop bucket]
  exact Nat.le_add_right _ _

theorem cumulative_of_length_le {h : Histogram} {bucket : Nat} (hle : h.length ≤ bucket + 1) :
    h.cumulative bucket = h.total := by
  rw [cumulative, List.take_of_length_le hle]

theorem getD_le_cumulative (h : Histogram) (bucket : Nat) : h.getD bucket 0 ≤ h.cumulative bucket := by
  cases bucket with
  | zero => exact h.cumulative_zero.ge
  | succ bucket =>
    rw [cumulative_succ]
    exact Nat.le_add_left _ _

/-- Observations up to a bucket end at a bucket that is not empty. -/
theorem exists_nonEmpty_le {h : Histogram} {bucket : Nat} (hpos : 0 < h.cumulative bucket) :
    ∃ last ≤ bucket, h.getD last 0 ≠ 0 ∧ h.cumulative last = h.cumulative bucket := by
  induction bucket with
  | zero =>
    rw [cumulative_zero] at hpos
    exact ⟨0, le_rfl, hpos.ne', rfl⟩
  | succ bucket ih =>
    by_cases hempty : h.getD (bucket + 1) 0 = 0
    · have hsame : h.cumulative (bucket + 1) = h.cumulative bucket := by
        rw [cumulative_succ, hempty, Nat.add_zero]
      rw [hsame] at hpos ⊢
      obtain ⟨last, hle, hlast⟩ := ih hpos
      exact ⟨last, Nat.le_succ_of_le hle, hlast⟩
    · exact ⟨bucket + 1, le_rfl, hempty, rfl⟩

/-- Summation by parts: of a given number of buckets an observation has so many before it, and it is
counted up to each of the others. -/
theorem weightedSum_add_sum_cumulative {h : Histogram} {n : Nat} (hlength : h.length ≤ n) :
    h.weightedSum + ∑ bucket ∈ Finset.range n, h.cumulative bucket = n * h.total := by
  induction h generalizing n with
  | nil =>
    simp only [cumulative_nil, Finset.sum_const_zero, total_nil]
    rfl
  | cons count rest ih =>
    cases n with
    | zero => cases hlength
    | succ n =>
      have hrest := ih (Nat.le_of_succ_le_succ hlength)
      have hsum : ∑ bucket ∈ Finset.range (n + 1), cumulative (count :: rest) bucket =
          n * count + ∑ bucket ∈ Finset.range n, cumulative rest bucket + count := by
        rw [Finset.sum_range_succ', cumulative_cons_zero]
        simp only [cumulative_cons_succ, Finset.sum_add_distrib, Finset.sum_const,
          Finset.card_range, smul_eq_mul]
      rw [weightedSum_cons, hsum, total_cons]
      linarith

/-! ## Empty buckets at the ends -/

section Zeros

variable (n : Nat) (h : Histogram)

@[simp]
theorem total_replicate_zero : total (List.replicate n 0) = 0 := by
  rw [total_eq_zero_iff]
  intro count hcount
  exact List.eq_of_mem_replicate hcount

theorem weightedSumFrom_append_zeros (bucket : Nat) :
    weightedSumFrom bucket (h ++ List.replicate n 0) = weightedSumFrom bucket h := by
  induction h generalizing bucket with
  | nil =>
    induction n generalizing bucket with
    | zero => rfl
    | succ n ih =>
      rw [List.nil_append] at ih ⊢
      rw [List.replicate_succ]
      exact (Nat.zero_add _).trans (ih (bucket + 1))
  | cons count rest ih => rw [List.cons_append, weightedSumFrom, weightedSumFrom, ih]

theorem weightedSumFrom_zeros_append (bucket : Nat) :
    weightedSumFrom bucket (List.replicate n 0 ++ h) = weightedSumFrom (bucket + n) h := by
  induction n generalizing bucket with
  | zero => rfl
  | succ n ih =>
    rw [List.replicate_succ, List.cons_append, weightedSumFrom, ih, Nat.mul_zero, Nat.zero_add,
      Nat.add_right_comm, Nat.add_assoc]

theorem cumulative_append_zeros (bucket : Nat) :
    cumulative (h ++ List.replicate n 0) bucket = h.cumulative bucket := by
  unfold cumulative
  rw [List.take_append, total_append, List.take_replicate, total_replicate_zero, Nat.add_zero]

theorem cumulative_zeros_append (bucket : Nat) :
    cumulative (List.replicate n 0 ++ h) (n + bucket) = h.cumulative bucket := by
  induction n with
  | zero => rw [List.replicate_zero, List.nil_append, Nat.zero_add]
  | succ n ih =>
    rw [List.replicate_succ, List.cons_append, Nat.add_right_comm, cumulative_cons_succ, ih,
      Nat.zero_add]

theorem cumulative_zeros_append_of_lt {n bucket : Nat} (hlt : bucket < n) :
    cumulative (List.replicate n 0 ++ h) bucket = 0 := by
  unfold cumulative
  rw [List.take_append_of_le_length (by rwa [List.length_replicate]), List.take_replicate,
    total_replicate_zero]

end Zeros

end Histogram

/-! ## Means -/

/-- A quotient of natural numbers is the number of its rank, or too large. -/
theorem quotient_natCast_eq {num den : Nat} (hden : 0 < den) :
    quotient num den =
      if hrank : Binary64.rankOfQuotient num den < Binary64.overflowRank then
        .ok (.finite ⟨false, Binary64.rankOfQuotient num den, hrank⟩)
      else .error .quotientTooLarge := by
  have hne : (den : Int) ≠ 0 := by exact_mod_cast hden.ne'
  have hsign : (decide ((num : Int) < 0) != decide ((den : Int) < 0)) = false := by
    rw [decide_eq_false (Int.not_lt.2 (Int.natCast_nonneg num)),
      decide_eq_false (Int.not_lt.2 (Int.natCast_nonneg den))]
    rfl
  have hrounded : Binary64.ofQuotient (decide ((num : Int) < 0) != decide ((den : Int) < 0))
      (num : Int).natAbs (den : Int).natAbs =
        Binary64.ofRank false (Binary64.rankOfQuotient num den) := by
    rw [hsign, Int.natAbs_natCast, Int.natAbs_natCast]
    rfl
  unfold quotient
  rw [if_neg hne, hrounded]
  split_ifs with hrank
  · rw [Binary64.ofRank_of_lt false hrank]
  · rw [Binary64.ofRank_of_not_lt false hrank]

theorem quotient_natCast {num den : Nat} (hden : 0 < den)
    (hrank : Binary64.rankOfQuotient num den < Binary64.overflowRank) :
    quotient num den = .ok (.finite ⟨false, Binary64.rankOfQuotient num den, hrank⟩) := by
  rw [quotient_natCast_eq hden, dif_pos hrank]

/-- A quotient of natural numbers that is in range is rounded once. -/
theorem exists_of_quotient_natCast {num den : Nat} (hden : 0 < den) {x : Binary64}
    (h : quotient num den = .ok x) :
    ∃ rounded, x = .finite rounded ∧ Binary64.RoundsTo ((num : ℚ) / den) rounded := by
  rw [quotient_natCast_eq hden] at h
  split at h
  · cases h
    exact ⟨_, rfl, rfl, Binary64.isNearestRank_rankOfQuotient num hden⟩
  · cases h

/-- The mean of a histogram is the quotient of its totals, rounded once.  Histograms that are too long
for an index are left out: their buckets may lie past the range of binary64. -/
theorem exists_roundsTo_mean {h : Histogram} (hpos : 0 < h.total) (hlength : h.length ≤ 2 ^ 63) :
    ∃ rounded, WeightedMean.mean ⟨h.total, h.weightedSum⟩ = .ok (.finite rounded) ∧
      Binary64.RoundsTo ((h.weightedSum : ℚ) / h.total) rounded := by
  have hrank : Binary64.rankOfQuotient h.weightedSum h.total < Binary64.overflowRank := by
    apply Binary64.rankOfQuotient_lt_overflowRank hpos (by decide : 63 ≤ 1023)
    calc
      h.weightedSum ≤ h.length * h.total := h.weightedSum_le
      _ ≤ 2 ^ 63 * h.total := Nat.mul_le_mul_right _ hlength
  exact ⟨_, quotient_natCast hpos hrank, rfl, Binary64.isNearestRank_rankOfQuotient _ hpos⟩

/-- The mean of a histogram is the number nearest to the quotient of its totals. -/
theorem exists_mean {h : Histogram} (hpos : 0 < h.total) (hlength : h.length ≤ 2 ^ 63) :
    ∃ rank hrank, WeightedMean.mean ⟨h.total, h.weightedSum⟩ = .ok (.finite ⟨false, rank, hrank⟩) ∧
      Binary64.IsNearest ((h.weightedSum : ℚ) / h.total) ⟨false, rank, hrank⟩ := by
  obtain ⟨⟨negative, rank, hrank⟩, hmean, hrounds⟩ := exists_roundsTo_mean hpos hlength
  obtain rfl : negative = false := hrounds.nonnegative
  exact ⟨rank, hrank, hmean, hrounds.isNearest (div_nonneg (Nat.cast_nonneg _) (Nat.cast_nonneg _))⟩

end BucketStats

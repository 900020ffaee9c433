import BucketStats.Proofs.Decimal.Places
import BucketStats.Proofs.Transcript
import BucketStats.Summary.Lines
import Mathlib.Data.List.TakeWhile
/-!
# The lines of a report

The report on a summary has its totals, its mean with as many places as the precision says, and one
line for each of its quantiles, in their order.  It is written unless an integer has too many digits
or the precision asks for too many places.
-/

namespace BucketStats

/-! ## Precisions -/

namespace NumberFormat

theorem digitsValue_digits (n : Nat) : digitsValue (Decimal.digits n) = n := by
  have hfold (ds : List Char) (h : ∀ c ∈ ds, c.isDigit = true) (start : Nat) :
      ds.foldl (fun n c ↦ 10 * n + (Text.digitValue? c).getD 0) start =
        ds.foldl (fun n d ↦ 10 * n + (d.toNat - 0x30)) start := by
    induction ds generalizing start with
    | nil => rfl
    | cons c rest ih =>
      obtain ⟨hc, hrest⟩ := List.forall_mem_cons.1 h
      rw [List.foldl_cons, List.foldl_cons, Text.digitValue?_of_isDigit hc, ih hrest]
      rfl
  calc
    digitsValue (Decimal.digits n) = Decimal.valueOf (Decimal.digits n) :=
      hfold (Decimal.digits n) (fun c hc ↦ Decimal.isDigit_of_mem_digits hc) 0
    _ = n := Decimal.valueOf_digits n

theorem ofChar?_of_isDigit {c : Char} (h : c.isDigit = true) : Alignment.ofChar? c = none := by
  have hne (mark : Char) (hmark : mark.isDigit = false) : (c == mark) = false := by
    rw [beq_eq_false_iff_ne]
    rintro rfl
    exact absurd h (Bool.eq_false_iff.1 hmark)
  unfold Alignment.ofChar?
  rw [hne '<' rfl, hne '>' rfl, hne '^' rfl, hne '=' rfl]
  rfl

theorem splitNumber_digits (n : Nat) :
    splitNumber (Decimal.digits n) =
      if readableLimit ≤ n then .error .precisionTooLong else .ok (some n, []) := by
  have hall : ∀ c ∈ Decimal.digits n, (Text.digitValue? c).isSome = true := by
    intro c hc
    rw [Text.digitValue?_of_isDigit (Decimal.isDigit_of_mem_digits hc)]
    rfl
  have hspan : (Decimal.digits n).span (fun c ↦ (Text.digitValue? c).isSome) =
      (Decimal.digits n, []) := by
    rw [List.span_eq_takeWhile_dropWhile, List.takeWhile_eq_self_iff.2 hall,
      List.dropWhile_eq_nil_iff.2 hall]
  have hempty : (Decimal.digits n).isEmpty = false :=
    List.isEmpty_eq_false_iff.2 (Decimal.digits_ne_nil n)
  unfold splitNumber
  rw [hspan]
  simp only [hempty, digitsValue_digits]
  rfl

theorem ofPrecision_toString (kind : Kind) (places : Nat) :
    ofPrecision kind (toString places) =
      if readableLimit ≤ places then .error .precisionTooLong else .ok (plain places) := by
  have htext : (toString places).toList = Decimal.digits places := Nat.toList_repr
  have halign : (Decimal.digits places).head?.bind Alignment.ofChar? = none := by
    cases hdigits : Decimal.digits places with
    | nil => rfl
    | cons c rest =>
      have hc : c ∈ Decimal.digits places := hdigits ▸ List.mem_cons_self
      exact ofChar?_of_isDigit (Decimal.isDigit_of_mem_digits hc)
  unfold ofPrecision split
  rw [htext, halign]
  simp only [splitPlaces, splitNumber_digits]
  split
  · rfl
  · rfl

end NumberFormat

theorem withPlaces_float {places : Nat} {x : Binary64} {s : String} :
    withPlaces (toString places) (.float x) = .ok s ↔
      places < NumberFormat.placesLimit ∧ s = String.ofList (Decimal.writeFixed places x) := by
  have hlimits : NumberFormat.placesLimit ≤ NumberFormat.readableLimit := by decide
  have htext : (NumberFormat.plain places).text x =
      if NumberFormat.placesLimit ≤ places then .error .precisionTooBig
      else .ok (String.ofList (Decimal.writeFixed places x)) := by
    rw [← NumberFormat.write_plain]
    rfl
  simp only [withPlaces]
  rw [NumberFormat.ofPrecision_toString]
  by_cases hreadable : NumberFormat.readableLimit ≤ places
  · rw [if_pos hreadable]
    constructor
    · intro h
      cases h
    · rintro ⟨hplaces, _⟩
      omega
  · rw [if_neg hreadable, ok_bind, htext, ite_error_eq_ok_iff, Nat.not_le]

section Lines

theorem display_int_eq_ok_iff {n : Int} {text : String} :
    (Value.int n).display = .ok text ↔ Decimal.WithinLimit n ∧ text = toString n := by
  have hdisplay : (Value.int n).display = integerText n := by simp [Value.display, Value.literal]
  rw [hdisplay, integerText_eq_ok_iff]

variable {s : Summary} {precision : Nat}

theorem totalsLine_eq_ok_iff {line : String} :
    totalsLine s.toValue = .ok line ↔
      Decimal.WithinLimit s.totals.totalWeightedSum ∧ Decimal.WithinLimit s.totals.totalCount ∧
        line = s!"sum {s.totals.totalWeightedSum} {s.totals.totalCount}" := by
  have hsum : s.toValue.item "total_weighted_sum" = .ok (.int s.totals.totalWeightedSum) := rfl
  have hcount : s.toValue.item "total_count" = .ok (.int s.totals.totalCount) := rfl
  unfold totalsLine
  simp only [hsum, hcount, ok_bind]
  rw [bind_eq_ok_iff]
  constructor
  · rintro ⟨sumText, hsumText, h⟩
    obtain ⟨countText, hcountText, h⟩ := bind_eq_ok_iff.1 h
    obtain ⟨hsumLimit, rfl⟩ := display_int_eq_ok_iff.1 hsumText
    obtain ⟨hcountLimit, rfl⟩ := display_int_eq_ok_iff.1 hcountText
    cases h
    exact ⟨hsumLimit, hcountLimit, rfl⟩
  · rintro ⟨hsumLimit, hcountLimit, rfl⟩
    exact ⟨_, display_int_eq_ok_iff.2 ⟨hsumLimit, rfl⟩,
      bind_eq_ok_iff.2 ⟨_, display_int_eq_ok_iff.2 ⟨hcountLimit, rfl⟩, rfl⟩⟩

theorem withinLimit_of_lt_placesLimit (h : precision < NumberFormat.placesLimit) :
    Decimal.WithinLimit precision :=
  Decimal.withinLimit_of_lt 10 (by decide) (h.trans_le (by decide))

theorem meanLine_eq_ok_iff {line : String} :
    meanLine s.toValue (.int precision) = .ok line ↔
      precision < NumberFormat.placesLimit ∧
        line = s!"mean {String.ofList (Decimal.writeFixed precision s.mean)}" := by
  have hmean : s.toValue.item "mean" = .ok (.float s.mean) := rfl
  have htext : toString (precision : Int) = toString precision := rfl
  unfold meanLine
  rw [hmean, ok_bind, bind_eq_ok_iff]
  constructor
  · rintro ⟨places, hplaces, h⟩
    obtain ⟨text, hmeanText, h⟩ := bind_eq_ok_iff.1 h
    obtain ⟨_, rfl⟩ := display_int_eq_ok_iff.1 hplaces
    rw [htext, withPlaces_float] at hmeanText
    obtain ⟨hprecision, rfl⟩ := hmeanText
    cases h
    exact ⟨hprecision, rfl⟩
  · rintro ⟨hprecision, rfl⟩
    refine ⟨_, display_int_eq_ok_iff.2 ⟨withinLimit_of_lt_placesLimit hprecision, rfl⟩, ?_⟩
    rw [htext, withPlaces_float.2 ⟨hprecision, rfl⟩]
    rfl

theorem quantileLine_eq_ok_iff {e : String × Nat} {line : String} :
    quantileLine (.text e.1, .int e.2) = .ok line ↔
      Decimal.WithinLimit e.2 ∧ s!"{e.1} {e.2}" = line := by
  have hkey : (Value.text e.1).display = .ok e.1 := rfl
  unfold quantileLine
  rw [hkey, ok_bind, bind_eq_ok_iff]
  constructor
  · rintro ⟨bucket, hbucket, h⟩
    obtain ⟨hlimit, rfl⟩ := display_int_eq_ok_iff.1 hbucket
    cases h
    exact ⟨hlimit, rfl⟩
  · rintro ⟨hlimit, rfl⟩
    exact ⟨_, display_int_eq_ok_iff.2 ⟨hlimit, rfl⟩, rfl⟩

theorem quantileLines_eq_ok_iff {lines : List String} :
    quantileLines s.toValue = .ok lines ↔
      (∀ e ∈ s.quantiles, Decimal.WithinLimit e.2) ∧
        lines = s.quantiles.map fun e ↦ s!"{e.1} {e.2}" := by
  have hquantiles : s.toValue.getOr (.text "quantiles") (.dict []) =
      .ok (.dict s.quantileEntries) := by
    unfold Summary.toValue Summary.quantileEntries
    cases s.quantiles with
    | nil => rfl
    | cons => rfl
  unfold quantileLines
  rw [hquantiles, ok_bind]
  simp only [Summary.quantileEntries]
  rw [mapM_eq_ok_iff, List.forall₂_map_left_iff]
  simp only [quantileLine_eq_ok_iff]
  rw [List.forall₂_and_left, eq_comm (a := lines), ← List.forall₂_eq_eq_eq,
    List.forall₂_map_left_iff]

/-- A report is written exactly if its integers are within the limit of digits and its precision
within the limit of places. -/
theorem reportLines_eq_ok_iff {lines : List String} :
    reportLines s.toValue (.int precision) = .ok lines ↔
      (Decimal.WithinLimit s.totals.totalWeightedSum ∧ Decimal.WithinLimit s.totals.totalCount ∧
        precision < NumberFormat.placesLimit ∧ ∀ e ∈ s.quantiles, Decimal.WithinLimit e.2) ∧
      lines = s!"sum {s.totals.totalWeightedSum} {s.totals.totalCount}" ::
        s!"mean {String.ofList (Decimal.writeFixed precision s.mean)}" ::
        s.quantiles.map fun e ↦ s!"{e.1} {e.2}" := by
  unfold reportLines
  rw [bind_eq_ok_iff]
  constructor
  · rintro ⟨totals, htotals, h⟩
    obtain ⟨mean, hmean, h⟩ := bind_eq_ok_iff.1 h
    obtain ⟨quantiles, hquantiles, h⟩ := bind_eq_ok_iff.1 h
    obtain ⟨hsum, hcount, rfl⟩ := totalsLine_eq_ok_iff.1 htotals
    obtain ⟨hprecision, rfl⟩ := meanLine_eq_ok_iff.1 hmean
    obtain ⟨hbuckets, rfl⟩ := quantileLines_eq_ok_iff.1 hquantiles
    cases h
    exact ⟨⟨hsum, hcount, hprecision, hbuckets⟩, rfl⟩
  · rintro ⟨⟨hsum, hcount, hprecision, hbuckets⟩, rfl⟩
    rw [totalsLine_eq_ok_iff.2 ⟨hsum, hcount, rfl⟩]
    refine ⟨_, rfl, ?_⟩
    rw [meanLine_eq_ok_iff.2 ⟨hprecision, rfl⟩, ok_bind,
      quantileLines_eq_ok_iff.2 ⟨hbuckets, rfl⟩, ok_bind]

end Lines

end BucketStats

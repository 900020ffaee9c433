import BucketStats.Text.Blank
import BucketStats.Text.Quoted
import Mathlib.Data.List.DropRight
import Mathlib.Tactic
/-!
# Blanks and quotes around texts

Trimming takes the characters of a class away from both ends of a text, and it does not matter which
end comes first.  What is trimmed already stays as it is.  So a trimmed text is told by its first and
its last character, and it is the only one that makes the whole text with blanks around it.  Of matching
quotes one layer is removed, whatever stands within it, and a quote alone is a layer with nothing in it.
-/

namespace BucketStats.Text

/-! ## Blanks -/

section Blanks

variable {p : Char → Bool} {s t : List Char} {c : Char}

theorem dropWhile_of_head? (hhead : ∀ c ∈ s.head?, p c = false) : s.dropWhile p = s := by
  cases s with
  | nil => rfl
  | cons c rest => rw [List.dropWhile_cons_of_neg (by simp [hhead c rfl])]

/-- A text that neither begins nor ends with a character of a class is left as it is. -/
theorem trimBy_of_ends (hhead : ∀ c ∈ s.head?, p c = false)
    (hlast : ∀ c ∈ s.getLast?, p c = false) : trimBy p s = s := by
  rw [← List.head?_reverse] at hlast
  unfold trimBy
  rw [dropWhile_of_head? hhead, dropWhile_of_head? hlast, List.reverse_reverse]

theorem trimBy_eq_self (hs : ∀ c ∈ s, p c = false) : trimBy p s = s :=
  trimBy_of_ends (fun c hc ↦ hs c (List.mem_of_head? hc)) fun c hc ↦ hs c (List.mem_of_getLast? hc)

theorem trimBy_eq_rdropWhile (p : Char → Bool) (s : List Char) :
    trimBy p s = (s.dropWhile p).rdropWhile p := rfl

/-- What is trimmed away are characters of the class at the two ends. -/
theorem exists_eq_append_trimBy (p : Char → Bool) (s : List Char) : ∃ before after,
    (∀ c ∈ before, p c = true) ∧ (∀ c ∈ after, p c = true) ∧
      s = before ++ (trimBy p s ++ after) := by
  refine ⟨s.takeWhile p, (s.dropWhile p).rtakeWhile p, fun c ↦ List.mem_takeWhile_imp,
    fun c ↦ List.mem_rtakeWhile_imp, ?_⟩
  rw [trimBy_eq_rdropWhile, List.rdropWhile_append_rtakeWhile, List.takeWhile_append_dropWhile]

theorem mem_of_mem_trimBy (hc : c ∈ trimBy p s) : c ∈ s := by
  obtain ⟨before, after, -, -, hs⟩ := exists_eq_append_trimBy p s
  rw [hs]
  exact List.mem_append_right _ (List.mem_append_left _ hc)

theorem head?_dropWhile (p : Char → Bool) (s : List Char) :
    ∀ c ∈ (s.dropWhile p).head?, p c = false := by
  intro c hc
  have hhead := List.head?_dropWhile_not p s
  rw [Option.mem_def.1 hc] at hhead
  simpa using hhead

theorem getLast?_rdropWhile (p : Char → Bool) (s : List Char) :
    ∀ c ∈ (s.rdropWhile p).getLast?, p c = false := by
  rw [List.rdropWhile, List.getLast?_reverse]
  exact head?_dropWhile p _

theorem dropWhile_append_cons (hc : p c = false) (s t : List Char) :
    (s ++ c :: t).dropWhile p = s.dropWhile p ++ c :: t := by
  rw [List.dropWhile_append]
  split_ifs with hempty
  · rw [List.isEmpty_iff.1 hempty, List.dropWhile_cons_of_neg (by simp [hc]), List.nil_append]
  · rfl

theorem rdropWhile_append_cons (hc : p c = false) (s t : List Char) :
    (s ++ c :: t).rdropWhile p = s ++ c :: t.rdropWhile p := by
  unfold List.rdropWhile
  rw [List.reverse_append, List.reverse_cons, List.append_assoc, List.singleton_append,
    dropWhile_append_cons hc]
  simp

/-- It does not matter which end is trimmed first. -/
theorem trimBy_eq_dropWhile (p : Char → Bool) (s : List Char) :
    trimBy p s = (s.rdropWhile p).dropWhile p := by
  rw [trimBy_eq_rdropWhile]
  cases hdrop : s.dropWhile p with
  | nil =>
    rw [List.rdropWhile_eq_nil_iff.2 (List.dropWhile_eq_nil_iff.1 hdrop), List.dropWhile_nil,
      List.rdropWhile_nil]
  | cons c rest =>
    have hc : p c = false := head?_dropWhile p s c (by rw [hdrop]; rfl)
    have hbefore : ∀ d ∈ s.takeWhile p, p d = true := fun d ↦ List.mem_takeWhile_imp
    calc
      (c :: rest).rdropWhile p = c :: rest.rdropWhile p := rdropWhile_append_cons hc [] rest
      _ = (c :: rest.rdropWhile p).dropWhile p := by
        rw [List.dropWhile_cons_of_neg (by simp [hc])]
      _ = ((s.takeWhile p ++ c :: rest).rdropWhile p).dropWhile p := by
        rw [rdropWhile_append_cons hc, List.dropWhile_append_of_pos hbefore]
      _ = (s.rdropWhile p).dropWhile p := by rw [← hdrop, List.takeWhile_append_dropWhile]

theorem head?_trimBy_eq (p : Char → Bool) (s : List Char) :
    (trimBy p s).head? = (s.dropWhile p).head? := by
  rw [trimBy_eq_rdropWhile]
  cases hdrop : s.dropWhile p with
  | nil => rfl
  | cons c rest =>
    have hc : p c = false := head?_dropWhile p s c (by rw [hdrop]; rfl)
    rw [← List.nil_append (c :: rest), rdropWhile_append_cons hc]
    rfl

theorem getLast?_trimBy_eq (p : Char → Bool) (s : List Char) :
    (trimBy p s).getLast? = (s.rdropWhile p).getLast? := by
  rw [trimBy_eq_dropWhile]
  rcases List.eq_nil_or_concat' (s.rdropWhile p) with hdrop | ⟨rest, c, hdrop⟩
  · rw [hdrop, List.dropWhile_nil]
  · have hc : p c = false :=
      getLast?_rdropWhile p s c (by rw [hdrop, List.getLast?_concat]; rfl)
    rw [hdrop, dropWhile_append_cons hc, List.getLast?_concat, List.getLast?_concat]

theorem head?_trimBy (p : Char → Bool) (s : List Char) :
    ∀ c ∈ (trimBy p s).head?, p c = false := by
  rw [head?_trimBy_eq]
  exact head?_dropWhile p s

theorem getLast?_trimBy (p : Char → Bool) (s : List Char) :
    ∀ c ∈ (trimBy p s).getLast?, p c = false := by
  rw [getLast?_trimBy_eq]
  exact getLast?_rdropWhile p s

@[simp]
theorem trimBy_trimBy (p : Char → Bool) (s : List Char) : trimBy p (trimBy p s) = trimBy p s :=
  trimBy_of_ends (head?_trimBy p s) (getLast?_trimBy p s)

theorem trimBy_dropWhile (p : Char → Bool) (s : List Char) :
    trimBy p (s.dropWhile p) = trimBy p s := by
  rw [trimBy_eq_rdropWhile, List.dropWhile_idempotent, trimBy_eq_rdropWhile]

theorem trimBy_rdropWhile (p : Char → Bool) (s : List Char) :
    trimBy p (s.rdropWhile p) = trimBy p s := by
  rw [trimBy_eq_dropWhile, List.rdropWhile_idempotent, trimBy_eq_dropWhile]

theorem trimBy_cons (hc : p c = true) : trimBy p (c :: s) = trimBy p s := by
  unfold trimBy
  rw [List.dropWhile_cons_of_pos hc]

theorem trimBy_concat (hc : p c = true) : trimBy p (s ++ [c]) = trimBy p s := by
  unfold trimBy
  rw [List.dropWhile_append]
  by_cases hempty : (s.dropWhile p).isEmpty = true
  · rw [if_pos hempty, List.dropWhile_cons_of_pos hc, List.isEmpty_iff.1 hempty, List.dropWhile_nil]
  · rw [if_neg hempty, List.reverse_append, List.reverse_singleton, List.singleton_append,
      List.dropWhile_cons_of_pos hc]

theorem trimBy_append_left (hs : ∀ c ∈ s, p c = true) (t : List Char) :
    trimBy p (s ++ t) = trimBy p t := by
  induction s with
  | nil => rfl
  | cons c rest ih =>
    obtain ⟨hc, hrest⟩ := List.forall_mem_cons.1 hs
    rw [List.cons_append, trimBy_cons hc, ih hrest]

theorem trimBy_append_right (s : List Char) (ht : ∀ c ∈ t, p c = true) :
    trimBy p (s ++ t) = trimBy p s := by
  induction t using List.reverseRecOn with
  | nil => rw [List.append_nil]
  | append_singleton t c ih =>
    obtain ⟨ht, hc⟩ := List.forall_mem_append.1 ht
    rw [← List.append_assoc, trimBy_concat (hc c List.mem_cons_self), ih ht]

theorem trimBy_cons_of_neg (hc : p c = false) (s : List Char) :
    trimBy p (c :: s) = c :: s.rdropWhile p := by
  rw [trimBy_eq_rdropWhile, List.dropWhile_cons_of_neg (by simp [hc])]
  exact rdropWhile_append_cons hc [] s

theorem trimBy_concat_of_neg (hc : p c = false) (s : List Char) :
    trimBy p (s ++ [c]) = s.dropWhile p ++ [c] := by
  rw [trimBy_eq_rdropWhile, dropWhile_append_cons hc, rdropWhile_append_cons hc,
    List.rdropWhile_nil]

end Blanks

/-! ## Trimmed texts -/

/-- Whether a text neither begins nor ends with a blank. -/
structure IsTrimmed (s : List Char) : Prop where
  head : ∀ c ∈ s.head?, isBlank c = false
  last : ∀ c ∈ s.getLast?, isBlank c = false

/-- Whether a text is another one without the blanks around that. -/
structure TrimsTo (s trimmed : List Char) : Prop where
  isTrimmed : IsTrimmed trimmed
  around : ∃ before after, (∀ c ∈ before, isBlank c = true) ∧ (∀ c ∈ after, isBlank c = true) ∧
    s = before ++ (trimmed ++ after)

section Trimmed

variable {s trimmed : List Char}

theorem isTrimmed_trim (s : List Char) : IsTrimmed (trim s) :=
  ⟨head?_trimBy isBlank s, getLast?_trimBy isBlank s⟩

theorem IsTrimmed.trim_eq (h : IsTrimmed s) : trim s = s :=
  trimBy_of_ends h.head h.last

theorem isTrimmed_iff : IsTrimmed s ↔ trim s = s :=
  ⟨IsTrimmed.trim_eq, fun h ↦ h ▸ isTrimmed_trim s⟩

instance (s : List Char) : Decidable (IsTrimmed s) :=
  decidable_of_iff (trim s = s) isTrimmed_iff.symm

/-- A text trims to just one. -/
theorem trimsTo_iff : TrimsTo s trimmed ↔ trim s = trimmed := by
  constructor
  · rintro ⟨htrimmed, before, after, hbefore, hafter, rfl⟩
    calc
      trim (before ++ (trimmed ++ after)) = trim (trimmed ++ after) :=
        trimBy_append_left hbefore _
      _ = trim trimmed := trimBy_append_right trimmed hafter
      _ = trimmed := htrimmed.trim_eq
  · rintro rfl
    exact ⟨isTrimmed_trim s, exists_eq_append_trimBy isBlank s⟩

end Trimmed

/-! ## Quotes -/

/-- Whether a character can enclose a text. -/
def IsQuote (c : Char) : Prop :=
  c = doubleQuote ∨ c = singleQuote

instance (c : Char) : Decidable (IsQuote c) :=
  inferInstanceAs (Decidable (_ ∨ _))

section Quotes

variable {s : List Char} {c : Char}

theorem isBlank_of_isQuote (h : IsQuote c) : isBlank c = false := by
  rcases h with rfl | rfl
  · decide
  · decide

theorem isEnclosedBy_iff {quote : Char} :
    isEnclosedBy quote s = true ↔ s.head? = some quote ∧ s.getLast? = some quote := by
  rw [isEnclosedBy, Bool.and_eq_true, beq_iff_eq, beq_iff_eq]

theorem unquote_of_enclosed (hquote : IsQuote c) (henclosed : isEnclosedBy c s = true) :
    unquote s = trim s.tail.dropLast := by
  have hone : (isEnclosedBy doubleQuote s || isEnclosedBy singleQuote s) = true := by
    rcases hquote with rfl | rfl
    · rw [henclosed, Bool.true_or]
    · rw [henclosed, Bool.or_true]
  rw [unquote, if_pos hone]

theorem unquote_of_not_enclosed
    (hs : ∀ quote, IsQuote quote → s.head? = some quote → s.getLast? ≠ some quote) :
    unquote s = s := by
  have hnone {quote : Char} (hquote : IsQuote quote) : isEnclosedBy quote s = false := by
    rw [← Bool.not_eq_true, isEnclosedBy_iff, not_and]
    exact hs quote hquote
  rw [unquote, hnone (.inl rfl), hnone (.inr rfl), Bool.or_self, if_neg Bool.false_ne_true]

theorem unquote_of_head? (hhead : ∀ c ∈ s.head?, ¬ IsQuote c) : unquote s = s :=
  unquote_of_not_enclosed fun quote hquote hfirst ↦ absurd hquote (hhead quote hfirst)

theorem unquote_of_getLast? (hlast : ∀ c ∈ s.getLast?, ¬ IsQuote c) : unquote s = s :=
  unquote_of_not_enclosed fun quote hquote _ hend ↦ hlast quote hend hquote

/-- One layer of quotes is removed, whatever stands within it. -/
theorem unquote_quoted (hquote : IsQuote c) (s : List Char) :
    unquote (c :: (s ++ [c])) = trim s := by
  have henclosed : isEnclosedBy c (c :: (s ++ [c])) = true := by
    rw [isEnclosedBy_iff, ← List.cons_append, List.getLast?_concat]
    exact ⟨rfl, rfl⟩
  rw [unquote_of_enclosed hquote henclosed, List.tail_cons, List.dropLast_concat]

/-- A quote alone is both ends of a layer with nothing in it. -/
theorem unquote_lone (hquote : IsQuote c) : unquote [c] = [] :=
  unquote_of_enclosed hquote (isEnclosedBy_iff.2 ⟨rfl, rfl⟩)

theorem mem_of_mem_unquote (hc : c ∈ unquote s) : c ∈ s := by
  unfold unquote at hc
  split_ifs at hc
  · exact List.mem_of_mem_tail (List.mem_of_mem_dropLast (mem_of_mem_trimBy hc))
  · exact hc

theorem IsTrimmed.unquote (hs : IsTrimmed s) : IsTrimmed (unquote s) := by
  unfold Text.unquote
  split_ifs
  · exact isTrimmed_trim _
  · exact hs

end Quotes

end BucketStats.Text

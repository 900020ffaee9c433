import BucketStats.Proofs.Settings.Numbers
/-!
# Numbers in quotes

A number may stand in one layer of quotes, with blanks on both sides of each of the two.  The layer
changes nothing: what is no number without it is no number within it either.  Only a text that has
matching quotes of its own is read otherwise, since just one layer is removed.
-/

namespace BucketStats.Settings

open Text Decimal

/-- Blanks and nothing else. -/
abbrev Blanks :=
  { s : List Char // ∀ c ∈ s, isBlank c = true }

theorem trim_margins (before after : Blanks) (s : List Char) :
    trim (before.val ++ (s ++ after.val)) = trim s := by
  unfold trim
  rw [trimBy_append_left before.property, trimBy_append_right _ after.property]

/-- A layer of quotes, with the blanks in front of and behind each of the two. -/
structure Layer where
  quote : { c : Char // IsQuote c }
  before : Blanks
  opening : Blanks
  closing : Blanks
  after : Blanks

namespace Layer

/-- A text within a layer of quotes. -/
def enclose (layer : Layer) (s : List Char) : List Char :=
  layer.before.val ++ (layer.quote.val ::
    (layer.opening.val ++ (s ++ layer.closing.val) ++ [layer.quote.val]) ++ layer.after.val)

theorem trim_enclose (layer : Layer) (s : List Char) :
    trim (layer.enclose s) =
      layer.quote.val :: (layer.opening.val ++ (s ++ layer.closing.val) ++ [layer.quote.val]) := by
  have hquote := isBlank_of_isQuote layer.quote.property
  unfold enclose
  rw [trim_margins]
  apply trimBy_of_ends
  · rw [List.head?_cons]
    rintro _ ⟨⟩
    exact hquote
  · rw [← List.cons_append, List.getLast?_concat]
    rintro _ ⟨⟩
    exact hquote

/-- What is left of a text in a layer of quotes is the text without the blanks around it. -/
theorem unquote_trim_enclose (layer : Layer) (s : List Char) :
    unquote (trim (layer.enclose s)) = trim s := by
  rw [trim_enclose, unquote_quoted layer.quote.property, trim_margins]

theorem numberOfText_enclose (layer : Layer) (s : List Char) :
    numberOfText (layer.enclose s) = readDecimal (trim s) := by
  rw [numberOfText_eq_readDecimal, unquote_trim_enclose]

end Layer

theorem readDecimal_trim_of_absent {s : List Char}
    (h : trim s = [] ∨ (trim s).map Char.toLower ∈ absentWords) : readDecimal (trim s) = none := by
  rcases h with hempty | habsent
  · rw [hempty]
    rfl
  · exact readDecimal_eq_none_of_absent (List.contains_iff_mem.2 habsent)

/-- A text without matching quotes at its ends is the same number within any layer of quotes: the
decimal between its blanks.  If that is no decimal, as the words for no number and the empty text are
none, both are no number. -/
theorem numberOf_enclose (layer : Layer) {s : String}
    (hs : ∀ quote, IsQuote quote → (trim s.toList).head? = some quote →
      (trim s.toList).getLast? ≠ some quote) :
    ∃ number, numberOf (.text s) = .ok number ∧
      numberOf (.text (String.ofList (layer.enclose s.toList))) = .ok number ∧
      number = readDecimal (trim s.toList) ∧
      (trim s.toList = [] ∨ (trim s.toList).map Char.toLower ∈ absentWords → number = none) := by
  have htext (t : String) : numberOf (.text t) = .ok (numberOfText t.toList) := rfl
  refine ⟨readDecimal (trim s.toList), ?_, ?_, rfl, readDecimal_trim_of_absent⟩
  · rw [htext, numberOfText_eq_readDecimal, unquote_of_not_enclosed hs]
  · rw [htext, String.toList_ofList, layer.numberOfText_enclose]

/-- Blanks of several kinds around single quotes. -/
def looseLayer : Layer where
  quote := ⟨singleQuote, .inr rfl⟩
  before := ⟨[' '], List.forall_mem_singleton.2 rfl⟩
  opening := ⟨['\t'], List.forall_mem_singleton.2 rfl⟩
  closing := ⟨[], List.forall_mem_nil _⟩
  after := ⟨[' ', '\n'], List.forall_mem_cons.2 ⟨rfl, List.forall_mem_singleton.2 rfl⟩⟩

theorem numberOf_enclose_of_half :
    looseLayer.enclose "0.5".toList = " '\t0.5' \n".toList ∧
      (∀ quote, IsQuote quote → (trim "0.5".toList).head? = some quote →
        (trim "0.5".toList).getLast? ≠ some quote) ∧
      numberOf (.text " '\t0.5' \n") = numberOf (.text "0.5") ∧
      numberOf (.text "0.5") = .ok (some (.finite ⟨false, 1022 * twoPow 52, by decide⟩)) := by
  have htext : looseLayer.enclose "0.5".toList = " '\t0.5' \n".toList := by decide
  have hbare : ∀ quote, IsQuote quote → (trim "0.5".toList).head? = some quote →
      (trim "0.5".toList).getLast? ≠ some quote := by
    rintro quote (rfl | rfl)
    · decide
    · decide
  obtain ⟨number, hbare', henclosed, -, -⟩ := numberOf_enclose looseLayer hbare
  rw [htext, String.ofList_toList] at henclosed
  exact ⟨htext, hbare, henclosed.trans hbare'.symm, by decide +kernel⟩

end BucketStats.Settings

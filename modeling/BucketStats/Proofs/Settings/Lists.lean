import BucketStats.Proofs.Settings.Numbers
import BucketStats.Proofs.Text.Lines
import BucketStats.Proofs.Transcript
import Mathlib.Data.List.Induction
/-!
# Lists of numbers in settings

A list is read entry by entry, and what is no number is left out.  The quotes around an entry are
removed with the entry, but those at the two ends of the list are taken for the quotes of the whole
list if they match.  So a list whose first and last entries are in the same quotes loses both of
them, and no other list of entries that are quoted one by one is misread.
-/

namespace BucketStats.Settings

open Text Decimal

/-! ## Entries with commas between them -/

/-- The text of a list. -/
def joined (entries : List (List Char)) : List Char :=
  [','].intercalate entries

section Joined

variable {first last : List Char} {middle entries : List (List Char)}

theorem joined_singleton (entry : List Char) : joined [entry] = entry :=
  List.intercalate_singleton

/-- The ends of a list of several entries, and what stands between them. -/
theorem joined_ends (first last : List Char) (middle : List (List Char)) :
    joined (first :: (middle ++ [last])) = first ++ (middle.flatMap (',' :: ·) ++ ',' :: last) := by
  rw [joined, intercalate_cons_eq, List.flatMap_append, List.flatMap_singleton]
  rfl

theorem exists_eq_comma_cons (middle : List (List Char)) (last : List Char) :
    ∃ rest, middle.flatMap (',' :: ·) ++ ',' :: last = ',' :: rest := by
  cases middle with
  | nil => exact ⟨last, rfl⟩
  | cons next later => exact ⟨_, rfl⟩

/-- The blanks at the ends of a list are those in front of its first entry and behind its last. -/
theorem trim_joined (first last : List Char) (middle : List (List Char)) :
    trim (joined (first :: (middle ++ [last]))) =
      joined (first.dropWhile isBlank :: (middle ++ [last.rdropWhile isBlank])) := by
  have hcomma : isBlank ',' = false := by decide
  obtain ⟨rest, hrest⟩ := exists_eq_comma_cons middle last
  calc
    trim (joined (first :: (middle ++ [last])))
      = ((first ++ ',' :: rest).dropWhile isBlank).rdropWhile isBlank := by
        rw [joined_ends, hrest]
        rfl
    _ = (first.dropWhile isBlank ++ middle.flatMap (',' :: ·) ++
          ',' :: last).rdropWhile isBlank := by
        rw [dropWhile_append_cons hcomma, ← hrest, List.append_assoc]
    _ = first.dropWhile isBlank ++ middle.flatMap (',' :: ·) ++ ',' :: last.rdropWhile isBlank :=
        rdropWhile_append_cons hcomma _ last
    _ = joined (first.dropWhile isBlank :: (middle ++ [last.rdropWhile isBlank])) := by
        rw [joined_ends, List.append_assoc]

theorem splitOn_joined (hne : entries ≠ []) (hcomma : ∀ entry ∈ entries, ',' ∉ entry) :
    splitOn ',' (joined entries) = entries := by
  obtain ⟨first, more, rfl⟩ := List.exists_cons_of_ne_nil hne
  obtain ⟨hfirst, hmore⟩ := List.forall_mem_cons.1 hcomma
  rw [joined, splitOn_intercalate List.not_mem_nil hfirst hmore]
  simp

/-- The blanks at the ends of a list do not matter to its entries. -/
theorem filterMap_splitOn_trim_joined (hcomma : ∀ entry ∈ entries, ',' ∉ entry) :
    (splitOn ',' (trim (joined entries))).filterMap numberOfText =
      entries.filterMap numberOfText := by
  cases entries using List.bidirectionalRec with
  | nil => rfl
  | singleton entry =>
    have htrim : ',' ∉ trim entry :=
      fun hmem ↦ hcomma entry List.mem_cons_self (mem_of_mem_trimBy hmem)
    have hnumber : numberOfText (trim entry) = numberOfText entry :=
      numberOfText_congr (trimBy_trimBy isBlank entry)
    rw [joined_singleton, splitOn_of_not_mem htrim, List.filterMap_cons, List.filterMap_cons,
      hnumber]
  | cons_append first middle last =>
    have hfirst : numberOfText (first.dropWhile isBlank) = numberOfText first :=
      numberOfText_congr (trimBy_dropWhile isBlank first)
    have hlast : numberOfText (last.rdropWhile isBlank) = numberOfText last :=
      numberOfText_congr (trimBy_rdropWhile isBlank last)
    rw [trim_joined, splitOn_joined]
    · rw [List.filterMap_cons, List.filterMap_cons, List.filterMap_append, List.filterMap_append,
        List.filterMap_cons, List.filterMap_cons, hfirst, hlast]
    · exact List.cons_ne_nil _ _
    · rw [List.forall_mem_cons, List.forall_mem_append, List.forall_mem_singleton] at hcomma ⊢
      exact ⟨fun hmem ↦ hcomma.1 (List.dropWhile_subset _ hmem), hcomma.2.1,
        fun hmem ↦ hcomma.2.2 ((List.rdropWhile_prefix _ _).subset hmem)⟩

end Joined

/-! ## Quotes at the ends of a list -/

/-- How a list changes when matching quotes at its ends are taken for quotes around it: the first
entry loses a quote in front and the last one a quote behind. -/
inductive Sheds : List (List Char) → List (List Char) → Prop
  | lone {quote : Char} {entry : List Char} (hquote : IsQuote quote)
    (hentry : trim entry = [quote]) : Sheds [entry] [[]]
  | single {quote : Char} {entry text : List Char} (hquote : IsQuote quote)
    (hentry : trim entry = quote :: (text ++ [quote])) : Sheds [entry] [text]
  | several {quote : Char} {first last text text' : List Char} (hquote : IsQuote quote)
    (hfirst : first.dropWhile isBlank = quote :: text) (middle : List (List Char))
    (hlast : last.rdropWhile isBlank = text' ++ [quote]) :
    Sheds (first :: (middle ++ [last])) (text :: (middle ++ [text']))

section Quotes

variable {entries pieces : List (List Char)}

theorem unquote_of_sheds (h : Sheds entries pieces) :
    unquote (trim (joined entries)) = trim (joined pieces) := by
  cases h with
  | lone hquote hentry =>
    rw [joined_singleton, joined_singleton, hentry, unquote_lone hquote, trim_nil]
  | single hquote hentry =>
    rw [joined_singleton, joined_singleton, hentry, unquote_quoted hquote]
  | @several quote _ _ text text' hquote hfirst middle hlast =>
    have hends : joined ((quote :: text) :: (middle ++ [text' ++ [quote]])) =
        quote :: (joined (text :: (middle ++ [text'])) ++ [quote]) := by
      simp [joined_ends]
    rw [trim_joined, hfirst, hlast, hends, unquote_quoted hquote]

/-- Quotes at both ends of a list are seen. -/
theorem exists_sheds {quote : Char} (hquote : IsQuote quote)
    (hhead : (trim (joined entries)).head? = some quote)
    (hlast : (trim (joined entries)).getLast? = some quote) : ∃ pieces, Sheds entries pieces := by
  have hcomma : quote ≠ ',' := by
    rintro rfl
    exact absurd hquote (by decide)
  cases entries using List.bidirectionalRec with
  | nil => cases hhead
  | singleton entry =>
    rw [joined_singleton] at hhead hlast
    obtain ⟨rest, hrest⟩ := List.head?_eq_some_iff.1 hhead
    rcases List.eq_nil_or_concat' rest with rfl | ⟨text, c, rfl⟩
    · exact ⟨_, .lone hquote hrest⟩
    · rw [hrest, ← List.cons_append, List.getLast?_concat] at hlast
      obtain rfl := Option.some.inj hlast
      exact ⟨_, .single hquote hrest⟩
  | cons_append first middle last =>
    -- commas stand between the entries, so the quotes belong to the first and to the last one
    rw [trim_joined, joined_ends] at hhead hlast
    have hfirst : ∃ text, first.dropWhile isBlank = quote :: text := by
      cases hdrop : first.dropWhile isBlank with
      | nil =>
        obtain ⟨rest, hrest⟩ := exists_eq_comma_cons middle (last.rdropWhile isBlank)
        rw [hdrop, List.nil_append, hrest] at hhead
        exact absurd (Option.some.inj hhead).symm hcomma
      | cons c text =>
        rw [hdrop] at hhead
        exact ⟨text, by rw [Option.some.inj hhead]⟩
    have hend : ∃ text, last.rdropWhile isBlank = text ++ [quote] := by
      rw [← List.append_assoc, List.getLast?_append_of_ne_nil _ (List.cons_ne_nil _ _)] at hlast
      rcases List.eq_nil_or_concat' (last.rdropWhile isBlank) with hnil | ⟨text, c, htext⟩
      · rw [hnil] at hlast
        exact absurd (Option.some.inj hlast).symm hcomma
      · rw [htext, ← List.cons_append, List.getLast?_concat] at hlast
        exact ⟨text, by rw [htext, Option.some.inj hlast]⟩
    obtain ⟨text, htext⟩ := hfirst
    obtain ⟨text', htext'⟩ := hend
    exact ⟨_, .several hquote htext middle htext'⟩

theorem not_mem_of_sheds (h : Sheds entries pieces) (hcomma : ∀ entry ∈ entries, ',' ∉ entry) :
    ∀ piece ∈ pieces, ',' ∉ piece := by
  cases h with
  | lone _ _ => exact List.forall_mem_singleton.2 List.not_mem_nil
  | @single _ entry text _ hentry =>
    rw [List.forall_mem_singleton] at hcomma ⊢
    refine fun hmem ↦ hcomma (mem_of_mem_trimBy (p := isBlank) ?_)
    rw [← trim, hentry]
    exact List.mem_cons_of_mem _ (List.mem_append_left _ hmem)
  | several _ hfirst middle hlast =>
    rw [List.forall_mem_cons, List.forall_mem_append, List.forall_mem_singleton] at hcomma ⊢
    refine ⟨fun hmem ↦ hcomma.1 ?_, hcomma.2.1, fun hmem ↦ hcomma.2.2 ?_⟩
    · apply List.dropWhile_subset isBlank
      rw [hfirst]
      exact List.mem_cons_of_mem _ hmem
    · apply (List.rdropWhile_prefix isBlank _).subset
      rw [hlast]
      exact List.mem_append_left _ hmem

/-- A list with matching quotes at its ends is read without these. -/
theorem numbersOfText_of_sheds (hcomma : ∀ entry ∈ entries, ',' ∉ entry)
    (h : Sheds entries pieces) :
    numbersOfText (joined entries) = pieces.filterMap numberOfText := by
  rw [numbersOfText, unquote_of_sheds h, filterMap_splitOn_trim_joined (not_mem_of_sheds h hcomma)]

/-- A list without matching quotes at its ends is read entry by entry. -/
theorem numbersOfText_of_not_sheds (hcomma : ∀ entry ∈ entries, ',' ∉ entry)
    (h : ∀ pieces, ¬ Sheds entries pieces) :
    numbersOfText (joined entries) = entries.filterMap numberOfText := by
  rw [numbersOfText, unquote_of_not_enclosed, filterMap_splitOn_trim_joined hcomma]
  intro quote hquote hhead hlast
  obtain ⟨pieces, hpieces⟩ := exists_sheds hquote hhead hlast
  exact h pieces hpieces

end Quotes

/-! ## Entries that are quoted one by one -/

/-- Whether a text has no quotes at its ends. -/
structure IsBare (s : List Char) : Prop where
  first : ∀ c ∈ s.head?, ¬ IsQuote c
  last : ∀ c ∈ s.getLast?, ¬ IsQuote c

instance (s : List Char) : Decidable (IsBare s) :=
  decidable_of_iff ((s.head?.all fun c ↦ ¬ IsQuote c) = true ∧
      (s.getLast?.all fun c ↦ ¬ IsQuote c) = true) (by
    simp only [Option.all_eq_true, decide_eq_true_iff]
    exact ⟨fun h ↦ ⟨h.1, h.2⟩, fun h ↦ ⟨h.first, h.last⟩⟩)

/-- Whether a text is an entry without quotes, or one in a layer of the given quotes, with blanks
around it. -/
inductive IsEntry : Option Char → List Char → Prop
  | bare {entry : List Char} (hentry : IsBare (trim entry)) : IsEntry none entry
  | quoted {quote : Char} {entry text : List Char} (hquote : IsQuote quote)
    (hentry : trim entry = quote :: (text ++ [quote])) (htext : IsBare (trim text)) :
    IsEntry (some quote) entry

/-- Whether the first and the last entry are in the same quotes, and one of them is a number. -/
inductive LosesEnds : List (List Char) → Prop
  | intro {quote : Char} {first last : List Char} (hfirst : IsEntry (some quote) first)
    (middle : List (List Char)) (hlast : IsEntry (some quote) last)
    (hnumber : numberOfText first ≠ none ∨ numberOfText last ≠ none) :
    LosesEnds (first :: (middle ++ [last]))

section Entries

variable {mark? : Option Char} {quote : Char} {entry text rest : List Char}
  {entries pieces : List (List Char)}

theorem IsEntry.quoted_of_head? (h : IsEntry mark? entry) (hquote : IsQuote quote)
    (hhead : (trim entry).head? = some quote) : IsEntry (some quote) entry := by
  cases h with
  | bare hentry => exact absurd hquote (hentry.first quote hhead)
  | quoted hquote' hentry htext =>
    rw [hentry] at hhead
    obtain rfl := Option.some.inj hhead
    exact .quoted hquote hentry htext

theorem IsEntry.quoted_of_getLast? (h : IsEntry mark? entry) (hquote : IsQuote quote)
    (hlast : (trim entry).getLast? = some quote) : IsEntry (some quote) entry := by
  cases h with
  | bare hentry => exact absurd hquote (hentry.last quote hlast)
  | quoted hquote' hentry htext =>
    rw [hentry, ← List.cons_append, List.getLast?_concat] at hlast
    obtain rfl := Option.some.inj hlast
    exact .quoted hquote hentry htext

theorem IsEntry.head?_eq (h : IsEntry (some quote) entry) :
    IsQuote quote ∧ (trim entry).head? = some quote := by
  cases h with
  | quoted hquote hentry _ => exact ⟨hquote, by rw [hentry]; rfl⟩

theorem IsEntry.getLast?_eq (h : IsEntry (some quote) entry) :
    IsQuote quote ∧ (trim entry).getLast? = some quote := by
  cases h with
  | quoted hquote hentry _ =>
    exact ⟨hquote, by rw [hentry, ← List.cons_append, List.getLast?_concat]⟩

/-- An entry is the number that its text without quotes is. -/
theorem numberOfText_of_quoted (hquote : IsQuote quote)
    (hentry : trim entry = quote :: (text ++ [quote])) (htext : IsBare (trim text)) :
    numberOfText text = numberOfText entry := by
  rw [numberOfText_eq_readDecimal, numberOfText_eq_readDecimal, hentry, unquote_quoted hquote,
    unquote_of_head? htext.first]

/-- An entry that has lost the quote in front is no number. -/
theorem numberOfText_of_lost_first (hquote : IsQuote quote) (htext : IsBare (trim text)) :
    numberOfText (text ++ [quote]) = none := by
  have htrim : trim (text ++ [quote]) = text.dropWhile isBlank ++ [quote] :=
    trimBy_concat_of_neg (isBlank_of_isQuote hquote) text
  rw [numberOfText_eq_readDecimal, htrim]
  cases hdrop : text.dropWhile isBlank with
  | nil =>
    rw [List.nil_append, unquote_lone hquote]
    rfl
  | cons c later =>
    have hc : isBlank c = false := head?_dropWhile isBlank text c (by rw [hdrop]; rfl)
    have hfirst : trim text = c :: later.rdropWhile isBlank := by
      rw [trim, ← trimBy_dropWhile, hdrop, trimBy_cons_of_neg hc]
    rw [unquote_of_head?]
    · exact readDecimal_eq_none_of_isQuote hquote (List.mem_append_right _ List.mem_cons_self)
    · intro d hd
      exact htext.first d (by rw [hfirst]; exact hd)

/-- An entry that has lost the quote behind is no number. -/
theorem numberOfText_of_lost_last (hquote : IsQuote quote) (htext : IsBare (trim text)) :
    numberOfText (quote :: text) = none := by
  have htrim : trim (quote :: text) = quote :: text.rdropWhile isBlank :=
    trimBy_cons_of_neg (isBlank_of_isQuote hquote) text
  rw [numberOfText_eq_readDecimal, htrim]
  rcases List.eq_nil_or_concat' (text.rdropWhile isBlank) with hdrop | ⟨later, c, hdrop⟩
  · rw [hdrop, unquote_lone hquote]
    rfl
  · have hc : isBlank c = false :=
      getLast?_rdropWhile isBlank text c (by rw [hdrop, List.getLast?_concat]; rfl)
    have hlast : trim text = later.dropWhile isBlank ++ [c] := by
      rw [trim, ← trimBy_rdropWhile, hdrop, trimBy_concat_of_neg hc]
    rw [hdrop, unquote_of_getLast?]
    · exact readDecimal_eq_none_of_isQuote hquote List.mem_cons_self
    · intro d hd
      rw [← List.cons_append, List.getLast?_concat] at hd
      exact htext.last d (by rw [hlast, List.getLast?_concat]; exact hd)

/-- A first entry that begins with a quote of the list loses its number. -/
theorem numberOfText_of_dropWhile (h : IsEntry (some quote) entry)
    (hdrop : entry.dropWhile isBlank = quote :: rest) : numberOfText rest = none := by
  cases h with
  | @quoted _ _ text hquote hentry htext =>
    rw [trim, trimBy_eq_rdropWhile, hdrop] at hentry
    have hrest : rest.rdropWhile isBlank = text ++ [quote] :=
      (List.cons.inj ((rdropWhile_append_cons (isBlank_of_isQuote hquote) [] rest).symm.trans
        hentry)).2
    calc
      numberOfText rest = numberOfText (rest.rdropWhile isBlank) :=
        numberOfText_congr (trimBy_rdropWhile isBlank rest).symm
      _ = numberOfText (text ++ [quote]) := by rw [hrest]
      _ = none := numberOfText_of_lost_first hquote htext

/-- A last entry that ends with a quote of the list loses its number. -/
theorem numberOfText_of_rdropWhile (h : IsEntry (some quote) entry)
    (hdrop : entry.rdropWhile isBlank = rest ++ [quote]) : numberOfText rest = none := by
  cases h with
  | @quoted _ _ text hquote hentry htext =>
    rw [trim, trimBy_eq_dropWhile, hdrop, dropWhile_append_cons (isBlank_of_isQuote hquote),
      ← List.cons_append] at hentry
    have hrest : rest.dropWhile isBlank = quote :: text := (List.append_inj' hentry rfl).1
    calc
      numberOfText rest = numberOfText (rest.dropWhile isBlank) :=
        numberOfText_congr (trimBy_dropWhile isBlank rest).symm
      _ = numberOfText (quote :: text) := by rw [hrest]
      _ = none := numberOfText_of_lost_last hquote htext

theorem filterMap_eq_ends_iff {α β : Type} (f : α → Option β) (first last : α) (middle : List α) :
    middle.filterMap f = (first :: (middle ++ [last])).filterMap f ↔
      f first = none ∧ f last = none := by
  have hends : (first :: (middle ++ [last])).filterMap f =
      (f first).toList ++ (middle.filterMap f ++ (f last).toList) := by
    cases hfirst : f first <;> cases hlast : f last <;> simp [hfirst, hlast]
  rw [hends]
  constructor
  · intro heq
    have hlength := congrArg List.length heq
    rw [List.length_append, List.length_append] at hlength
    have hnil : (f first).toList.length = 0 ∧ (f last).toList.length = 0 := by omega
    simpa [List.length_eq_zero_iff] using hnil
  · rintro ⟨hfirst, hlast⟩
    rw [hfirst, hlast]
    simp

theorem losesEnds_iff {first last : List Char} (hfirst : IsEntry (some quote) first)
    (middle : List (List Char)) (hlast : IsEntry (some quote) last) :
    LosesEnds (first :: (middle ++ [last])) ↔
      numberOfText first ≠ none ∨ numberOfText last ≠ none := by
  constructor
  · intro h
    generalize hlist : first :: (middle ++ [last]) = entries at h
    cases h with
    | intro _ middle' _ hnumber =>
      obtain ⟨rfl, hrest⟩ := List.cons.inj hlist
      obtain ⟨rfl⟩ := (List.append_inj' hrest rfl).2
      exact hnumber
  · exact .intro hfirst middle hlast

/-- Of entries that are quoted one by one, those at the ends of a list with quotes at its ends are
in the same quotes.  Without these quotes, the entries are the same numbers unless one is lost. -/
theorem filterMap_of_sheds_iff (h : Sheds entries pieces)
    (hentries : ∀ entry ∈ entries, ∃ mark?, IsEntry mark? entry) :
    pieces.filterMap numberOfText = entries.filterMap numberOfText ↔ ¬ LosesEnds entries := by
  have hsingle (entry : List Char) : ¬ LosesEnds [entry] := by
    intro h
    generalize hlist : [entry] = entries at h
    cases h with
    | intro _ middle _ _ => simp at hlist
  cases h with
  | lone hquote hentry =>
    obtain ⟨mark?, hmark⟩ := hentries _ List.mem_cons_self
    cases hmark.quoted_of_head? hquote (by rw [hentry]; rfl) with
    | quoted _ hentry' _ =>
      rw [hentry] at hentry'
      simp at hentry'
  | @single _ entry text hquote hentry =>
    obtain ⟨mark?, hmark⟩ := hentries _ List.mem_cons_self
    cases hmark.quoted_of_head? hquote (by rw [hentry]; rfl) with
    | quoted _ hentry' htext =>
      have hnumber := numberOfText_of_quoted hquote hentry' htext
      rw [hentry, List.cons.injEq] at hentry'
      obtain rfl := (List.append_inj' hentry'.2 rfl).1
      refine iff_of_true ?_ (hsingle entry)
      rw [List.filterMap_cons, List.filterMap_cons, hnumber]
  | @several quote first last text text' hquote hfirst middle hlast =>
    have hfirst' : IsEntry (some quote) first := by
      obtain ⟨mark?, hmark⟩ := hentries first List.mem_cons_self
      apply hmark.quoted_of_head? hquote
      rw [trim, head?_trimBy_eq, hfirst]
      rfl
    have hlast' : IsEntry (some quote) last := by
      obtain ⟨mark?, hmark⟩ := hentries last (by simp)
      apply hmark.quoted_of_getLast? hquote
      rw [trim, getLast?_trimBy_eq, hlast, List.getLast?_concat]
    have hlost : (text :: (middle ++ [text'])).filterMap numberOfText =
        middle.filterMap numberOfText := by
      rw [eq_comm, filterMap_eq_ends_iff]
      exact ⟨numberOfText_of_dropWhile hfirst' hfirst, numberOfText_of_rdropWhile hlast' hlast⟩
    rw [hlost, filterMap_eq_ends_iff, losesEnds_iff hfirst' middle hlast', not_or, not_not, not_not]

theorem LosesEnds.exists_sheds (h : LosesEnds entries) : ∃ pieces, Sheds entries pieces := by
  cases h with
  | intro hfirst middle hlast hnumber =>
    obtain ⟨hquote, hhead⟩ := hfirst.head?_eq
    obtain ⟨-, hend⟩ := hlast.getLast?_eq
    rw [trim, head?_trimBy_eq, List.head?_eq_some_iff] at hhead
    rw [trim, getLast?_trimBy_eq, List.getLast?_eq_some_iff] at hend
    obtain ⟨text, htext⟩ := hhead
    obtain ⟨text', htext'⟩ := hend
    exact ⟨_, .several hquote htext middle htext'⟩

end Entries

/-! ## Lists read from settings -/

/-- The numbers that texts read as, one by one. -/
def numbersOfEntries (entries : List (List Char)) : Except Fault (List Binary64) := do
  let values ← (entries.map String.ofList).mapM fun s ↦ numberOf (.text s)
  .ok values.reduceOption

theorem numbersOfEntries_eq (entries : List (List Char)) :
    numbersOfEntries entries = .ok (entries.filterMap numberOfText) := by
  have hentry : ∀ entry ∈ entries,
      numberOf (.text (String.ofList entry)) = .ok (numberOfText entry) := by
    intro entry _
    have htext (s : String) : numberOf (.text s) = .ok (numberOfText s.toList) := rfl
    rw [htext, String.toList_ofList]
  have hvalues : (entries.map numberOfText).reduceOption = entries.filterMap numberOfText :=
    List.filterMap_map
  have hmap : (entries.map String.ofList).mapM (fun s ↦ numberOf (.text s)) =
      .ok (entries.map numberOfText) := mapM_map_eq_ok hentry
  rw [numbersOfEntries, hmap, ← hvalues]
  rfl

section Keys

variable {key settings : Value} {entries pieces : List (List Char)}

theorem numbersUnder_of_getOr {s : List Char}
    (hkey : settings.getOr key .null = .ok (.text (String.ofList s))) :
    numbersUnder key settings = .ok (numbersOfText s) := by
  rw [numbersUnder, hkey]
  exact (numbersOf_text _).trans (by rw [String.toList_ofList])

/-- A list under a key is read without the matching quotes at its ends, if it has any, and any other
list is read entry by entry.  Entries that are quoted one by one are all read unless the list loses
its first or its last number. -/
theorem numbersUnder_joined (hcomma : ∀ entry ∈ entries, ',' ∉ entry)
    (hkey : settings.getOr key .null = .ok (.text (String.ofList (joined entries)))) :
    (∃ numbers, numbersUnder key settings = .ok numbers) ∧
      (∀ pieces, Sheds entries pieces → numbersUnder key settings = numbersOfEntries pieces) ∧
      ((∀ pieces, ¬ Sheds entries pieces) →
        numbersUnder key settings = numbersOfEntries entries) ∧
      ((∀ entry ∈ entries, ∃ mark?, IsEntry mark? entry) →
        (numbersUnder key settings = numbersOfEntries entries ↔ ¬ LosesEnds entries)) := by
  rw [numbersUnder_of_getOr hkey]
  refine ⟨⟨_, rfl⟩, fun pieces hpieces ↦ ?_, fun hnone ↦ ?_, fun hentries ↦ ?_⟩
  · rw [numbersOfText_of_sheds hcomma hpieces, numbersOfEntries_eq]
  · rw [numbersOfText_of_not_sheds hcomma hnone, numbersOfEntries_eq]
  · rw [numbersOfEntries_eq, Except.ok.injEq]
    by_cases hsheds : ∃ pieces, Sheds entries pieces
    · obtain ⟨pieces, hpieces⟩ := hsheds
      rw [numbersOfText_of_sheds hcomma hpieces, filterMap_of_sheds_iff hpieces hentries]
    · exact iff_of_true (numbersOfText_of_not_sheds hcomma (not_exists.1 hsheds))
        fun hloses ↦ hsheds hloses.exists_sheds

end Keys

def mixedEntries : List (List Char) :=
  ["'0.1' ".toList, "x".toList, " \"0.9\"".toList]

def mixedSettings : Value :=
  .dict [(.text "qs", .text (String.ofList (joined mixedEntries)))]

/-- Quotes of two kinds at the ends do no harm, and neither does an entry that is no number. -/
theorem numbersUnder_joined_of_three_entries :
    (∀ entry ∈ mixedEntries, ',' ∉ entry) ∧
      mixedSettings.getOr (.text "qs") .null =
        .ok (.text (String.ofList (joined mixedEntries))) ∧
      (∀ entry ∈ mixedEntries, ∃ mark?, IsEntry mark? entry) ∧
      numbersUnder (.text "qs") mixedSettings = numbersOfEntries mixedEntries ∧
      ¬ LosesEnds mixedEntries := by
  have hcomma : ∀ entry ∈ mixedEntries, ',' ∉ entry := by decide
  have hkey : mixedSettings.getOr (.text "qs") .null =
      .ok (.text (String.ofList (joined mixedEntries))) := rfl
  have hfirst : IsEntry (some singleQuote) "'0.1' ".toList :=
    @IsEntry.quoted _ _ "0.1".toList (by decide) (by decide) (by decide)
  have hmiddle : IsEntry none "x".toList := .bare (by decide)
  have hlast : IsEntry (some doubleQuote) " \"0.9\"".toList :=
    @IsEntry.quoted _ _ "0.9".toList (by decide) (by decide) (by decide)
  have hentries : ∀ entry ∈ mixedEntries, ∃ mark?, IsEntry mark? entry :=
    List.forall_mem_cons.2 ⟨⟨_, hfirst⟩, List.forall_mem_cons.2 ⟨⟨_, hmiddle⟩,
      List.forall_mem_singleton.2 ⟨_, hlast⟩⟩⟩
  have hread : numbersUnder (.text "qs") mixedSettings = numbersOfEntries mixedEntries := by
    decide +kernel
  exact ⟨hcomma, hkey, hentries, hread, ((numbersUnder_joined hcomma hkey).2.2.2 hentries).1 hread⟩

def quotedNumbers : List (List Char) :=
  ["'1'".toList, "'2'".toList]

/-- Two numbers in the same quotes are both lost. -/
theorem quoted_ends_are_lost :
    (∀ entry ∈ quotedNumbers, ',' ∉ entry ∧ IsEntry (some singleQuote) entry) ∧
      numbersUnder (.text "qs")
        (.dict [(.text "qs", .text (String.ofList (joined quotedNumbers)))]) = .ok [] ∧
      (numbersOfEntries quotedNumbers).map List.length = .ok 2 := by
  have hfirst : IsEntry (some singleQuote) "'1'".toList :=
    @IsEntry.quoted _ _ "1".toList (by decide) (by decide) (by decide)
  have hlast : IsEntry (some singleQuote) "'2'".toList :=
    @IsEntry.quoted _ _ "2".toList (by decide) (by decide) (by decide)
  refine ⟨?_, rfl, by decide +kernel⟩
  exact List.forall_mem_cons.2 ⟨⟨by decide, hfirst⟩, List.forall_mem_singleton.2 ⟨by decide, hlast⟩⟩

end BucketStats.Settings

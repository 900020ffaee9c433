import BucketStats.Proofs.Decimal.Shortest
import BucketStats.Proofs.Decimal.Whole
import BucketStats.Proofs.Entries
import BucketStats.Proofs.Settings.Numbers
import BucketStats.Proofs.Text.Lines
import BucketStats.Proofs.Text.Trimmed
import BucketStats.Proofs.Text.Utf8
import BucketStats.Settings.Defaults
/-!
# Settings that were written

A settings file that gives a label in quotes, a precision and a list of quantiles is read as just
these, in whatever order its lines stand and however they end.
-/

namespace BucketStats

open Text

/-! ## Numbers -/

namespace Decimal

section Marks

variable {s : List Char} {c : Char}

theorem isBlank_of_isMark (h : IsMark c) : isBlank c = false := by
  have hink := isInk_of_isMark h
  have hseparator : (decide (0x1c ≤ c.toNat) && decide (c.toNat ≤ 0x1f)) = false := by
    have hvisible : 0x20 < c.toNat := hink.1
    rw [Bool.and_eq_false_iff, decide_eq_false_iff_not, decide_eq_false_iff_not]
    omega
  rw [isBlank, hseparator, isNumeralBlank_of_isInk hink, Bool.or_self]

theorem not_isQuote_of_isMark (h : IsMark c) : ¬ IsQuote c := by
  have hquotes : ¬ IsMark doubleQuote ∧ ¬ IsMark singleQuote := by decide
  rintro (rfl | rfl)
  · exact hquotes.1 h
  · exact hquotes.2 h

/-- Whether a text begins and ends as numerals do. -/
structure HasMarkEnds (s : List Char) : Prop where
  ne_nil : s ≠ []
  first : ∀ c ∈ s.head?, IsMark c
  last : ∀ c ∈ s.getLast?, IsMark c

theorem hasMarkEnds_of_isMark (hne : s ≠ []) (hs : ∀ c ∈ s, IsMark c) : HasMarkEnds s :=
  ⟨hne, fun c hc ↦ hs c (List.mem_of_head? hc), fun c hc ↦ hs c (List.mem_of_getLast? hc)⟩

theorem HasMarkEnds.append {t : List Char} (hs : HasMarkEnds s) (between : List Char)
    (ht : HasMarkEnds t) : HasMarkEnds (s ++ between ++ t) where
  ne_nil := List.append_ne_nil_of_right_ne_nil _ ht.ne_nil
  first := by
    rw [List.append_assoc, List.head?_append_of_ne_nil _ hs.ne_nil]
    exact hs.first
  last := by
    rw [List.getLast?_append_of_ne_nil _ ht.ne_nil]
    exact ht.last

theorem HasMarkEnds.trim_eq (hs : HasMarkEnds s) : trim s = s :=
  trimBy_of_ends (fun c hc ↦ isBlank_of_isMark (hs.first c hc))
    fun c hc ↦ isBlank_of_isMark (hs.last c hc)

theorem HasMarkEnds.unquote_eq (hs : HasMarkEnds s) : unquote s = s :=
  unquote_of_head? fun c hc ↦ not_isQuote_of_isMark (hs.first c hc)

end Marks

theorem hasMarkEnds_intercalate (margin : List Char) {pieces : List (List Char)} (hne : pieces ≠ [])
    (hpieces : ∀ piece ∈ pieces, HasMarkEnds piece) : HasMarkEnds (margin.intercalate pieces) := by
  induction pieces with
  | nil => exact absurd rfl hne
  | cons piece pieces ih =>
    obtain ⟨hpiece, hlater⟩ := List.forall_mem_cons.1 hpieces
    cases pieces with
    | nil =>
      rw [List.intercalate_singleton]
      exact hpiece
    | cons next pieces =>
      rw [List.intercalate_cons_cons]
      exact hpiece.append margin (ih (List.cons_ne_nil next pieces) hlater)

theorem writeShortest_ne_nil (x : Binary64.Finite) : writeShortest (.finite x) ≠ [] := by
  intro hnil
  have hread := readDecimal_writeShortest x
  have hnone : readDecimal [] = none := rfl
  rw [hnil, hnone] at hread
  cases hread

end Decimal

namespace Settings

open Decimal

section Numbers

variable {s : List Char}

theorem numberOfText_of_isMark (hne : s ≠ []) (hs : ∀ c ∈ s, IsMark c) :
    numberOfText s = readDecimal s := by
  have hends := hasMarkEnds_of_isMark hne hs
  rw [numberOfText_eq_readDecimal, hends.trim_eq, hends.unquote_eq]

theorem numberOfText_cons_blank {c : Char} (hc : isBlank c = true) :
    numberOfText (c :: s) = numberOfText s :=
  numberOfText_congr (trimBy_cons hc)

theorem numberOfText_writeShortest (x : Binary64.Finite) :
    numberOfText (writeShortest (.finite x)) = some (.finite x) := by
  rw [numberOfText_of_isMark (writeShortest_ne_nil x) (isMark_of_mem_writeShortest x),
    readDecimal_writeShortest]

theorem integerOfText_digits {n : Nat} (hle : n ≤ 2 ^ 53) :
    integerOfText (digits n) = some (n : Int) := by
  unfold integerOfText
  rw [numberOfText_of_isMark (digits_ne_nil n) fun c hc ↦ .inl (isDigit_of_mem_digits hc)]
  exact readDecimal_digits hle

theorem hasMarkEnds_numbers {numbers : List Binary64.Finite} (hne : numbers ≠ []) :
    HasMarkEnds ([',', ' '].intercalate (numbers.map fun x ↦ writeShortest (.finite x))) := by
  apply hasMarkEnds_intercalate
  · exact fun hnil ↦ hne (List.map_eq_nil_iff.1 hnil)
  · intro piece hpiece
    obtain ⟨x, _, rfl⟩ := List.mem_map.1 hpiece
    exact hasMarkEnds_of_isMark (writeShortest_ne_nil x) (isMark_of_mem_writeShortest x)

/-- Numbers that are written with commas and blanks between them are read one by one. -/
theorem numbersOfText_intercalate {numbers : List Binary64.Finite} (hne : numbers ≠ []) :
    numbersOfText ([',', ' '].intercalate (numbers.map fun x ↦ writeShortest (.finite x))) =
      numbers.map .finite := by
  have hends := hasMarkEnds_numbers hne
  obtain ⟨x, rest, rfl⟩ := List.exists_cons_of_ne_nil hne
  have hcomma (y : Binary64.Finite) : ',' ∉ writeShortest (.finite y) :=
    fun hmem ↦ absurd (isMark_of_mem_writeShortest y ',' hmem) (by decide)
  have hcommas : ∀ piece ∈ rest.map fun x ↦ writeShortest (.finite x), ',' ∉ piece := by
    intro piece hpiece
    obtain ⟨y, _, rfl⟩ := List.mem_map.1 hpiece
    exact hcomma y
  have hmargin (y : Binary64.Finite) :
      numberOfText ([' '] ++ writeShortest (.finite y)) = some (.finite y) := by
    rw [List.singleton_append, numberOfText_cons_blank (by decide), numberOfText_writeShortest]
  unfold numbersOfText
  rw [hends.trim_eq, hends.unquote_eq, List.map_cons, splitOn_intercalate (by decide) (hcomma x)
    hcommas, List.filterMap_cons_some (numberOfText_writeShortest x), List.map_map,
    List.filterMap_map, List.map_cons]
  congr 1
  rw [← List.filterMap_eq_map]
  exact List.filterMap_congr fun y _ ↦ hmargin y

end Numbers

/-! ## Entries -/

/-- Whether a text can stand for itself as a key. -/
structure IsKey (key : List Char) : Prop where
  ne_nil : key ≠ []
  plain : ∀ c ∈ key, isBlank c = false ∧ c ≠ '=' ∧ c ≠ '#'

/-- The line that gives a key its value. -/
def entryLine (key value : String) : String :=
  key ++ " = " ++ value

theorem toList_entryLine (key value : String) :
    (entryLine key value).toList = key.toList ++ [' '] ++ '=' :: ' ' :: value.toList := by
  simp [entryLine]

theorem entryOf_entryLine {key : String} (hkey : IsKey key.toList) (value : String) :
    entryOf (entryLine key value).toList = some (key, String.ofList (trim value.toList)) := by
  have hblank : ∀ c ∈ key.toList, isBlank c = false := fun c hc ↦ (hkey.plain c hc).1
  have hcomment : isComment (entryLine key value).toList = false := by
    rw [toList_entryLine]
    obtain ⟨c, rest, hc⟩ := List.exists_cons_of_ne_nil hkey.ne_nil
    obtain ⟨hc', _, hmark⟩ := hkey.plain c (hc ▸ List.mem_cons_self)
    rw [hc, List.cons_append, List.cons_append, isComment,
      List.dropWhile_cons_of_neg (by simp [hc'])]
    simpa using hmark
  have hsplit : splitAtFirst '=' (entryLine key value).toList =
      some (key.toList ++ [' '], ' ' :: value.toList) := by
    rw [toList_entryLine]
    apply splitAtFirst_append
    rw [List.mem_append, not_or]
    exact ⟨fun hmem ↦ (hkey.plain '=' hmem).2.1 rfl, by decide⟩
  have hbefore : trim (key.toList ++ [' ']) = key.toList := by
    unfold trim
    rw [trimBy_concat (by decide), trimBy_eq_self hblank]
  have hafter : trim (' ' :: value.toList) = trim value.toList := trimBy_cons (by decide)
  unfold entryOf
  rw [hcomment, hsplit]
  simp [hbefore, hafter]

/-- The settings of a file are the entries that its lines make. -/
theorem ofBytes_of_laidOut {order : List String} {text : String}
    (horder : ∀ line ∈ order, line ≠ "" ∧ OnLine line.toList)
    (htext : LaidOut (order.map String.toList) text.toList) :
    ofBytes text.toUTF8.data.toList =
      Entries.ofList (order.filterMap fun line ↦ entryOf line.toList) := by
  have hlines : ∀ line ∈ order.map String.toList, line ≠ [] ∧ OnLine line := by
    intro line hline
    obtain ⟨s, hs, rfl⟩ := List.mem_map.1 hline
    exact ⟨fun hnil ↦ (horder s hs).1 (String.toList_eq_nil_iff.1 hnil), (horder s hs).2⟩
  have hempty : [([] : List Char)].filterMap entryOf = [] := by decide
  rw [ofBytes, decodeUtf8_toUTF8, ofText]
  congr 1
  rcases lines_of_laidOut htext hlines with heq | heq
  · rw [heq, List.filterMap_map]
    rfl
  · rw [heq, List.filterMap_append, hempty, List.append_nil, List.filterMap_map]
    rfl

/-! ## Defaults -/

/-- Whether a text can be the label of a settings file. -/
structure IsLabel (label : String) : Prop where
  ne_empty : label ≠ ""
  trimmed : IsTrimmed label.toList
  onLine : OnLine label.toList

def quotedLabel (label : String) : String :=
  "\"" ++ label ++ "\""

def quantilesText (quantiles : List Binary64.Finite) : String :=
  ", ".intercalate (quantiles.map fun x ↦ binary64Text (.finite x))

/-- The entries that give a label, a precision and quantiles. -/
def entries (label : String) (precision : Nat) (quantiles : List Binary64.Finite) :
    List (String × String) :=
  [("label", quotedLabel label), ("precision", toString precision),
    ("quantiles", quantilesText quantiles)]

def written (label : String) (precision : Nat) (quantiles : List Binary64.Finite) : List String :=
  (entries label precision quantiles).map fun e ↦ entryLine e.1 e.2

section Written

variable {label : String} {precision : Nat} {quantiles : List Binary64.Finite}

theorem toList_quotedLabel (label : String) :
    (quotedLabel label).toList = doubleQuote :: (label.toList ++ [doubleQuote]) := by
  simp [quotedLabel, doubleQuote]

theorem toList_toString_nat (n : Nat) : (toString n).toList = digits n :=
  Nat.toList_repr

theorem toList_quantilesText (quantiles : List Binary64.Finite) :
    (quantilesText quantiles).toList =
      [',', ' '].intercalate (quantiles.map fun x ↦ writeShortest (.finite x)) := by
  simp [quantilesText, binary64Text, Function.comp_def]

theorem trim_quotedLabel (label : String) :
    trim (quotedLabel label).toList = (quotedLabel label).toList := by
  have hblank : ∀ c ∈ some doubleQuote, isBlank c = false := by
    rintro _ ⟨⟩
    decide
  apply trimBy_of_ends
  · rw [toList_quotedLabel]
    exact hblank
  · rw [toList_quotedLabel, ← List.cons_append, List.getLast?_concat]
    exact hblank

theorem trim_toString (n : Nat) : trim (toString n).toList = (toString n).toList := by
  rw [toList_toString_nat]
  exact (hasMarkEnds_of_isMark (digits_ne_nil n) fun _ hc ↦ .inl (isDigit_of_mem_digits hc)).trim_eq

theorem trim_quantilesText (quantiles : List Binary64.Finite) :
    trim (quantilesText quantiles).toList = (quantilesText quantiles).toList := by
  by_cases hnil : quantiles = []
  · subst hnil
    rfl
  · rw [toList_quantilesText]
    exact (hasMarkEnds_numbers hnil).trim_eq

theorem filterMap_entryOf_written (label : String) (precision : Nat)
    (quantiles : List Binary64.Finite) :
    ((written label precision quantiles).filterMap fun line ↦ entryOf line.toList) =
      entries label precision quantiles := by
  have hlabel : IsKey "label".toList := ⟨by decide, List.all_iff_forall_prop.1 (by decide)⟩
  have hprecision : IsKey "precision".toList := ⟨by decide, List.all_iff_forall_prop.1 (by decide)⟩
  have hquantiles : IsKey "quantiles".toList := ⟨by decide, List.all_iff_forall_prop.1 (by decide)⟩
  simp only [written, entries, List.map_cons, List.map_nil, List.filterMap_cons, List.filterMap_nil,
    entryOf_entryLine hlabel, entryOf_entryLine hprecision, entryOf_entryLine hquantiles,
    trim_quotedLabel, trim_toString, trim_quantilesText, String.ofList_toList]

theorem onLine_of_isMark {s : List Char} (hs : ∀ c ∈ s, IsMark c ∨ c ∈ [',', ' ']) : OnLine s := by
  constructor
  · exact fun hmem ↦ absurd (hs _ hmem) (by decide)
  · exact fun hmem ↦ absurd (hs _ hmem) (by decide)

theorem onLine_quotedLabel (hlabel : IsLabel label) : OnLine (quotedLabel label).toList := by
  have hfeed : '\n' ≠ doubleQuote := by decide
  have hreturn : '\r' ≠ doubleQuote := by decide
  rw [toList_quotedLabel]
  constructor
  · simp [hfeed, hlabel.onLine.no_feed]
  · simp [hreturn, hlabel.onLine.no_return]

theorem onLine_toString (n : Nat) : OnLine (toString n).toList := by
  rw [toList_toString_nat]
  exact onLine_of_isMark fun _ hc ↦ .inl (.inl (isDigit_of_mem_digits hc))

theorem onLine_quantilesText (quantiles : List Binary64.Finite) :
    OnLine (quantilesText quantiles).toList := by
  rw [toList_quantilesText]
  apply onLine_of_isMark
  intro c hc
  rcases mem_intercalate hc with hc | ⟨piece, hpiece, hc⟩
  · exact .inr hc
  · obtain ⟨x, _, rfl⟩ := List.mem_map.1 hpiece
    exact .inl (isMark_of_mem_writeShortest x c hc)

theorem onLine_entryLine {key value : String} (hkey : OnLine key.toList)
    (hvalue : OnLine value.toList) :
    entryLine key value ≠ "" ∧ OnLine (entryLine key value).toList := by
  rw [← String.toList_eq_nil_iff.ne, toList_entryLine]
  refine ⟨by simp, ?_, ?_⟩
  · simp [hkey.no_feed, hvalue.no_feed]
  · simp [hkey.no_return, hvalue.no_return]

theorem onLine_of_mem_written (hlabel : IsLabel label) :
    ∀ line ∈ written label precision quantiles, line ≠ "" ∧ OnLine line.toList := by
  simp only [written, entries, List.map_cons, List.map_nil, List.forall_mem_cons, List.not_mem_nil,
    false_implies, implies_true, and_true]
  exact ⟨onLine_entryLine ⟨by decide, by decide⟩ (onLine_quotedLabel hlabel),
    onLine_entryLine ⟨by decide, by decide⟩ (onLine_toString precision),
    onLine_entryLine ⟨by decide, by decide⟩ (onLine_quantilesText quantiles)⟩

/-- The settings that were written are found, in whatever order their lines stand. -/
theorem find?_written (hlabel : IsLabel label) {order : List String}
    (horder : order.Perm (written label precision quantiles)) {text : String}
    (htext : LaidOut (order.map String.toList) text.toList) :
    ∀ e ∈ entries label precision quantiles,
      (ofBytes text.toUTF8.data.toList).find? e.1 = some e.2 := by
  have hentries : (order.filterMap fun line ↦ entryOf line.toList).Perm
      (entries label precision quantiles) := by
    rw [← filterMap_entryOf_written]
    exact horder.filterMap _
  have hkeys : (entries label precision quantiles).map (·.1) =
      ["label", "precision", "quantiles"] := rfl
  have hnodup : ((order.filterMap fun line ↦ entryOf line.toList).map (·.1)).Nodup := by
    rw [(hentries.map (·.1)).nodup_iff, hkeys]
    decide
  intro e he
  rw [ofBytes_of_laidOut (fun line hline ↦ onLine_of_mem_written hlabel line
    (horder.mem_iff.1 hline)) htext]
  exact Entries.find?_ofList_of_nodup hnodup (hentries.mem_iff.2 he)

end Written

end Settings

namespace Defaults

open Settings

variable {settings : Settings}

theorem labelOf_of_find? {label : String} (hlabel : IsLabel label)
    (hfind : settings.find? "label" = some (quotedLabel label)) : labelOf settings = label := by
  have hunquote : unquote (trim (quotedLabel label).toList) = label.toList := by
    rw [trim_quotedLabel, toList_quotedLabel, unquote_quoted (.inl rfl),
      hlabel.trimmed.trim_eq]
  have hne : label.toList.isEmpty = false := by
    rw [List.isEmpty_eq_false_iff]
    exact fun hnil ↦ hlabel.ne_empty (String.toList_eq_nil_iff.1 hnil)
  unfold labelOf
  simp only [hfind, hunquote, hne, String.ofList_toList]
  rfl

theorem precisionOf_of_find? {precision : Nat} (hle : precision ≤ 2 ^ 53)
    (hfind : settings.find? "precision" = some (toString precision)) :
    precisionOf settings = precision := by
  have hread : integerOfText (toString precision).toList = some (precision : Int) := by
    rw [toList_toString_nat, integerOfText_digits hle]
  unfold precisionOf
  simp only [hfind, hread]
  rfl

theorem quantilesOf_of_find? {quantiles : List Binary64.Finite}
    (hfind : settings.find? "quantiles" = some (quantilesText quantiles)) :
    quantilesOf settings = quantiles.map .finite := by
  unfold quantilesOf
  rw [hfind]
  by_cases hnil : quantiles = []
  · subst hnil
    rfl
  · have hne : quantilesText quantiles ≠ "" := by
      rw [← String.toList_eq_nil_iff.ne, toList_quantilesText]
      exact (hasMarkEnds_numbers hnil).ne_nil
    have hempty : (quantilesText quantiles).isEmpty = false := by simpa using hne
    simp only [hempty, toList_quantilesText, numbersOfText_intercalate hnil]
    rfl

/-- What is written is read, in whatever order the lines stand and however they end. -/
theorem ofSettings_of_laidOut {label : String} (hlabel : IsLabel label) {precision : Nat}
    (hprecision : precision ≤ 2 ^ 53) (quantiles : List Binary64.Finite) {order : List String}
    (horder : order.Perm (written label precision quantiles)) {text : String}
    (htext : LaidOut (order.map String.toList) text.toList) :
    ofSettings (ofBytes text.toUTF8.data.toList) = ⟨label, precision, quantiles.map .finite⟩ := by
  have hfind := find?_written hlabel horder htext
  simp only [entries, List.forall_mem_cons] at hfind
  unfold ofSettings
  rw [labelOf_of_find? hlabel hfind.1, precisionOf_of_find? hprecision hfind.2.1,
    quantilesOf_of_find? hfind.2.2.1]

/-- A label may hold quotes, equals signs and number signs. -/
theorem ofSettings_of_three_lines :
    ofSettings (ofBytes
      "quantiles = 0.5\r\nlabel = \"a \"b\" = #c\"\rprecision = 6".toUTF8.data.toList) =
      ⟨"a \"b\" = #c", 6, [.finite ⟨false, 1022 * twoPow 52, by decide⟩]⟩ := by
  have horder : ["quantiles = 0.5", "label = \"a \"b\" = #c\"", "precision = 6"].Perm
      (written "a \"b\" = #c" 6 [⟨false, 1022 * twoPow 52, by decide⟩]) := by
    decide +kernel
  have hlaid := LaidOut.cons "quantiles = 0.5".toList .pair
    (.cons "label = \"a \"b\" = #c\"".toList .carriageReturn (.last "precision = 6".toList))
  exact ofSettings_of_laidOut ⟨by decide, by decide, by decide, by decide⟩ (by decide) _ horder hlaid

end Defaults

end BucketStats

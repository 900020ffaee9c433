import BucketStats.Proofs.Json
import BucketStats.Proofs.Json.Numerals
import BucketStats.Proofs.Json.Texts
import BucketStats.Proofs.Text.Lines
import Mathlib.Data.Bool.AllAny
/-!
# Documents read back

A document that was written is read back, whatever comes after it, as long as that does not go on with
a numeral.  Only numbers that are infinite or no numbers have no text in JSON.
-/

namespace BucketStats

open Text Document

/-! ## Parts of documents -/

namespace Document

theorem skip_of_not_isSpace {c : Char} (hc : isSpace c = false) (s : List Char) :
    skip (c :: s) = c :: s :=
  List.dropWhile_cons_of_neg (by simp [hc])

theorem skip_spaces {spaces : List Char} (hspaces : ∀ c ∈ spaces, isSpace c = true)
    (s : List Char) : skip (spaces ++ s) = skip s :=
  List.dropWhile_append_of_pos hspaces

/-- Whether a text is read as a document, with blanks before it or without, and what comes after it
is left. -/
def IsReadAs (text : String) (document : Document) : Prop :=
  ∀ ⦃fuel : Nat⦄ ⦃s rest : List Char⦄, text.length ≤ fuel →
    (∀ c ∈ rest.head?, isNumeralChar c = false) → skip s = skip (text.toList ++ rest) →
    readDocument fuel s = some (document, rest)

section Bare

variable {c : Char}

/-- Nothing but a numeral begins with a character of numerals. -/
theorem ne_of_isNumeralChar (hc : isNumeralChar c = true) {d : Char}
    (hd : isNumeralChar d = false) : c ≠ d := by
  rintro rfl
  rw [hc] at hd
  cases hd

theorem isSpace_of_isNumeralChar (hc : isNumeralChar c = true) : isSpace c = false := by
  unfold isSpace
  rw [List.contains_eq_mem, decide_eq_false_iff_not]
  have hspaces : ∀ d ∈ [' ', '\t', '\n', '\r'], isNumeralChar d = false :=
    List.all_iff_forall_prop.1 (by decide)
  intro hmem
  exact ne_of_isNumeralChar hc (hspaces c hmem) rfl

theorem readWord_of_isNumeralChar (hc : isNumeralChar c = true) (s : List Char) :
    readWord (c :: s) = none := by
  have hn : 'n' ≠ c := (ne_of_isNumeralChar hc (by decide)).symm
  have ht : 't' ≠ c := (ne_of_isNumeralChar hc (by decide)).symm
  have hf : 'f' ≠ c := (ne_of_isNumeralChar hc (by decide)).symm
  simp [readWord, words, hn, ht, hf]

/-- A numeral is read up to where the text does not go on with it. -/
theorem readBare_numeral {more rest : List Char} {document : Document}
    (hchars : ∀ d ∈ c :: more, isNumeralChar d = true)
    (hrest : ∀ d ∈ rest.head?, isNumeralChar d = false)
    (hread : readNumeral (c :: more) = some document) :
    readBare (c :: more ++ rest) = some (document, rest) := by
  have htake : (c :: more ++ rest).takeWhile isNumeralChar = c :: more := by
    rw [List.takeWhile_append_of_pos hchars]
    cases rest with
    | nil => simp
    | cons d rest => simp [hrest d rfl]
  have hdrop : (c :: more ++ rest).dropWhile isNumeralChar = rest := by
    rw [List.dropWhile_append_of_pos hchars]
    cases rest with
    | nil => rfl
    | cons d rest => simp [hrest d rfl]
  unfold readBare
  rw [List.cons_append, readWord_of_isNumeralChar (hchars c List.mem_cons_self),
    ← List.cons_append, htake, hdrop, hread]
  rfl

theorem isReadAs_numeral {numeral : List Char} {document : Document}
    (hchars : ∀ c ∈ numeral, isNumeralChar c = true)
    (hread : readNumeral numeral = some document) :
    IsReadAs (String.ofList numeral) document := by
  intro fuel s rest hfuel hrest hs
  have hne : numeral ≠ [] := by
    rintro rfl
    cases hread
  obtain ⟨c, more, rfl⟩ := List.exists_cons_of_ne_nil hne
  have hc := hchars c List.mem_cons_self
  rw [String.toList_ofList, List.cons_append,
    skip_of_not_isSpace (isSpace_of_isNumeralChar hc)] at hs
  cases fuel with
  | zero => simp at hfuel
  | succ fuel =>
    have hquote : ¬ (c == doubleQuote) = true := by
      simpa using ne_of_isNumeralChar hc (by decide : isNumeralChar doubleQuote = false)
    have hbracket : ¬ (c == '[') = true := by
      simpa using ne_of_isNumeralChar hc (by decide : isNumeralChar '[' = false)
    have hbrace : ¬ (c == '\x7b') = true := by
      simpa using ne_of_isNumeralChar hc (by decide : isNumeralChar '\x7b' = false)
    rw [readDocument, hs]
    dsimp only
    rw [if_neg hquote, if_neg hbracket, if_neg hbrace, ← List.cons_append,
      readBare_numeral hchars hrest hread]

end Bare

/-! ## Texts and fields -/

theorem toList_stringText (s : String) :
    (Json.stringText s).toList = doubleQuote :: (s.toList.flatMap escapeJson ++ [doubleQuote]) :=
  String.toList_ofList

theorem isReadAs_stringText (s : String) : IsReadAs (Json.stringText s) (.text s) := by
  intro fuel t rest hfuel _ ht
  rw [toList_stringText, List.cons_append, List.append_assoc,
    skip_of_not_isSpace (by decide)] at ht
  cases fuel with
  | zero =>
    rw [← String.length_toList, toList_stringText] at hfuel
    cases hfuel
  | succ fuel =>
    rw [readDocument, ht]
    dsimp only
    rw [if_pos (beq_self_eq_true _), List.singleton_append, readText_flatMap]
    rfl

theorem isSpace_of_mem_indentation {depth : Nat} :
    ∀ c ∈ (Json.indentation depth).toList, isSpace c = true := by
  rw [Json.indentation, String.toList_ofList, List.forall_mem_cons]
  refine ⟨rfl, fun c hc ↦ ?_⟩
  rw [List.eq_of_mem_replicate hc]
  rfl

theorem readKey_fieldText {depth : Nat} {key part : String} {s rest : List Char}
    (hs : skip s = skip ((Json.fieldText depth key part).toList ++ rest)) :
    readKey s = some (key, ' ' :: (part.toList ++ rest)) := by
  have htext : (Json.fieldText depth key part).toList ++ rest =
      (Json.indentation depth).toList ++ (doubleQuote :: (key.toList.flatMap escapeJson ++
        doubleQuote :: ':' :: ' ' :: (part.toList ++ rest))) := by
    simp [Json.fieldText, toList_stringText]
  rw [htext, skip_spaces isSpace_of_mem_indentation, skip_of_not_isSpace (by decide)] at hs
  unfold readKey
  rw [hs]
  dsimp only
  rw [if_pos (beq_self_eq_true _), readText_flatMap]
  rfl

/-- Whether fields are read from their texts, up to the end of an object. -/
def AreReadAs (parts : List String) (fields : List (String × Document)) : Prop :=
  ∀ ⦃fuel : Nat⦄ ⦃s spaces rest : List Char⦄,
    ([','].intercalate (parts.map String.toList)).length ≤ fuel →
    (∀ c ∈ spaces, isSpace c = true) →
    skip s = skip ([','].intercalate (parts.map String.toList) ++ (spaces ++ '\x7d' :: rest)) →
    readFields fuel s = some (fields, rest)

section Fields

variable {depth : Nat} {key part : String} {parts : List String} {document : Document}
  {fields : List (String × Document)}

theorem length_lt_fieldText (depth : Nat) (key part : String) :
    part.length < (Json.fieldText depth key part).length := by
  have hcolon : ": ".length = 2 := rfl
  unfold Json.fieldText
  rw [String.length_append, String.length_append, hcolon]
  omega

theorem isNumeralChar_of_isSpace {c : Char} (hc : isSpace c = true) : isNumeralChar c = false := by
  cases hnumeral : isNumeralChar c with
  | false => rfl
  | true =>
    rw [isSpace_of_isNumeralChar hnumeral] at hc
    cases hc

/-- A field is read, and then what its end says. -/
theorem readFields_fieldText {fuel : Nat} {s after : List Char} (hpart : IsReadAs part document)
    (hfuel : part.length ≤ fuel) (hafter : ∀ c ∈ after.head?, isNumeralChar c = false)
    (hs : skip s = skip ((Json.fieldText depth key part).toList ++ after)) :
    readFields (fuel + 1) s =
      match skip after with
      | ',' :: rest => do
        let (fields, rest) ← readFields fuel rest
        some ((key, document) :: fields, rest)
      | '\x7d' :: rest => some ([(key, document)], rest)
      | _ => none := by
  have hvalue : readDocument fuel (' ' :: (part.toList ++ after)) = some (document, after) :=
    hpart hfuel hafter rfl
  rw [readFields, readKey_fieldText hs, Option.bind_eq_bind, Option.bind_some]
  dsimp only
  rw [hvalue, Option.bind_eq_bind]
  rfl

theorem areReadAs_singleton (hpart : IsReadAs part document) :
    AreReadAs [Json.fieldText depth key part] [(key, document)] := by
  intro fuel s spaces rest hfuel hspaces hs
  have hlength := length_lt_fieldText depth key part
  rw [List.map_singleton, List.intercalate_singleton] at hfuel hs
  rw [String.length_toList] at hfuel
  have hafter : ∀ c ∈ (spaces ++ '\x7d' :: rest).head?, isNumeralChar c = false := by
    cases spaces with
    | nil => simp [isNumeralChar]
    | cons d more => simpa using isNumeralChar_of_isSpace (hspaces d List.mem_cons_self)
  cases fuel with
  | zero => omega
  | succ fuel =>
    rw [readFields_fieldText hpart (by omega) hafter hs, skip_spaces hspaces,
      skip_of_not_isSpace (by decide)]
    rfl

theorem areReadAs_cons (hpart : IsReadAs part document) (hne : parts ≠ [])
    (hparts : AreReadAs parts fields) :
    AreReadAs (Json.fieldText depth key part :: parts) ((key, document) :: fields) := by
  intro fuel s spaces rest hfuel hspaces hs
  have hlength := length_lt_fieldText depth key part
  have htext : [','].intercalate ((Json.fieldText depth key part :: parts).map String.toList) =
      (Json.fieldText depth key part).toList ++ ',' ::
        [','].intercalate (parts.map String.toList) := by
    obtain ⟨first, more, rfl⟩ := List.exists_cons_of_ne_nil hne
    rw [List.map_cons, List.map_cons, List.intercalate_cons_cons]
    simp
  rw [htext] at hfuel hs
  rw [List.length_append, List.length_cons, String.length_toList] at hfuel
  rw [List.append_assoc, List.cons_append] at hs
  cases fuel with
  | zero => omega
  | succ fuel =>
    have hlater : readFields fuel ([','].intercalate (parts.map String.toList) ++
        (spaces ++ '\x7d' :: rest)) = some (fields, rest) := hparts (by omega) hspaces rfl
    rw [readFields_fieldText hpart (by omega) (by simp [isNumeralChar]) hs,
      skip_of_not_isSpace (by decide)]
    simp only [hlater, Option.bind_eq_bind, Option.bind_some]

theorem isReadAs_objectText (hne : parts ≠ []) (hparts : AreReadAs parts fields) :
    IsReadAs (Json.objectText depth parts) (.object (Entries.ofList fields)) := by
  intro fuel s rest hfuel hrest hs
  have htext : (Json.objectText depth parts).toList = '\x7b' ::
      ([','].intercalate (parts.map String.toList) ++
        ((Json.indentation depth).toList ++ ['\x7d'])) := by
    have hsome : ¬ parts.isEmpty = true := by simpa using hne
    rw [Json.objectText, if_neg hsome]
    simp [String.toList_intercalate]
  rw [← String.length_toList, htext, List.length_cons, List.length_append] at hfuel
  rw [htext, List.cons_append, List.append_assoc, List.append_assoc, List.singleton_append,
    skip_of_not_isSpace (by decide)] at hs
  cases fuel with
  | zero => omega
  | succ fuel =>
    have hfields : readFields fuel ([','].intercalate (parts.map String.toList) ++
        ((Json.indentation depth).toList ++ '\x7d' :: rest)) = some (fields, rest) :=
      hparts (by omega) isSpace_of_mem_indentation rfl
    rw [readDocument, hs]
    dsimp only
    rw [if_neg (by decide), if_neg (by decide), if_pos (by decide)]
    split
    · -- an object that ends at once has no fields
      rename_i more hend
      cases fuel with
      | zero => cases hfields
      | succ fuel =>
        rw [readFields, readKey, hend] at hfields
        cases hfields
    · rw [hfields]
      rfl

end Fields

end Document

namespace Json

open Decimal

/-! ## Documents -/

mutual

/-- The numbers in a document. -/
def numbers : Json → List Binary64
  | .text _ => []
  | .integer _ => []
  | .number x => [x]
  | .object fields => fieldNumbers fields

def fieldNumbers : List (String × Json) → List Binary64
  | [] => []
  | (_, value) :: rest => numbers value ++ fieldNumbers rest

end

mutual

/-- What a document says. -/
def document : Json → Document
  | .text s => .text s
  | .integer n => .integer n
  | .number x => .number x
  | .object fields => .object (Entries.ofList (fieldDocuments fields))

def fieldDocuments : List (String × Json) → List (String × Document)
  | [] => []
  | (key, value) :: rest => (key, value.document) :: fieldDocuments rest

end

theorem fieldNumbers_map_integer (entries : List (String × Nat)) :
    fieldNumbers (entries.map fun e ↦ (e.1, .integer e.2)) = [] := by
  induction entries with
  | nil => rfl
  | cons e rest ih =>
    rw [List.map_cons, fieldNumbers, ih]
    rfl

theorem fieldDocuments_map_integer (entries : List (String × Nat)) :
    fieldDocuments (entries.map fun e ↦ (e.1, .integer e.2)) =
      entries.map fun e ↦ (e.1, .integer e.2) := by
  induction entries with
  | nil => rfl
  | cons e rest ih =>
    rw [List.map_cons, fieldDocuments, ih]
    rfl

theorem isNumeralChar_of_isMark {c : Char} (hc : IsMark c) : isNumeralChar c = true := by
  unfold isNumeralChar
  rcases hc with hc | hc
  · rw [hc, Bool.true_or]
  · have hmarks : ∀ c ∈ ['.', 'e', '-', '+'], ['-', '+', '.', 'e', 'E'].contains c = true :=
      List.all_iff_forall_prop.1 (by decide)
    rw [hmarks c hc, Bool.or_true]

theorem isReadAs_binary64Text (x : Binary64.Finite) :
    IsReadAs (binary64Text (.finite x)) (.number (.finite x)) :=
  isReadAs_numeral (fun c hc ↦ isNumeralChar_of_isMark (isMark_of_mem_writeShortest x c hc))
    (readNumeral_writeShortest x)

theorem isMark_of_mem_toString (n : Int) : ∀ c ∈ (toString n).toList, IsMark c := by
  rw [toList_toString]
  exact isMark_of_mem_signed fun c hc ↦ .inl (isDigit_of_mem_digits hc)

theorem isReadAs_toString (n : Int) : IsReadAs (toString n) (.integer n) := by
  have hread := isReadAs_numeral
    (fun c hc ↦ isNumeralChar_of_isMark (isMark_of_mem_toString n c hc)) (readNumeral_toString n)
  rwa [String.ofList_toList] at hread

theorem isReadAs_emptyObject (depth : Nat) : IsReadAs (objectText depth []) (.object []) := by
  intro fuel s rest hfuel _ hs
  have htext : (objectText depth []).toList = ['\x7b', '\x7d'] := by
    simp [objectText]
  rw [← String.length_toList, htext] at hfuel
  rw [htext, List.cons_append, skip_of_not_isSpace (by decide)] at hs
  cases fuel with
  | zero => cases hfuel
  | succ fuel =>
    rw [readDocument, hs]
    rfl

theorem writeFields_ne_nil {depth : Nat} {field : String × Json} {rest : List (String × Json)}
    {parts : List String} (h : writeFields depth (field :: rest) = .ok parts) : parts ≠ [] := by
  obtain ⟨part, _, h⟩ := bind_eq_ok_iff.1 h
  obtain ⟨more, _, h⟩ := bind_eq_ok_iff.1 h
  cases h
  exact List.cons_ne_nil _ _

mutual

/-- A document is read from its text. -/
theorem isReadAs_write (depth : Nat) : (document : Json) →
    (∀ x ∈ document.numbers, ∃ y, x = .finite y) →
    ∀ written, document.write depth = .ok written → IsReadAs written document.document
  | .text s => by
    intro _ written h
    cases h
    exact isReadAs_stringText s
  | .integer n => by
    intro _ written h
    rw [write] at h
    obtain ⟨_, rfl⟩ := integerText_eq_ok_iff.1 h
    exact isReadAs_toString n
  | .number x => by
    intro hfinite written h
    obtain ⟨y, rfl⟩ := hfinite x List.mem_cons_self
    cases h
    exact isReadAs_binary64Text y
  | .object [] => by
    intro _ written h
    cases h
    exact isReadAs_emptyObject depth
  | .object (field :: rest) => by
    intro hfinite written h
    obtain ⟨parts, hparts, h⟩ := bind_eq_ok_iff.1 h
    cases h
    have hfields := areReadAs_writeFields (depth + 1) (field :: rest) (List.cons_ne_nil field rest)
      hfinite parts hparts
    exact isReadAs_objectText (writeFields_ne_nil hparts) hfields

theorem areReadAs_writeFields (depth : Nat) : (fields : List (String × Json)) → fields ≠ [] →
    (∀ x ∈ fieldNumbers fields, ∃ y, x = .finite y) →
    ∀ parts, writeFields depth fields = .ok parts → AreReadAs parts (fieldDocuments fields)
  | [] => fun hne ↦ absurd rfl hne
  | (key, value) :: rest => by
    intro _ hfinite parts h
    rw [fieldNumbers, List.forall_mem_append] at hfinite
    obtain ⟨part, hpart, h⟩ := bind_eq_ok_iff.1 h
    obtain ⟨parts, hparts, h⟩ := bind_eq_ok_iff.1 h
    cases h
    have hvalue := isReadAs_write depth value hfinite.1 part hpart
    cases rest with
    | nil =>
      cases hparts
      exact areReadAs_singleton hvalue
    | cons field rest =>
      have hfields := areReadAs_writeFields depth (field :: rest) (List.cons_ne_nil field rest)
        hfinite.2 parts hparts
      exact areReadAs_cons hvalue (writeFields_ne_nil hparts) hfields

end

/-- A document on lines of its own is read back. -/
theorem read_write {document : Json} {text : String}
    (hfinite : ∀ x ∈ document.numbers, ∃ y, x = .finite y)
    (hwrite : document.write 0 = .ok text) :
    Document.read (text ++ "\n") = some document.document := by
  have hread : readDocument (text ++ "\n").length (text ++ "\n").toList =
      some (document.document, ['\n']) := by
    apply isReadAs_write 0 document hfinite text hwrite
    · rw [String.length_append]
      omega
    · simp [isNumeralChar]
    · rw [String.toList_append]
      rfl
  rw [Document.read, hread]
  rfl

/-! ## ASCII -/

/-- Whether a text is written in ASCII. -/
def AllAscii (s : String) : Prop :=
  ∀ c ∈ s.toList, IsAscii c

theorem AllAscii.append {s t : String} (hs : AllAscii s) (ht : AllAscii t) : AllAscii (s ++ t) := by
  intro c hc
  rw [String.toList_append, List.mem_append] at hc
  exact hc.elim (hs c) (ht c)

theorem allAscii_of_isMark {numeral : List Char} (hmarks : ∀ c ∈ numeral, IsMark c) :
    AllAscii (String.ofList numeral) := by
  intro c hc
  rw [String.toList_ofList] at hc
  exact (isInk_of_isMark (hmarks c hc)).2.1.trans (by decide)

theorem allAscii_stringText (s : String) : AllAscii (stringText s) := by
  intro c hc
  rw [toList_stringText, List.mem_cons, List.mem_append, List.mem_singleton,
    List.mem_flatMap] at hc
  rcases hc with rfl | ⟨c', _, hc⟩ | rfl
  · decide
  · exact isAscii_of_mem_escapeJson hc
  · decide

theorem allAscii_indentation (depth : Nat) : AllAscii (indentation depth) := by
  intro c hc
  have hspaces : ∀ c ∈ [' ', '\t', '\n', '\r'], IsAscii c :=
    List.all_iff_forall_prop.1 (by decide)
  have hspace := isSpace_of_mem_indentation c hc
  rw [isSpace, List.contains_eq_mem, decide_eq_true_eq] at hspace
  exact hspaces c hspace

theorem allAscii_objectText {depth : Nat} {parts : List String}
    (hparts : ∀ part ∈ parts, AllAscii part) : AllAscii (objectText depth parts) := by
  have hfields : AllAscii (",".intercalate parts) := by
    intro c hc
    rw [String.toList_intercalate] at hc
    rcases mem_intercalate hc with hc | ⟨piece, hpiece, hc⟩
    · have hcomma : AllAscii "," := List.all_iff_forall_prop.1 (by decide)
      exact hcomma c hc
    · obtain ⟨part, hpart, rfl⟩ := List.mem_map.1 hpiece
      exact hparts part hpart c hc
  have hopen : AllAscii "\x7b" := List.all_iff_forall_prop.1 (by decide)
  have hclose : AllAscii "\x7d" := List.all_iff_forall_prop.1 (by decide)
  unfold objectText
  split
  · exact hopen.append hclose
  · exact ((hopen.append hfields).append (allAscii_indentation depth)).append hclose

mutual

/-- A document is written in ASCII. -/
theorem allAscii_write (depth : Nat) : (document : Json) →
    (∀ x ∈ document.numbers, ∃ y, x = .finite y) →
    ∀ written, document.write depth = .ok written → AllAscii written
  | .text s => by
    intro _ written h
    cases h
    exact allAscii_stringText s
  | .integer n => by
    intro _ written h
    rw [write] at h
    obtain ⟨_, rfl⟩ := integerText_eq_ok_iff.1 h
    have hascii := allAscii_of_isMark (isMark_of_mem_toString n)
    rwa [String.ofList_toList] at hascii
  | .number x => by
    intro hfinite written h
    obtain ⟨y, rfl⟩ := hfinite x List.mem_cons_self
    cases h
    exact allAscii_of_isMark (isMark_of_mem_writeShortest y)
  | .object fields => by
    intro hfinite written h
    obtain ⟨parts, hparts, h⟩ := bind_eq_ok_iff.1 h
    cases h
    exact allAscii_objectText (allAscii_writeFields (depth + 1) fields hfinite parts hparts)

theorem allAscii_writeFields (depth : Nat) : (fields : List (String × Json)) →
    (∀ x ∈ fieldNumbers fields, ∃ y, x = .finite y) →
    ∀ parts, writeFields depth fields = .ok parts → ∀ part ∈ parts, AllAscii part
  | [] => by
    intro _ parts h part hpart
    cases h
    cases hpart
  | (key, value) :: rest => by
    intro hfinite parts h
    rw [fieldNumbers, List.forall_mem_append] at hfinite
    obtain ⟨part, hpart, h⟩ := bind_eq_ok_iff.1 h
    obtain ⟨parts, hparts, h⟩ := bind_eq_ok_iff.1 h
    cases h
    have hvalue := allAscii_write depth value hfinite.1 part hpart
    have hcolon : AllAscii ": " := List.all_iff_forall_prop.1 (by decide)
    have hfield := (((allAscii_indentation depth).append (allAscii_stringText key)).append
      hcolon).append hvalue
    exact List.forall_mem_cons.2 ⟨hfield, allAscii_writeFields depth rest hfinite.2 parts hparts⟩

end

end Json

end BucketStats

import BucketStats.Text.Lines
import Mathlib.Tactic
/-!
# Texts put together and taken apart

Lines that were written one after the other are found again, whatever ends each of them, and so are
pieces between separators.  A text divides into its lines in one way.  A line feed divides any text:
the lines after it are those of the text after it.
-/

namespace BucketStats.Text

/-! ## Lines -/

inductive LineEnd where
  | feed
  | carriageReturn
  | pair

def LineEnd.text : LineEnd → List Char
  | .feed => ['\n']
  | .carriageReturn => ['\r']
  | .pair => ['\r', '\n']

/-- Whether a text can stand on a line of its own. -/
structure OnLine (s : List Char) : Prop where
  no_feed : '\n' ∉ s
  no_return : '\r' ∉ s

theorem OnLine.of_subset {s t : List Char} (hs : OnLine s) (hsubset : t ⊆ s) : OnLine t :=
  ⟨fun hmem ↦ hs.no_feed (hsubset hmem), fun hmem ↦ hs.no_return (hsubset hmem)⟩

/-- The texts that hold given lines.  Each line has an end of its own, which the last one may
lack. -/
inductive LaidOut : List (List Char) → List Char → Prop
  | nil : LaidOut [] []
  | last (line : List Char) : LaidOut [line] line
  | cons (line : List Char) (lineEnd : LineEnd) {more : List (List Char)} {s : List Char} :
    LaidOut more s → LaidOut (line :: more) (line ++ (lineEnd.text ++ s))

section Lines

variable {line s : List Char} {more : List (List Char)}

/-- A character that ends a line does so alone unless it is the first of a pair. -/
theorem lines_mark {c : Char} {s : List Char} (hc : c = '\n' ∨ c = '\r')
    (hpair : c = '\r' → s.head? ≠ some '\n') : lines (c :: s) = [] :: lines s := by
  have hmark : (c == '\n' || c == '\r') = true := by simpa using hc
  rw [lines, if_pos hmark]
  rintro rest rfl rfl
  exact hpair rfl rfl

theorem lines_cons {c : Char} {s line : List Char} {more : List (List Char)} (hfeed : c ≠ '\n')
    (hreturn : c ≠ '\r') (hs : lines s = line :: more) : lines (c :: s) = (c :: line) :: more := by
  have hmark : (c == '\n' || c == '\r') = false := by simp [hfeed, hreturn]
  rw [lines, hmark, hs]
  · rfl
  · rintro _ rfl
    exact absurd rfl hreturn

/-- What stands before the first line of a text belongs to that line. -/
theorem lines_append (hline : OnLine line) (hs : lines s = [] :: more) :
    lines (line ++ s) = line :: more := by
  induction line with
  | nil => exact hs
  | cons c rest ih =>
    obtain ⟨hfeed, hfeeds⟩ := List.ne_and_not_mem_of_not_mem_cons hline.no_feed
    obtain ⟨hreturn, hreturns⟩ := List.ne_and_not_mem_of_not_mem_cons hline.no_return
    exact lines_cons (Ne.symm hfeed) (Ne.symm hreturn) (ih ⟨hfeeds, hreturns⟩)

theorem lines_lineEnd (lineEnd : LineEnd)
    (hpair : lineEnd = .carriageReturn → s.head? ≠ some '\n') :
    lines (lineEnd.text ++ s) = [] :: lines s := by
  cases lineEnd with
  | feed => rfl
  | pair => rfl
  | carriageReturn => exact lines_mark (.inr rfl) fun _ ↦ hpair rfl

theorem head?_of_laidOut (hlaid : LaidOut more s)
    (hmore : ∀ line ∈ more, line ≠ [] ∧ OnLine line) : s.head? ≠ some '\n' := by
  have hfirst {line rest : List Char} (hline : line ≠ [] ∧ OnLine line) :
      (line ++ rest).head? ≠ some '\n' := by
    obtain ⟨c, cs, rfl⟩ := List.exists_cons_of_ne_nil hline.1
    intro hhead
    obtain rfl : c = '\n' := Option.some.inj hhead
    exact hline.2.no_feed List.mem_cons_self
  cases hlaid with
  | nil => simp
  | last line =>
    rw [← List.append_nil s]
    exact hfirst (hmore s List.mem_cons_self)
  | cons line lineEnd _ => exact hfirst (hmore line List.mem_cons_self)

/-- The lines of a text are those that it was made of, and an empty one after a last line end. -/
theorem lines_of_laidOut (hlaid : LaidOut more s)
    (hmore : ∀ line ∈ more, line ≠ [] ∧ OnLine line) :
    lines s = more ∨ lines s = more ++ [[]] := by
  induction hlaid with
  | nil => exact .inr rfl
  | last line =>
    have hline := lines_append (s := []) (hmore line List.mem_cons_self).2 rfl
    rw [List.append_nil] at hline
    exact .inl hline
  | cons line lineEnd hlaid ih =>
    obtain ⟨hline, hrest⟩ := List.forall_mem_cons.1 hmore
    rw [lines_append hline.2 (lines_lineEnd lineEnd fun _ ↦ head?_of_laidOut hlaid hrest)]
    rcases ih hrest with hs | hs
    · exact .inl (by rw [hs])
    · exact .inr (by rw [hs, List.cons_append])

/-- A line feed ends a line, and the lines after it do not depend on what stands before it.  After
a carriage return it belongs to the line end that is there. -/
theorem lines_append_feed (s t : List Char) :
    lines (s ++ '\n' :: t) = lines s ++ lines t ∨
      ∃ line more, lines s = line :: more ++ [[]] ∧
        lines (s ++ '\n' :: t) = line :: more ++ lines t := by
  fun_induction lines s with
  | case1 => exact .inl rfl
  | case2 rest ih =>
    have hpair (u : List Char) : lines ('\r' :: '\n' :: u) = [] :: lines u := rfl
    rw [List.cons_append, List.cons_append, hpair]
    rcases ih with ih | ⟨line, more, ih, ih'⟩
    · exact .inl (by rw [ih, List.cons_append])
    · exact .inr ⟨[], line :: more, by rw [ih]; rfl, by rw [ih']; rfl⟩
  | case3 c rest hpair hmark ih =>
    have hmark' : c = '\n' ∨ c = '\r' := by simpa using hmark
    by_cases hlast : c = '\r' ∧ rest = []
    · obtain ⟨rfl, rfl⟩ := hlast
      exact .inr ⟨[], [], rfl, rfl⟩
    · have hhead : c = '\r' → (rest ++ '\n' :: t).head? ≠ some '\n' := by
        rintro rfl hhead
        cases rest with
        | nil => exact hlast ⟨rfl, rfl⟩
        | cons d later => exact hpair later rfl (by rw [Option.some.inj hhead])
      rw [List.cons_append, lines_mark hmark' hhead]
      rcases ih with ih | ⟨line, more, ih, ih'⟩
      · exact .inl (by rw [ih, List.cons_append])
      · exact .inr ⟨[], line :: more, by rw [ih]; rfl, by rw [ih']; rfl⟩
  | case4 c rest hpair hmark hnil ih => exact absurd hnil (lines_ne_nil rest)
  | case5 c rest hpair hmark line more hrest ih =>
    simp only [Bool.or_eq_true, beq_iff_eq, not_or] at hmark
    rw [List.cons_append]
    rcases ih with ih | ⟨first, later, ih, ih'⟩
    · rw [hrest] at ih
      exact .inl (lines_cons hmark.1 hmark.2 ih)
    · rw [hrest] at ih
      cases ih
      exact .inr ⟨c :: line, later, rfl, lines_cons hmark.1 hmark.2 ih'⟩

end Lines

/-- How a text divides into its lines: each ends at the first line end after it, and the last one
with the text.  A carriage return before a line feed is no line end of its own. -/
inductive DividesInto : List Char → List (List Char) → Prop
  | last {line : List Char} (hline : OnLine line) : DividesInto line [line]
  | cons {line s : List Char} {more : List (List Char)} (hline : OnLine line) (lineEnd : LineEnd)
    (hpair : lineEnd = .carriageReturn → s.head? ≠ some '\n') (hs : DividesInto s more) :
    DividesInto (line ++ (lineEnd.text ++ s)) (line :: more)

section Division

variable {s line : List Char} {more : List (List Char)}

theorem DividesInto.prepend {c : Char} (hc : c ≠ '\n' ∧ c ≠ '\r')
    (hs : DividesInto s (line :: more)) : DividesInto (c :: s) ((c :: line) :: more) := by
  have hlong {line : List Char} (hline : OnLine line) : OnLine (c :: line) :=
    ⟨List.not_mem_cons_of_ne_of_not_mem hc.1.symm hline.no_feed,
      List.not_mem_cons_of_ne_of_not_mem hc.2.symm hline.no_return⟩
  cases hs with
  | last hline => exact .last (hlong hline)
  | cons hline lineEnd hpair hs => exact .cons (hlong hline) lineEnd hpair hs

theorem dividesInto_lines (s : List Char) : DividesInto s (lines s) := by
  have hempty : OnLine [] := ⟨List.not_mem_nil, List.not_mem_nil⟩
  fun_induction lines s with
  | case1 => exact .last hempty
  | case2 rest ih => exact .cons hempty .pair (by rintro ⟨⟩) ih
  | case3 c rest hpair hmark ih =>
    rw [Bool.or_eq_true, beq_iff_eq, beq_iff_eq] at hmark
    rcases hmark with rfl | rfl
    · exact .cons hempty .feed (by rintro ⟨⟩) ih
    · refine .cons hempty .carriageReturn (fun _ hhead ↦ ?_) ih
      obtain ⟨later, rfl⟩ := List.head?_eq_some_iff.1 hhead
      exact hpair later rfl rfl
  | case4 c rest _ _ hnil _ => exact absurd hnil (lines_ne_nil rest)
  | case5 c rest _ hmark line more hrest ih =>
    rw [hrest] at ih
    exact ih.prepend (by simpa using hmark)

/-- A text divides into its lines in one way. -/
theorem dividesInto_iff : DividesInto s more ↔ more = lines s := by
  constructor
  · intro hs
    induction hs with
    | @last line hline =>
      have hlines := lines_append (s := []) hline rfl
      rw [List.append_nil] at hlines
      exact hlines.symm
    | cons hline lineEnd hpair _ ih =>
      rw [lines_append hline (lines_lineEnd lineEnd hpair), ih]
  · rintro rfl
    exact dividesInto_lines s

end Division

/-! ## Pieces -/

section Pieces

variable {separator : Char} {before after piece : List Char}

theorem splitAtFirst_of_not_mem (h : separator ∉ before) :
    splitAtFirst separator before = none := by
  induction before with
  | nil => rfl
  | cons c rest ih =>
    obtain ⟨hc, hrest⟩ := List.ne_and_not_mem_of_not_mem_cons h
    rw [splitAtFirst, if_neg (by simpa using Ne.symm hc), ih hrest]
    rfl

theorem splitAtFirst_append (h : separator ∉ before) :
    splitAtFirst separator (before ++ separator :: after) = some (before, after) := by
  induction before with
  | nil => exact if_pos (beq_self_eq_true separator)
  | cons c rest ih =>
    obtain ⟨hc, hrest⟩ := List.ne_and_not_mem_of_not_mem_cons h
    rw [List.cons_append, splitAtFirst, if_neg (by simpa using Ne.symm hc), ih hrest]
    rfl

theorem splitOn_of_not_mem (h : separator ∉ piece) : splitOn separator piece = [piece] := by
  induction piece with
  | nil => rfl
  | cons c rest ih =>
    obtain ⟨hc, hrest⟩ := List.ne_and_not_mem_of_not_mem_cons h
    rw [splitOn, if_neg (by simpa using Ne.symm hc), ih hrest]

theorem splitOn_append (h : separator ∉ piece) :
    splitOn separator (piece ++ separator :: after) = piece :: splitOn separator after := by
  induction piece with
  | nil => exact if_pos (beq_self_eq_true separator)
  | cons c rest ih =>
    obtain ⟨hc, hrest⟩ := List.ne_and_not_mem_of_not_mem_cons h
    rw [List.cons_append, splitOn, if_neg (by simpa using Ne.symm hc), ih hrest]

theorem intercalate_cons_eq {margin : List Char} (pieces : List (List Char)) :
    margin.intercalate (piece :: pieces) = piece ++ pieces.flatMap (margin ++ ·) := by
  induction pieces generalizing piece with
  | nil => simp
  | cons next pieces ih =>
    rw [List.intercalate_cons_cons, ih, List.flatMap_cons, List.append_assoc, List.append_assoc]

theorem mem_intercalate {margin : List Char} {pieces : List (List Char)} {c : Char}
    (hc : c ∈ margin.intercalate pieces) : c ∈ margin ∨ ∃ piece ∈ pieces, c ∈ piece := by
  cases pieces with
  | nil => exact absurd hc List.not_mem_nil
  | cons piece pieces =>
    rw [intercalate_cons_eq, List.mem_append, List.mem_flatMap] at hc
    rcases hc with hc | ⟨next, hnext, hc⟩
    · exact .inr ⟨piece, List.mem_cons_self, hc⟩
    · rcases List.mem_append.1 hc with hc | hc
      · exact .inl hc
      · exact .inr ⟨next, List.mem_cons_of_mem piece hnext, hc⟩

/-- Pieces that were joined come apart again, each but the first with what follows a separator. -/
theorem splitOn_intercalate {margin : List Char} {pieces : List (List Char)}
    (hmargin : separator ∉ margin) (hpiece : separator ∉ piece)
    (hpieces : ∀ piece ∈ pieces, separator ∉ piece) :
    splitOn separator ((separator :: margin).intercalate (piece :: pieces)) =
      piece :: pieces.map (margin ++ ·) := by
  rw [intercalate_cons_eq]
  induction pieces generalizing piece with
  | nil => rw [List.flatMap_nil, List.append_nil, splitOn_of_not_mem hpiece, List.map_nil]
  | cons next pieces ih =>
    obtain ⟨hnext, hlater⟩ := List.forall_mem_cons.1 hpieces
    have hlong : separator ∉ margin ++ next := by
      rw [List.mem_append, not_or]
      exact ⟨hmargin, hnext⟩
    rw [List.flatMap_cons, List.cons_append, List.cons_append, splitOn_append hpiece,
      ih hlong hlater, List.map_cons]

end Pieces

end BucketStats.Text

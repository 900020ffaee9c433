import BucketStats.Proofs.Workbook.Buckets
import BucketStats.Proofs.Workbook.Summary
/-!
# Labels in the summary sheet

A run's row in the summary sheet begins with its label, which goes into its cell as any text does.  What
it is there is up to the library of spreadsheets, which keeps no more of a text than fits into a cell
and takes a text for a formula or an error value by its own characters.  So a label is found in its
cell as a plain text exactly if it is no longer than a cell, is no equals sign with something after it,
and is no error code.
-/

namespace BucketStats.Workbook

/-! ## Texts in cells -/

/-- Whether a text is written as a formula. -/
def IsFormula (s : String) : Prop :=
  1 < s.length ∧ s.toList.head? = some '='

/-- The part of a text that a cell of limited length keeps. -/
def kept (limit : Nat) (s : String) : String :=
  String.ofList (s.toList.take limit)

/-- Whether a text can stand in a cell in full and as nothing but a text. -/
structure IsPlain (limit : Nat) (codes : List String) (s : String) : Prop where
  length_le : s.length ≤ limit
  not_isFormula : ¬ IsFormula s
  not_errorCode : s ∉ codes

namespace Library

/-- Whether a library treats texts as it is documented to.  It keeps what fits into a cell, and it goes
by nothing but the characters of a text to take it for a formula or an error value. -/
structure ReadsTexts (library : Library) (limit : Nat) (codes : List String) : Prop where
  /-- A text that can stand in a cell stands there up to the greatest length. -/
  keeps : ∀ s cell, library.ofValue (.text s) = .ok cell → cell = .text (kept limit s)
  /-- An equals sign with something after it begins a formula. -/
  formula : ∀ s, IsFormula s → library.reading? (.text s) = some .formula
  /-- An error code is an error value. -/
  errorValue : ∀ s ∈ codes, library.reading? (.text s) = some .errorValue
  /-- Any other text is nothing but a text. -/
  plain : ∀ s, ¬ IsFormula s → s ∉ codes → library.reading? (.text s) = none

/-- Whether a cell holds a text in full and as nothing but a text. -/
structure HoldsPlainly (library : Library) (cell : Cell) (s : String) : Prop where
  eq_text : cell = .text s
  reading?_eq_none : library.reading? cell = none

end Library

section Texts

variable {library : Library} {limit : Nat} {codes : List String} {s : String} {cell : Cell}

theorem kept_eq_self_iff : kept limit s = s ↔ s.length ≤ limit := by
  unfold kept
  constructor
  · intro h
    rw [← h, String.length_ofList, List.length_take]
    exact min_le_left _ _
  · intro hlength
    rw [List.take_of_length_le hlength, String.ofList_toList]

theorem Library.ReadsTexts.reading?_eq_none_iff (hreads : library.ReadsTexts limit codes) :
    library.reading? (.text s) = none ↔ ¬ IsFormula s ∧ s ∉ codes := by
  constructor
  · intro hnone
    constructor
    · intro hformula
      rw [hreads.formula s hformula] at hnone
      cases hnone
    · intro hcode
      rw [hreads.errorValue s hcode] at hnone
      cases hnone
  · rintro ⟨hformula, hcode⟩
    exact hreads.plain s hformula hcode

/-- A text that can stand in a cell does so plainly if nothing of it is lost or misread. -/
theorem Library.ReadsTexts.holdsPlainly_iff (hreads : library.ReadsTexts limit codes)
    (hcell : library.ofValue (.text s) = .ok cell) :
    library.HoldsPlainly cell s ↔ IsPlain limit codes s := by
  obtain rfl := hreads.keeps s cell hcell
  constructor
  · rintro ⟨htext, hreading⟩
    have hkept : kept limit s = s := Cell.text.inj htext
    rw [hkept, hreads.reading?_eq_none_iff] at hreading
    exact ⟨kept_eq_self_iff.1 hkept, hreading.1, hreading.2⟩
  · rintro ⟨hlength, hformula, hcode⟩
    have hkept : kept limit s = s := kept_eq_self_iff.2 hlength
    rw [hkept]
    exact ⟨rfl, hreads.reading?_eq_none_iff.2 ⟨hformula, hcode⟩⟩

theorem isFormula_iff : (decide (1 < s.length) && s.toList.head? == some '=') = true ↔ IsFormula s := by
  simp [IsFormula]

/-- The standard library cuts texts after 32767 characters and knows seven error codes. -/
theorem readsTexts_standard : Library.standard.ReadsTexts 32767
    ["#NULL!", "#DIV/0!", "#VALUE!", "#REF!", "#NAME?", "#NUM!", "#N/A"] where
  keeps s cell h := by
    have hcell : Cell.ofText s = .ok cell := h
    unfold Cell.ofText at hcell
    exact (ite_error_eq_ok_iff.1 hcell).2
  formula s h := if_pos (isFormula_iff.2 h)
  errorValue := by
    decide
  plain s hformula hcode := by
    have hknown : ¬ Cell.errorCodes.contains s = true := by
      rwa [List.contains_iff_mem]
    exact (if_neg (mt isFormula_iff.1 hformula)).trans (if_neg hknown)

end Texts

/-! ## Labels in workbooks -/

section Labels

variable {library : Library} {limit : Nat} {codes : List String} {refusal : Option Fault}
  {items : List Value} {quantiles precision : Value} {path : String} {summaries : List Summary}
  {book : Workbook}

/-- The first cell of a run's row is what the library makes of the run's label. -/
theorem exists_label_cells
    (hwrite : (library.write refusal (.list items) quantiles precision path).result =
      .ok (summaries, book)) :
    ∃ runs sheet others, items.mapM Run.ofValue = .ok runs ∧ book.sheets = sheet :: others ∧
      sheet.title = "Summary" ∧
      ∀ k run, runs[k]? = some run →
        ∃ cell, sheet.cell? (k + 1) 0 = some cell ∧ library.ofValue run.label = .ok cell := by
  obtain ⟨levels, found, labels, sheet, others, _, hfound, rfl, _, hsheet, _, rfl⟩ :=
    exists_sheets_of_write hwrite
  obtain ⟨hruns, hsummaries⟩ := runs_of_summarizeRuns hfound
  obtain ⟨htitle, _, hrows⟩ := rows_of_summarySheet hsheet
  rw [List.forall₂_map_left_iff] at hrows
  refine ⟨_, sheet, others, hruns, rfl, htitle, ?_⟩
  intro k run hrun
  rw [List.getElem?_map, Option.map_eq_some_iff] at hrun
  obtain ⟨entry, hentry, rfl⟩ := hrun
  obtain ⟨row, hrow, hcells⟩ := exists_getElem?_of_forall₂ hrows hentry
  have hsummary := hsummaries entry (List.mem_of_getElem? hentry)
  obtain ⟨label, _, hlabel, _, _, rest, rfl⟩ := isSummaryRow_of_summaryRow hsummary hcells
  refine ⟨label, ?_, hlabel⟩
  rw [Sheet.cell?, Sheet.cells, List.getElem?_cons_succ, hrow]
  rfl

/-- In a workbook that is saved, the label of a run stands at the beginning of its row, cut to the
length of a cell.  It stands there in full and as a plain text exactly if it can stand in a cell so.
This is so with every library that treats texts as documented, whatever the greatest length and the
error codes are. -/
theorem label_holdsPlainly_iff (hreads : library.ReadsTexts limit codes)
    (hwrite : (library.write refusal (.list items) quantiles precision path).result =
      .ok (summaries, book)) :
    ∃ runs sheet others, items.mapM Run.ofValue = .ok runs ∧ book.sheets = sheet :: others ∧
      sheet.title = "Summary" ∧
      ∀ k run label, runs[k]? = some run → run.label = .text label →
        ∃ cell, sheet.cell? (k + 1) 0 = some cell ∧ cell = .text (kept limit label) ∧
          (library.HoldsPlainly cell label ↔ IsPlain limit codes label) := by
  obtain ⟨runs, sheet, others, hruns, hsheets, htitle, hcells⟩ := exists_label_cells hwrite
  refine ⟨runs, sheet, others, hruns, hsheets, htitle, ?_⟩
  intro k run label hrun hlabel
  obtain ⟨cell, hcell, htext⟩ := hcells k run hrun
  rw [hlabel] at htext
  exact ⟨cell, hcell, hreads.keeps label cell htext, hreads.holdsPlainly_iff htext⟩

/-- An equals sign alone or within a label is a character like any other. -/
theorem label_holdsPlainly_of_equals_signs :
    let runs : List Run := [⟨.text "=", [2, 1]⟩, ⟨.text "a=1", [0, 3]⟩]
    ∃ saved, (write none (.list (runs.map Run.toValue)) (.list []) (.int 4) "out.xlsx").result =
        .ok saved ∧
      ∃ sheet others first second, saved.2.sheets = sheet :: others ∧
        sheet.cell? 1 0 = some first ∧ Library.standard.HoldsPlainly first "=" ∧
        sheet.cell? 2 0 = some second ∧ Library.standard.HoldsPlainly second "a=1" := by
  intro runs
  obtain ⟨saved, hsaved⟩ : ∃ saved, (write none (.list (runs.map Run.toValue)) (.list []) (.int 4)
      "out.xlsx").result = .ok saved := exists_of_isOk (by decide +kernel)
  obtain ⟨runs', sheet, others, hruns', hsheets, _, hlabels⟩ :=
    label_holdsPlainly_iff readsTexts_standard hsaved
  obtain rfl : runs = runs' := Except.ok.inj ((Run.mapM_ofValue_toValue runs).symm.trans hruns')
  obtain ⟨first, hfirst, _, hplain⟩ := hlabels 0 _ "=" rfl rfl
  obtain ⟨second, hsecond, _, hplain'⟩ := hlabels 1 _ "a=1" rfl rfl
  have hequals : IsPlain 32767 Cell.errorCodes "=" :=
    ⟨by decide, fun h ↦ absurd h.1 (by decide), by decide⟩
  have hassigned : IsPlain 32767 Cell.errorCodes "a=1" :=
    ⟨by decide, fun h ↦ absurd h.2 (by decide), by decide⟩
  exact ⟨saved, hsaved, sheet, others, first, second, hsheets, hfirst, hplain.2 hequals, hsecond,
    hplain'.2 hassigned⟩

/-- A label that begins with an equals sign is saved as a formula and an error code as an error value,
whichever library saves them, and the standard library does save them. -/
theorem labels_saved_as_formula_and_error :
    let runs : List Run := [⟨.text "=1+1", [0, 1]⟩, ⟨.text "#N/A", [0, 1]⟩]
    let written (library : Library) :=
      library.write none (.list (runs.map Run.toValue)) (.list []) (.int 4) "out.xlsx"
    (∃ limit codes, Library.standard.ReadsTexts limit codes ∧ 4 ≤ limit ∧ "#N/A" ∈ codes ∧
      (written .standard).result.isOk = true) ∧
    ∀ (library : Library) limit codes saved, library.ReadsTexts limit codes → 4 ≤ limit →
      "#N/A" ∈ codes → (written library).result = .ok saved →
      ∃ sheet others first second, saved.2.sheets = sheet :: others ∧
        sheet.cell? 1 0 = some first ∧ library.reading? first = some .formula ∧
        sheet.cell? 2 0 = some second ∧ library.reading? second = some .errorValue := by
  intro runs written
  refine ⟨⟨32767, _, readsTexts_standard, by decide, by decide, by decide +kernel⟩, ?_⟩
  intro library limit codes saved hreads hlimit hcode hsaved
  obtain ⟨runs', sheet, others, hruns', hsheets, _, hcells⟩ := exists_label_cells hsaved
  obtain rfl : runs = runs' := Except.ok.inj ((Run.mapM_ofValue_toValue runs).symm.trans hruns')
  obtain ⟨first, hfirst, hformula⟩ := hcells 0 _ rfl
  obtain ⟨second, hsecond, herror⟩ := hcells 1 _ rfl
  have hkept : kept limit "=1+1" = "=1+1" := kept_eq_self_iff.2 hlimit
  have hkept' : kept limit "#N/A" = "#N/A" := kept_eq_self_iff.2 hlimit
  refine ⟨sheet, others, first, second, hsheets, hfirst, ?_, hsecond, ?_⟩
  · rw [hreads.keeps "=1+1" first hformula, hkept]
    exact hreads.formula "=1+1" ⟨by decide, by decide⟩
  · rw [hreads.keeps "#N/A" second herror, hkept']
    exact hreads.errorValue "#N/A" hcode

end Labels

end BucketStats.Workbook

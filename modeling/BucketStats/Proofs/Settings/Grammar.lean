import BucketStats.Proofs.Settings.Locality
import BucketStats.Proofs.Text.Pattern
import BucketStats.Proofs.Text.Trimmed
import Mathlib.Tactic
/-!
# The grammar of settings files

A line says nothing if it is empty, a comment, or has no text before an equals sign.  Any other line
assigns to the text before its first equals sign the text after it, both trimmed.  The settings of a
text are what its lines assign one after the other.

The same entries are found by a pattern: a key that is as short as possible and holds no equals
sign, blanks, an equals sign, blanks, and the rest of the line.  A line can match it in several ways,
as the blanks may belong to the key or to the value, but these disappear when both are trimmed.
-/

namespace BucketStats.Settings

open Text

/-! ## Lines -/

/-- Whether a line says nothing. -/
inductive IsSkipped : List Char → Prop
  | empty : IsSkipped []
  | comment {blanks : List Char} (hblanks : ∀ c ∈ blanks, isBlank c = true) (rest : List Char) :
    IsSkipped (blanks ++ '#' :: rest)
  | unassigned {line : List Char} (hline : '=' ∉ line) : IsSkipped line
  | keyless (rest : List Char) : IsSkipped ('=' :: rest)

/-- What a line with an equals sign assigns, and to which key. -/
inductive Assigns : List Char → String → String → Prop
  | intro {before after : List Char} {key value : String} (hbefore : '=' ∉ before)
    (hkey : TrimsTo before key.toList) (hvalue : TrimsTo after value.toList) :
    Assigns (before ++ '=' :: after) key value

section Lines

variable {line : List Char} {key value : String}

theorem isComment_iff : isComment line = true ↔
    ∃ blanks rest, (∀ c ∈ blanks, isBlank c = true) ∧ line = blanks ++ '#' :: rest := by
  rw [isComment, beq_iff_eq, List.head?_eq_some_iff]
  constructor
  · rintro ⟨rest, hrest⟩
    refine ⟨line.takeWhile isBlank, rest, List.all_eq_true.1 List.all_takeWhile, ?_⟩
    rw [← hrest, List.takeWhile_append_dropWhile]
  · rintro ⟨blanks, rest, hblanks, rfl⟩
    refine ⟨rest, ?_⟩
    rw [List.dropWhile_append_of_pos hblanks, List.dropWhile_cons_of_neg (by decide)]

theorem entryOf_of_isSkipped (h : IsSkipped line) : entryOf line = none := by
  unfold entryOf
  split_ifs with hcomment
  · rfl
  · cases h with
    | empty => rfl
    | comment hblanks rest => exact absurd (isComment_iff.2 ⟨_, rest, hblanks, rfl⟩) hcomment
    | unassigned hline => rw [splitAtFirst_of_not_mem hline]
    | keyless rest => rfl

theorem exists_assigns (h : ¬ IsSkipped line) : ∃ key value, Assigns line key value := by
  cases hsplit : splitAtFirst '=' line with
  | none =>
    refine absurd (IsSkipped.unassigned fun hmem ↦ ?_) h
    obtain ⟨before, after, rfl, hbefore⟩ := List.eq_append_cons_of_mem hmem
    rw [splitAtFirst_append hbefore] at hsplit
    cases hsplit
  | some divided =>
    obtain ⟨rfl, hbefore⟩ := splitAtFirst_eq_some hsplit
    have htrims (s : List Char) : TrimsTo s (String.ofList (trim s)).toList :=
      trimsTo_iff.2 String.toList_ofList.symm
    exact ⟨_, _, .intro hbefore (htrims divided.1) (htrims divided.2)⟩

/-- The entry of a line is what the line assigns. -/
theorem entryOf_of_assigns (h : ¬ IsSkipped line) (hassigns : Assigns line key value) :
    entryOf line = some (key, value) := by
  cases hassigns with
  | @intro before after key value hbefore hkey hvalue =>
    have hcomment : ¬ isComment (before ++ '=' :: after) = true := by
      intro hcomment
      obtain ⟨blanks, rest, hblanks, hline⟩ := isComment_iff.1 hcomment
      rw [hline] at h
      exact h (.comment hblanks rest)
    have hempty : ¬ before.isEmpty = true := by
      intro hempty
      rw [List.isEmpty_iff.1 hempty] at h
      exact h (.keyless after)
    rw [entryOf, if_neg hcomment, splitAtFirst_append hbefore]
    simp only [if_neg hempty, trimsTo_iff.1 hkey, trimsTo_iff.1 hvalue, String.ofList_toList]

/-- A line makes an entry if it has a text, an equals sign after it, and is no comment. -/
theorem exists_of_entryOf {e : String × String} (h : entryOf line = some e) : ∃ before after,
    isComment line = false ∧ before ≠ [] ∧ '=' ∉ before ∧ line = before ++ '=' :: after ∧
      e = (String.ofList (trim before), String.ofList (trim after)) := by
  unfold entryOf at h
  split_ifs at h with hcomment
  split at h
  · next before after hsplit =>
    obtain ⟨hline, hbefore⟩ := splitAtFirst_eq_some hsplit
    split_ifs at h with hempty
    exact ⟨before, after, eq_false_of_ne_true hcomment, fun hnil ↦ hempty (by rw [hnil]; rfl),
      hbefore, hline, (Option.some.inj h).symm⟩
  · cases h

end Lines

/-! ## Lines one after the other -/

/-- How lines change settings, the first line first. -/
inductive Reads : Settings → List (List Char) → Settings → Prop
  | nil (settings : Settings) : Reads settings [] settings
  | skip {settings result : Settings} {line : List Char} {more : List (List Char)}
    (hline : IsSkipped line) (hmore : Reads settings more result) :
    Reads settings (line :: more) result
  | assign {settings next result : Settings} {line : List Char} {more : List (List Char)}
    {key value : String} (hline : ¬ IsSkipped line) (hassigns : Assigns line key value)
    (hputs : Entries.Puts key value settings next) (hmore : Reads next more result) :
    Reads settings (line :: more) result

/-- Lines change settings in one way: the entries that they make are put one after the other. -/
theorem reads_iff {settings result : Settings} {more : List (List Char)} :
    Reads settings more result ↔ result = settings.putAll (more.filterMap entryOf) := by
  constructor
  · intro h
    induction h with
    | nil settings => rfl
    | skip hline _ ih => rw [ih, List.filterMap_cons_none (entryOf_of_isSkipped hline)]
    | assign hline hassigns hputs _ ih =>
      rw [ih, List.filterMap_cons_some (entryOf_of_assigns hline hassigns),
        Entries.puts_iff.1 hputs]
      rfl
  · rintro rfl
    induction more generalizing settings with
    | nil => exact .nil settings
    | cons line more ih =>
      by_cases hline : IsSkipped line
      · rw [List.filterMap_cons_none (entryOf_of_isSkipped hline)]
        exact .skip hline ih
      · obtain ⟨key, value, hassigns⟩ := exists_assigns hline
        rw [List.filterMap_cons_some (entryOf_of_assigns hline hassigns)]
        exact .assign hline hassigns (Entries.puts_iff.2 rfl) ih

/-! ## Lines matched with a pattern -/

def linePattern : Pattern :=
  [.fewest (· != '=') 1, .most isBlank, .mark '=', .most isBlank, .most (· != '\n')]

/-- The entry of the first match of a line, if any. -/
def matchedEntry (line : List Char) : Option (String × String) :=
  if isComment line then none
  else
    match linePattern.firstMatch line with
    | some [key, _, _, _, value] => some (String.ofList (trim key), String.ofList (trim value))
    | _ => none

section Matches

variable {line before after : List Char} {pieces : List (List Char)}

/-- What the pieces of a matched line are. -/
theorem exists_of_match (h : List.Forall₂ Pattern.Part.Allows linePattern pieces) :
    ∃ key blanks blanks' value, pieces = [key, blanks, ['='], blanks', value] ∧ key ≠ [] ∧
      '=' ∉ key ∧ (∀ c ∈ blanks, isBlank c = true) ∧ ∀ c ∈ blanks', isBlank c = true := by
  rcases h with _ | ⟨⟨hkey, hlength⟩, _ | ⟨hblanks, _ | ⟨rfl, _ | ⟨hblanks', _ | ⟨-, ⟨⟩⟩⟩⟩⟩⟩
  refine ⟨_, _, _, _, rfl, List.length_pos_iff.1 hlength, fun hmem ↦ ?_, hblanks, hblanks'⟩
  exact absurd (hkey '=' hmem) (by decide)

/-- A line with a text before its first equals sign can be matched. -/
theorem match_of_append (hne : before ≠ []) (hbefore : '=' ∉ before) (hafter : '\n' ∉ after) :
    List.Forall₂ Pattern.Part.Allows linePattern [before, [], ['='], [], after] := by
  have hsign : ∀ c ∈ before, (c != '=') = true :=
    fun c hc ↦ bne_iff_ne.2 fun heq ↦ hbefore (heq ▸ hc)
  have hfeed : ∀ c ∈ after, (c != '\n') = true :=
    fun c hc ↦ bne_iff_ne.2 fun heq ↦ hafter (heq ▸ hc)
  have hblanks : ∀ c ∈ ([] : List Char), isBlank c = true :=
    fun c hc ↦ absurd hc List.not_mem_nil
  exact .cons ⟨hsign, List.length_pos_iff.2 hne⟩ (.cons hblanks (.cons rfl (.cons hblanks
    (.cons hfeed .nil))))

/-- The first match of a line gives the entry that its first equals sign does. -/
theorem matchedEntry_eq (hline : '\n' ∉ line) : matchedEntry line = entryOf line := by
  unfold matchedEntry
  split_ifs with hcomment
  · rw [entryOf, if_pos hcomment]
  · cases hmatch : linePattern.firstMatch line with
    | none =>
      symm
      rw [Option.eq_none_iff_forall_ne_some]
      intro e he
      obtain ⟨before, after, -, hne, hbefore, rfl, -⟩ := exists_of_entryOf he
      -- such a line can be matched, with all its blanks left to the key and the value
      have hafter : '\n' ∉ after := fun hmem ↦
        hline (List.mem_append_right _ (List.mem_cons_of_mem _ hmem))
      refine Pattern.firstMatch_eq_none_iff.1 hmatch _ ?_ (match_of_append hne hbefore hafter)
      simp
    | some pieces =>
      obtain ⟨hpieces, hparts⟩ := Pattern.exists_of_firstMatch hmatch
      obtain ⟨key, blanks, blanks', value, rfl, hne, hkey, hblanks, hblanks'⟩ :=
        exists_of_match hparts
      -- whichever match comes first, its equals sign is the first one of the line
      have hdivided : line = (key ++ blanks) ++ '=' :: (blanks' ++ value) := by
        rw [hpieces]
        simp
      have hsign : '=' ∉ key ++ blanks := by
        rw [List.mem_append, not_or]
        exact ⟨hkey, fun hmem ↦ absurd (hblanks '=' hmem) (by decide)⟩
      have hempty : ¬ (key ++ blanks).isEmpty = true := by
        rw [List.isEmpty_iff, List.append_eq_nil_iff]
        exact fun hnil ↦ hne hnil.1
      have hbefore : trim (key ++ blanks) = trim key := trimBy_append_right key hblanks
      have hafter : trim (blanks' ++ value) = trim value := trimBy_append_left hblanks' value
      rw [entryOf, if_neg hcomment, hdivided, splitAtFirst_append hsign]
      simp only [if_neg hempty, hbefore, hafter]

/-- A blank key is a key, and the value may begin with an equals sign. -/
example : matchedEntry [' ', '=', '=', ' '] = some ("", "=") := by decide +kernel

end Matches

/-! ## The grammar -/

/-- Whether an entry has a key and a value that a line can give. -/
structure IsTidy (e : String × String) : Prop where
  no_sign : '=' ∉ e.1.toList
  no_comment : e.1.toList.head? ≠ some '#'
  key_trimmed : IsTrimmed e.1.toList
  value_trimmed : IsTrimmed e.2.toList

theorem isTidy_of_entryOf {line : List Char} {e : String × String} (h : entryOf line = some e) :
    IsTidy e := by
  obtain ⟨before, after, hcomment, -, hbefore, rfl, rfl⟩ := exists_of_entryOf h
  constructor
  · rw [String.toList_ofList]
    exact fun hmem ↦ hbefore (mem_of_mem_trimBy hmem)
  · rw [String.toList_ofList]
    intro hhead
    -- the blanks in front of the key do not hide a comment
    obtain ⟨blanks, blanks', hblanks, -, htrim⟩ := exists_eq_append_trimBy isBlank before
    obtain ⟨rest, hrest⟩ := List.head?_eq_some_iff.1 hhead
    have hmark : isComment (before ++ '=' :: after) = true := by
      refine isComment_iff.2 ⟨blanks, rest ++ blanks' ++ '=' :: after, hblanks, ?_⟩
      rw [htrim, ← trim, hrest]
      simp
    rw [hcomment] at hmark
    cases hmark
  · rw [String.toList_ofList]
    exact isTrimmed_trim before
  · rw [String.toList_ofList]
    exact isTrimmed_trim _

theorem isTidy_of_mem_ofText {s : List Char} {e : String × String} (he : e ∈ ofText s) :
    IsTidy e := by
  obtain ⟨line, -, hline⟩ := List.mem_filterMap.1 (Entries.mem_of_mem_ofList he)
  exact isTidy_of_entryOf hline

/-- The settings of a text are what the grammar gives it: the text divides into lines in one way,
the lines assign in one way, and matching each line with the pattern finds the same.  No key holds
an equals sign or begins as a comment does, and no blanks stand around keys and values. -/
theorem settings_by_grammar (text : String) : ∃ ls,
    (∀ more, DividesInto text.toList more ↔ more = ls) ∧
      (∀ result, Reads [] ls result ↔ result = ofBytes text.toUTF8.data.toList) ∧
      ofBytes text.toUTF8.data.toList = Entries.ofList (ls.filterMap matchedEntry) ∧
      ∀ e ∈ ofBytes text.toUTF8.data.toList, IsTidy e := by
  rw [ofBytes, decodeUtf8_toUTF8]
  refine ⟨lines text.toList, fun _ ↦ dividesInto_iff, fun _ ↦ reads_iff, ?_,
    fun _ ↦ isTidy_of_mem_ofText⟩
  rw [ofText, List.filterMap_congr fun line hline ↦
    matchedEntry_eq (not_mem_of_mem_lines hline).1]

end BucketStats.Settings

/-!
# Lines

A line ends at a line feed, a carriage return, or the pair of the two; no other character ends one.
-/

namespace BucketStats.Text

/-- The lines of a text.  A text that ends with a line end has an empty last line. -/
def lines : List Char → List (List Char)
  | [] => [[]]
  | '\r' :: '\n' :: rest => [] :: lines rest
  | c :: rest =>
    if c == '\n' || c == '\r' then [] :: lines rest
    else
      match lines rest with
      | [] => [[c]]
      | line :: more => (c :: line) :: more

/-- The pieces between the occurrences of a separator. -/
def splitOn (separator : Char) : List Char → List (List Char)
  | [] => [[]]
  | c :: rest =>
    if c == separator then [] :: splitOn separator rest
    else
      match splitOn separator rest with
      | [] => [[c]]
      | piece :: more => (c :: piece) :: more

/-- The text before and after the first occurrence of a separator. -/
def splitAtFirst (separator : Char) : List Char → Option (List Char × List Char)
  | [] => none
  | c :: rest =>
    if c == separator then some ([], rest)
    else (splitAtFirst separator rest).map fun (before, after) ↦ (c :: before, after)

theorem lines_ne_nil (s : List Char) : lines s ≠ [] := by
  fun_cases lines s <;> simp_all

/-- No line holds a line end. -/
theorem not_mem_of_mem_lines {s line : List Char} (hline : line ∈ lines s) :
    '\n' ∉ line ∧ '\r' ∉ line := by
  fun_induction lines s generalizing line with
  | case1 => simp_all
  | case2 rest ih => grind
  | case3 c rest _ hc ih => grind
  | case4 c rest _ hc hlines ih => grind
  | case5 c rest _ hc first more hlines ih => grind

theorem splitAtFirst_eq_some {separator : Char} {s before after : List Char}
    (h : splitAtFirst separator s = some (before, after)) :
    s = before ++ separator :: after ∧ separator ∉ before := by
  induction s generalizing before with
  | nil => simp [splitAtFirst] at h
  | cons c rest ih =>
    by_cases hc : c = separator
    · subst hc
      simp only [splitAtFirst, beq_self_eq_true, if_true, Option.some.injEq, Prod.mk.injEq] at h
      obtain ⟨rfl, rfl⟩ := h
      simp
    · simp only [splitAtFirst, beq_eq_false_iff_ne.2 hc, Bool.false_eq_true, if_false,
        Option.map_eq_some_iff, Prod.mk.injEq, Prod.exists] at h
      obtain ⟨first, second, hfound, rfl, rfl⟩ := h
      obtain ⟨rfl, habsent⟩ := ih hfound
      exact ⟨rfl, by simp [habsent, Ne.symm hc]⟩

end BucketStats.Text

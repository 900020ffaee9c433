import Mathlib.Data.List.Forall2
import Mathlib.Tactic.Common
/-!
# Patterns

A pattern is a row of parts that is matched with a whole text from left to right.  Each part takes a
beginning of what is left of the text, and tries the next one if the parts after it fail with what it
leaves.  Some parts try short beginnings first and some try long ones first, which decides about the
match that is found.  Whether there is one does not depend on that: the matches, in whatever order
they are tried, are the divisions of the text into pieces that the parts allow.
-/

namespace BucketStats.Text

/-- A part of a pattern: one given character, or characters of a class, as few as possible but so many
at least, or as many as possible. -/
inductive Pattern.Part where
  | mark (c : Char)
  | fewest (p : Char → Bool) (least : Nat)
  | most (p : Char → Bool)

abbrev Pattern := List Pattern.Part

/-- The divisions of a text in two, the shortest beginning first. -/
def divisions (s : List Char) : List (List Char × List Char) :=
  (List.range (s.length + 1)).map s.splitAt

namespace Pattern

namespace Part

/-- What a part can take. -/
def Allows : Part → List Char → Prop
  | .mark c, piece => piece = [c]
  | .fewest p least, piece => (∀ c ∈ piece, p c = true) ∧ least ≤ piece.length
  | .most p, piece => ∀ c ∈ piece, p c = true

instance (part : Part) (piece : List Char) : Decidable (part.Allows piece) :=
  match part with
  | .mark c => inferInstanceAs (Decidable (piece = [c]))
  | .fewest p least => decidable_of_iff (piece.all p = true ∧ least ≤ piece.length)
      (and_congr_left' List.all_eq_true)
  | .most p => decidable_of_iff (piece.all p = true) List.all_eq_true

/-- What a part takes and leaves of a text, in the order in which it tries. -/
def tries (part : Part) (s : List Char) : List (List Char × List Char) :=
  let allowed := (divisions s).filter fun d ↦ part.Allows d.1
  match part with
  | .most _ => allowed.reverse
  | _ => allowed

end Part

/-- The pieces that the parts of a pattern take of a whole text, in the order in which they are
tried. -/
def allMatches : Pattern → List Char → List (List (List Char))
  | [], s => if s.isEmpty then [[]] else []
  | part :: parts, s => (part.tries s).flatMap fun d ↦ (allMatches parts d.2).map (d.1 :: ·)

def firstMatch (pattern : Pattern) (s : List Char) : Option (List (List Char)) :=
  (pattern.allMatches s).head?

section Matches

variable {part : Part} {pattern : Pattern} {s piece left : List Char} {pieces : List (List Char)}

theorem mem_divisions_iff : (piece, left) ∈ divisions s ↔ s = piece ++ left := by
  rw [divisions, List.mem_map]
  constructor
  · rintro ⟨n, -, hn⟩
    rw [List.splitAt_eq, Prod.mk.injEq] at hn
    rw [← hn.1, ← hn.2, List.take_append_drop]
  · rintro rfl
    refine ⟨piece.length, ?_, by rw [List.splitAt_eq, List.take_left, List.drop_left]⟩
    rw [List.mem_range, List.length_append]
    omega

theorem mem_tries_iff : (piece, left) ∈ part.tries s ↔ s = piece ++ left ∧ part.Allows piece := by
  have hallowed : (piece, left) ∈ (divisions s).filter (fun d ↦ part.Allows d.1) ↔
      s = piece ++ left ∧ part.Allows piece := by
    rw [List.mem_filter, mem_divisions_iff, decide_eq_true_iff]
  rw [← hallowed]
  cases part with
  | mark c => rfl
  | fewest p least => rfl
  | most p => exact List.mem_reverse

/-- A match is a division of the text into pieces that the parts allow. -/
theorem mem_allMatches_iff : pieces ∈ pattern.allMatches s ↔
    s = pieces.flatten ∧ List.Forall₂ Part.Allows pattern pieces := by
  induction pattern generalizing s pieces with
  | nil =>
    rw [allMatches, List.forall₂_nil_left_iff]
    split_ifs with hs
    · rw [List.mem_singleton, List.isEmpty_iff.1 hs]
      constructor
      · rintro rfl
        exact ⟨rfl, rfl⟩
      · exact fun h ↦ h.2
    · constructor
      · exact fun h ↦ absurd h List.not_mem_nil
      · rintro ⟨rfl, rfl⟩
        exact absurd rfl hs
  | cons part parts ih =>
    rw [allMatches, List.mem_flatMap]
    constructor
    · rintro ⟨⟨piece, left⟩, hpiece, hpieces⟩
      obtain ⟨later, hlater, rfl⟩ := List.mem_map.1 hpieces
      obtain ⟨rfl, hallowed⟩ := mem_tries_iff.1 hpiece
      obtain ⟨rfl, hparts⟩ := ih.1 hlater
      exact ⟨rfl, .cons hallowed hparts⟩
    · rintro ⟨rfl, hparts⟩
      cases hparts with
      | @cons _ piece _ later hallowed hlater =>
        exact ⟨(piece, later.flatten), mem_tries_iff.2 ⟨rfl, hallowed⟩,
          List.mem_map.2 ⟨later, ih.2 ⟨rfl, hlater⟩, rfl⟩⟩

theorem firstMatch_eq_none_iff : pattern.firstMatch s = none ↔
    ∀ pieces, s = pieces.flatten → ¬ List.Forall₂ Part.Allows pattern pieces := by
  rw [firstMatch, List.head?_eq_none_iff, List.eq_nil_iff_forall_not_mem]
  exact forall_congr' fun pieces ↦ by rw [mem_allMatches_iff, not_and]

theorem exists_of_firstMatch (h : pattern.firstMatch s = some pieces) :
    s = pieces.flatten ∧ List.Forall₂ Part.Allows pattern pieces :=
  mem_allMatches_iff.1 (List.mem_of_head? h)

end Matches

/-- Of the digits before a point, the shortest row that can be matched is taken. -/
example : firstMatch [.fewest Char.isDigit 1, .most Char.isDigit, .mark '.'] ['1', '2', '3', '.'] =
    some [['1'], ['2', '3'], ['.']] := by
  decide

end Pattern

end BucketStats.Text

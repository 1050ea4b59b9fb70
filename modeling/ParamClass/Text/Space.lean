/-!
# Spaces between tokens

Markup and JSON separate their tokens by the same four characters: space, tab, LF and CR. These are
fewer than the blank characters, which a text in any script may have between its words.
-/

namespace ParamClass.Text

/-- A space between tokens. -/
def isSpace (c : Char) : Bool :=
  c == ' ' || c == '\t' || c == '\r' || c == '\n'

/-- The text after its leading spaces. -/
def skipSpace (s : List Char) : List Char := s.dropWhile isSpace

/-- The text starts with a space. -/
def startsWithSpace (s : List Char) : Bool := s.head?.any isSpace

/-- Skipping spaces makes no text longer. -/
theorem skipSpace_length (s : List Char) : (skipSpace s).length ≤ s.length :=
  (List.dropWhile_suffix _).length_le

/-- There is a space to skip exactly when the text starts with one. -/
theorem skipSpace_eq_self_iff {s : List Char} : skipSpace s = s ↔ startsWithSpace s = false := by
  cases s with
  | nil => simp [skipSpace, startsWithSpace]
  | cons c s =>
    by_cases h : isSpace c = true
    · have hlen := skipSpace_length s
      simp only [startsWithSpace, List.head?_cons, Option.any_some, h, Bool.true_eq_false, iff_false]
      intro heq
      rw [skipSpace, List.dropWhile_cons_of_pos h] at heq
      rw [skipSpace, heq, List.length_cons] at hlen
      omega
    · simp [skipSpace, startsWithSpace, h]

end ParamClass.Text

/-!
# Marks in a text

Markup is told apart by the fixed marks that begin and end it. `after?` removes a mark that a text
starts with, and `cut?` splits a text at the first place where a mark stands. Both are read
backwards by putting the mark back: `after?_eq_some` and `cut?_eq_some`.
-/

namespace ParamClass.Text

/-- The text after `mark`, if the text starts with it. -/
def after? : List Char → List Char → Option (List Char)
  | [], s => some s
  | _ :: _, [] => none
  | m :: mark, c :: s => if m = c then after? mark s else none

/-- A text starts with a mark exactly when it is the mark and what follows it. -/
theorem after?_eq_some {mark s rest : List Char} : after? mark s = some rest ↔ s = mark ++ rest := by
  induction mark generalizing s with
  | nil => simp [after?]
  | cons m mark ih =>
    cases s with
    | nil => simp [after?]
    | cons c s =>
      by_cases h : m = c
      · simp [after?, h, ih]
      · simp [after?, h, Ne.symm h]

/-- What follows a mark is shorter by the mark. -/
theorem after?_length {mark s rest : List Char} (h : after? mark s = some rest) :
    s.length = mark.length + rest.length := by
  rw [after?_eq_some.1 h, List.length_append]

/-- Splits a text at the first place where `mark` stands, into the part before the mark and the
part after it. -/
def cut? (mark : List Char) : List Char → Option (List Char × List Char)
  | [] => (after? mark []).map fun rest => ([], rest)
  | c :: s =>
    match after? mark (c :: s) with
    | some rest => some ([], rest)
    | none => (cut? mark s).map fun (before, rest) => (c :: before, rest)

/-- The parts of a cut, with the mark between them, are the text. -/
theorem cut?_eq_some {mark s before rest : List Char} (h : cut? mark s = some (before, rest)) :
    s = before ++ mark ++ rest := by
  induction s generalizing before with
  | nil =>
    obtain ⟨r, hr, heq⟩ := Option.map_eq_some_iff.1 h
    cases heq
    exact after?_eq_some.1 hr
  | cons c s ih =>
    simp only [cut?] at h
    split at h
    · next r hr => cases h; exact after?_eq_some.1 hr
    · obtain ⟨⟨b, r⟩, hc, heq⟩ := Option.map_eq_some_iff.1 h
      cases heq
      simp [ih hc]

/-- The part after a mark is shorter by at least the mark. -/
theorem cut?_length {mark s before rest : List Char} (h : cut? mark s = some (before, rest)) :
    mark.length + rest.length ≤ s.length := by
  rw [cut?_eq_some h]
  simp only [List.length_append]
  omega

end ParamClass.Text

import Mathlib.Data.List.DropRight
import ParamClass.Text.Blank

/-!
# Trimmed lines

The lines of a text between its line feeds, each without the blanks around it. A part without line
feeds before or after the text changes the first or the last line only (`trimmedLines_append_cases`),
and blanks there change nothing.
-/

namespace ParamClass.Text

/-- A text without the blanks around it. -/
def trim (s : List Char) : List Char := (s.dropWhile isBlank).rdropWhile isBlank

/-- The lines of a text, each without the blanks around it. -/
def trimmedLines (s : List Char) : List (List Char) := (s.splitOn '\n').map trim

/-- The lines that stand between two line feeds of a text, each without the blanks around it. -/
def innerLines (s : List Char) : List (List Char) := (trimmedLines s).tail.dropLast

/-! ## Blanks around a text -/

/-- Blanks before a text do not count. -/
theorem trim_blank_append {a : List Char} (h : ∀ c ∈ a, isBlank c = true) (s : List Char) :
    trim (a ++ s) = trim s := by
  rw [trim, List.dropWhile_append_of_pos h, trim]

/-- Blanks after a text do not count. -/
theorem trim_append_blank {b : List Char} (h : ∀ c ∈ b, isBlank c = true) (s : List Char) :
    trim (s ++ b) = trim s := by
  have hreverse : ∀ c ∈ b.reverse, isBlank c = true := fun c hc => h c (List.mem_reverse.1 hc)
  have hdrop : ∀ s, (s ++ b).rdropWhile isBlank = s.rdropWhile isBlank := by
    intro s
    rw [List.rdropWhile, List.reverse_append, List.dropWhile_append_of_pos hreverse, List.rdropWhile]
  rw [trim, List.dropWhile_append, trim]
  split
  · next hempty =>
    -- All of the text is blank, and so is what follows it.
    rw [List.isEmpty_iff.1 hempty, List.dropWhile_eq_nil_iff.2 h]
  · exact hdrop _

/-- A character that is not blank is not trimmed. -/
theorem mem_trim {c : Char} {s : List Char} (hc : c ∈ s) (hblank : isBlank c = false) :
    c ∈ trim s := by
  have hkeep : ∀ {s : List Char}, c ∈ s → c ∈ s.dropWhile isBlank := by
    intro s hc
    rw [← s.takeWhile_append_dropWhile (p := isBlank), List.mem_append] at hc
    rcases hc with hc | hc
    · exact absurd (List.mem_takeWhile_imp hc) (by rw [hblank]; decide)
    · exact hc
  rw [trim, List.rdropWhile, List.mem_reverse]
  exact hkeep (List.mem_reverse.2 (hkeep hc))

/-! ## Lines -/

/-- The lines before and after a line feed are the lines of the whole. -/
theorem trimmedLines_append_cons (s t : List Char) :
    trimmedLines (s ++ '\n' :: t) = trimmedLines s ++ trimmedLines t := by
  rw [trimmedLines, List.splitOn_append_cons_self, List.map_append]
  rfl

/-- A text without line feeds is one line. -/
theorem trimmedLines_of_not_mem {s : List Char} (h : '\n' ∉ s) : trimmedLines s = [trim s] := by
  rw [trimmedLines, List.splitOn_eq_singleton h]
  rfl

/-- A text has a last line, and what follows the text without a line feed belongs to it. -/
theorem exists_last_line (s : List Char) :
    ∃ before last, trimmedLines s = before ++ [trim last] ∧
      ∀ b, '\n' ∉ b → trimmedLines (s ++ b) = before ++ [trim (last ++ b)] := by
  have hone : ∀ last b : List Char, '\n' ∉ last → '\n' ∉ b →
      trimmedLines (last ++ b) = [trim (last ++ b)] := by
    intro last b hlast hb
    apply trimmedLines_of_not_mem
    rw [List.mem_append, not_or]
    exact ⟨hlast, hb⟩
  by_cases hs : '\n' ∈ s
  · -- The last line feed is the first one of the reversed text.
    obtain ⟨rlast, rbefore, heq, hrlast⟩ := List.eq_append_cons_of_mem (List.mem_reverse.2 hs)
    have hlast : '\n' ∉ rlast.reverse := fun h => hrlast (List.mem_reverse.1 h)
    have hs : s = rbefore.reverse ++ '\n' :: rlast.reverse := by
      rw [← s.reverse_reverse, heq, List.reverse_append, List.reverse_cons, List.append_assoc,
        List.singleton_append]
    refine ⟨trimmedLines rbefore.reverse, rlast.reverse, ?_, ?_⟩
    · rw [hs, trimmedLines_append_cons, trimmedLines_of_not_mem hlast]
    · intro b hb
      rw [hs, List.append_assoc, List.cons_append, trimmedLines_append_cons, hone _ b hlast hb]
  · exact ⟨[], s, trimmedLines_of_not_mem hs, fun b hb => hone s b hs hb⟩

/-- Parts without line feeds before and after a text belong to its first and its last line, and the
lines between these stay as they are. -/
theorem trimmedLines_append_cases {a b : List Char} (ha : '\n' ∉ a) (hb : '\n' ∉ b) (s : List Char) :
    '\n' ∉ s ∨ ∃ first last, trimmedLines s = trim first :: innerLines s ++ [trim last] ∧
      trimmedLines (a ++ s ++ b) = trim (a ++ first) :: innerLines s ++ [trim (last ++ b)] := by
  by_cases hs : '\n' ∈ s
  · obtain ⟨first, rest, rfl, hfirst⟩ := List.eq_append_cons_of_mem hs
    obtain ⟨between, last, hrest, hlast⟩ := exists_last_line rest
    have hlines : trimmedLines (first ++ '\n' :: rest) = trim first :: (between ++ [trim last]) := by
      rw [trimmedLines_append_cons, trimmedLines_of_not_mem hfirst, hrest, List.singleton_append]
    have hinner : innerLines (first ++ '\n' :: rest) = between := by
      rw [innerLines, hlines, List.tail_cons, List.dropLast_concat]
    have hfirst' : '\n' ∉ a ++ first := by
      rw [List.mem_append, not_or]
      exact ⟨ha, hfirst⟩
    refine .inr ⟨first, last, ?_, ?_⟩
    · rw [hinner, hlines, List.cons_append]
    · rw [hinner, ← List.append_assoc, List.append_assoc (a ++ first), List.cons_append,
        trimmedLines_append_cons, trimmedLines_of_not_mem hfirst', hlast b hb,
        List.singleton_append, List.cons_append]
  · exact .inl hs

/-- Blanks before and after a text that are no line feeds change none of its lines. -/
theorem trimmedLines_blank {a b : List Char} (ha : ∀ c ∈ a, isBlank c = true)
    (ha' : '\n' ∉ a) (hb : ∀ c ∈ b, isBlank c = true) (hb' : '\n' ∉ b) (s : List Char) :
    trimmedLines (a ++ s ++ b) = trimmedLines s := by
  rcases trimmedLines_append_cases ha' hb' s with hs | ⟨first, last, hlines, heq⟩
  · have hwhole : '\n' ∉ a ++ s ++ b := by simp [ha', hs, hb']
    rw [trimmedLines_of_not_mem hwhole, trimmedLines_of_not_mem hs, trim_append_blank hb,
      trim_blank_append ha]
  · rw [heq, hlines, trim_blank_append ha, trim_append_blank hb]

end ParamClass.Text

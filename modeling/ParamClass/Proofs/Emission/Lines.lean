import ParamClass.Proofs.Emission.Layout
import ParamClass.Proofs.Trim

/-!
# The lines of a layout

A text is lined when it is a number of lines, each with its line ending, and has no other line ends.
A layout is lined exactly when no line of it holds a line end (`lined_layout_iff`), which is shown by
counting. The trimmed lines of a layout are those of the texts of its lines, whatever the style is
(`trimmedLines_layout`), as long as the margin is blank.
-/

namespace ParamClass.Emission

open Text

/-- A text without LF and CR. -/
def NoLineEnd (s : String) : Prop := '\n' ∉ s.toList ∧ '\r' ∉ s.toList

instance (s : String) : Decidable (NoLineEnd s) := inferInstanceAs (Decidable (_ ∧ _))

/-- Two texts have no line end exactly when neither has. -/
theorem noLineEnd_append {s t : String} : NoLineEnd (s ++ t) ↔ NoLineEnd s ∧ NoLineEnd t := by
  simp only [NoLineEnd, String.toList_append, List.mem_append, not_or]
  exact and_and_and_comm

/-- The text is `n` lines, each with its line ending, and has no other LF or CR. -/
def Lined (ending : LineEnding) (n : Nat) (text : String) : Prop :=
  ∃ lines : List String, lines.length = n ∧ (∀ line ∈ lines, NoLineEnd line) ∧
    text = String.join (lines.map (· ++ ending.text))

/-! ## Counting line ends -/

/-- A character of a text of lines stands in a line or in a line ending. -/
theorem count_join (c : Char) (ending : String) (lines : List String) :
    (String.join (lines.map (· ++ ending))).toList.count c =
      (String.join lines).toList.count c + lines.length * ending.toList.count c := by
  induction lines with
  | nil => simp
  | cons line lines ih =>
    rw [List.map_cons, String.join_cons, String.toList_append, String.toList_append, List.count_append,
      List.count_append, ih, String.join_cons, String.toList_append, List.count_append,
      List.length_cons, Nat.succ_mul]
    omega

/-- Some lines, each with its line ending, are as many lines exactly when none of them holds a line
end. -/
theorem lined_join_iff {ending : LineEnding} {lines : List String} :
    Lined ending lines.length (String.join (lines.map (· ++ ending.text))) ↔
      ∀ line ∈ lines, NoLineEnd line := by
  constructor
  · rintro ⟨lines', hlength, hlines', heq⟩
    -- Both ways to cut the text have as many line endings, so they leave as much for their lines.
    have hcount : ∀ c, (String.join lines').toList.count c = (String.join lines).toList.count c := by
      intro c
      have h := congrArg (·.toList.count c) heq
      simp only [count_join, hlength] at h
      omega
    have hnone : ∀ c, (∀ line ∈ lines', c ∉ line.toList) → ∀ line ∈ lines, c ∉ line.toList := by
      intro c hc line hline hmem
      have hjoin : c ∈ (String.join lines).toList := by
        rw [String.toList_join]
        exact List.mem_flatMap_of_mem hline hmem
      rw [← List.count_pos_iff, ← hcount, List.count_pos_iff, String.toList_join,
        List.mem_flatMap] at hjoin
      obtain ⟨line', hline', hmem'⟩ := hjoin
      exact hc line' hline' hmem'
    intro line hline
    exact ⟨hnone '\n' (fun line hline => (hlines' line hline).1) line hline,
      hnone '\r' (fun line hline => (hlines' line hline).2) line hline⟩
  · exact fun h => ⟨lines, rfl, h, rfl⟩

/-- The layout of some lines is lined exactly when no line of it holds a line end. -/
theorem lined_layout_iff {style : Style} {lines : List Line} :
    Lined style.lineEnding lines.length (layout style lines) ↔
      ∀ line ∈ lines, NoLineEnd (line.body style) := by
  have h : Lined style.lineEnding (lines.map (·.body style)).length _ ↔ _ := lined_join_iff
  rwa [List.length_map, List.map_map, List.forall_mem_map] at h

/-! ## Trimmed lines -/

/-- The text of a line, without its margin. -/
def Line.text : Line → String
  | blank => ""
  | code _ text => text

/-- A margin has the characters of the indent. -/
theorem mem_indent_of_mem_margin {style : Style} {depth : Nat} {c : Char}
    (h : c ∈ (style.margin depth).toList) : c ∈ style.indent.toList := by
  rw [Style.margin, String.toList_join, List.mem_flatMap] at h
  obtain ⟨part, hpart, hc⟩ := h
  rwa [List.eq_of_mem_replicate hpart] at hc

/-- A line is its text after characters of the indent. -/
theorem Line.exists_margin (style : Style) (line : Line) :
    ∃ margin, (line.body style).toList = margin ++ line.text.toList ∧
      ∀ c ∈ margin, c ∈ style.indent.toList := by
  cases line with
  | blank => exact ⟨[], rfl, by simp⟩
  | code depth text =>
    exact ⟨(style.margin depth).toList, String.toList_append, fun c hc => mem_indent_of_mem_margin hc⟩

/-- A line ending is an LF, maybe after another blank. -/
theorem LineEnding.exists_lead (ending : LineEnding) :
    ∃ lead, ending.text.toList = lead ++ ['\n'] ∧ (∀ c ∈ lead, isBlank c = true) ∧ '\n' ∉ lead := by
  cases ending with
  | lf => exact ⟨[], rfl, List.forall_mem_nil _, List.not_mem_nil⟩
  | crlf => exact ⟨['\r'], rfl, List.forall_mem_singleton.2 (by decide), by decide⟩

/-- The trimmed lines of a layout are those of the texts of its lines, and an empty one after the
last line ending. -/
theorem trimmedLines_layout {style : Style} (hblank : ∀ c ∈ style.indent.toList, isBlank c = true)
    (hline : '\n' ∉ style.indent.toList) (lines : List Line) :
    trimmedLines (layout style lines).toList =
      lines.flatMap (fun line => trimmedLines line.text.toList) ++ [[]] := by
  induction lines with
  | nil =>
    rw [layout, List.map_nil, String.join_nil]
    rfl
  | cons line lines ih =>
    obtain ⟨margin, hbody, hmargin⟩ := line.exists_margin style
    obtain ⟨lead, hending, hlead, hlead'⟩ := style.lineEnding.exists_lead
    -- Up to the LF of its line ending, the line is its text between blanks.
    have htext : (layout style (line :: lines)).toList =
        margin ++ line.text.toList ++ lead ++ '\n' :: (layout style lines).toList := by
      rw [← List.singleton_append, layout_append, layout_singleton, String.toList_append,
        String.toList_append, hbody, hending]
      simp only [List.append_assoc, List.singleton_append]
    have hfirst : trimmedLines (margin ++ line.text.toList ++ lead) = trimmedLines line.text.toList :=
      trimmedLines_blank (fun c hc => hblank c (hmargin c hc)) (fun h => hline (hmargin _ h)) hlead
        hlead' _
    rw [htext, trimmedLines_append_cons, hfirst, ih, List.flatMap_cons, List.append_assoc]

end ParamClass.Emission

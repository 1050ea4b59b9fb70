import ParamClass.Proofs.Emission.Braces
import ParamClass.Proofs.Emission.Lines
import ParamClass.Proofs.Generation.Layout
import ParamClass.Proofs.Identifier

/-!
# The lines of the class and its braces

The skeleton is written line by line with balanced braces, and a member adds three lines. But a
description is copied into its line as it is, so the line ends in it become line ends of the class,
and the lines between them are lines of the class. `discipline_of_generate` says what that does:
the class keeps its number of lines exactly when no description has a line end, and its braces are
balanced exactly when those lines of the descriptions are, at the depth of the constructor.
-/

namespace ParamClass.Generation

open Emission Text

/-! ## Valid indents -/

/-- The characters of a valid indent are spaces and tabs. -/
theorem eq_of_mem_indent {settings : Settings} (h : settings.validate = .ok settings) {c : Char}
    (hc : c ∈ settings.indent.toList) : c = ' ' ∨ c = '\t' := by
  unfold Settings.validate at h
  split at h
  · next hvalid =>
    unfold Settings.isValid at hvalid
    simp only [Bool.and_eq_true, List.all_eq_true, Bool.or_eq_true, beq_iff_eq] at hvalid
    exact hvalid.2 c hc
  · exact absurd h (by simp)

/-- A valid indent is blank. -/
theorem isBlank_of_mem_indent {settings : Settings} (h : settings.validate = .ok settings) {c : Char}
    (hc : c ∈ settings.style.indent.toList) : isBlank c = true := by
  rcases eq_of_mem_indent h hc with rfl | rfl
  · decide
  · decide

/-- A valid indent has no line end. -/
theorem noLineEnd_indent {settings : Settings} (h : settings.validate = .ok settings) :
    NoLineEnd settings.style.indent := by
  constructor
  · intro hc
    exact absurd (eq_of_mem_indent h hc) (by decide)
  · intro hc
    exact absurd (eq_of_mem_indent h hc) (by decide)

/-! ## The number of lines -/

/-- A class has the lines of the skeleton and three more for each member. -/
theorem length_classLines (ms : List Member) : (classLines ms).length = 52 + 3 * ms.length := by
  have hproperties : (ms.flatMap propertyLines).length = 2 * ms.length := by
    induction ms with
    | nil => rfl
    | cons m ms ih =>
      rw [List.flatMap_cons, List.length_append, ih, List.length_cons]
      rw [propertyLines]
      simp only [List.length_cons, List.length_nil]
      omega
  simp only [classLines, List.length_append, List.length_map, hproperties]
  simp only [openingLines, middleLines, closingLines, List.length_cons, List.length_nil]
  omega

/-- A line has a line end exactly when its text has one, if the indent has none. -/
theorem noLineEnd_body {style : Style} (h : NoLineEnd style.indent) {line : Line} :
    NoLineEnd (line.body style) ↔ NoLineEnd line.text := by
  obtain ⟨margin, hbody, hmargin⟩ := line.exists_margin style
  simp only [NoLineEnd, hbody, List.mem_append, not_or]
  have hlf : '\n' ∉ margin := fun hc => h.1 (hmargin _ hc)
  have hcr : '\r' ∉ margin := fun hc => h.2 (hmargin _ hc)
  simp only [hlf, hcr, not_false_eq_true, true_and]

/-- The descriptions of the members are those of the parameters. -/
theorem MembersOf.map_description {ps : List Parameter} {ms : List Member} (h : MembersOf ps ms) :
    ms.map (·.description) = ps.filterMap (·.description) := by
  induction h with
  | nil => rfl
  | cons hp _ ih => rw [List.map_cons, List.filterMap_cons_some hp.1, ih]

/-- The identifier of a member has no line end. -/
theorem MembersOf.noLineEnd_identifier {ps : List Parameter} {ms : List Member}
    (h : MembersOf ps ms) : ∀ m ∈ ms, NoLineEnd m.identifier := by
  induction h with
  | nil => exact List.forall_mem_nil _
  | cons hp _ ih =>
    rw [List.forall_mem_cons]
    refine ⟨⟨fun hc => ?_, fun hc => ?_⟩, ih⟩
    · exact absurd (isBlank_of_mem_identifier hp.2 hc) (by decide)
    · exact absurd (isBlank_of_mem_identifier hp.2 hc) (by decide)

/-- The lines of the skeleton have no line end in them. -/
theorem noLineEnd_skeleton :
    ∀ line ∈ openingLines ++ middleLines ++ closingLines, NoLineEnd line.text := by
  -- A literal is taken as its list of characters, which is not computed from its bytes then.
  have hliteral : ∀ (c : Char) (cs : List Char), c ∉ cs → c ∉ (String.ofList cs).toList := by
    intro c cs hc
    rwa [String.toList_ofList]
  simp only [NoLineEnd, openingLines, middleLines, closingLines, List.cons_append, List.nil_append,
    List.forall_mem_cons, Line.text]
  repeat' apply And.intro
  all_goals first | exact hliteral _ _ (by decide) | exact List.forall_mem_nil _

/-- An assignment has a line end exactly when its description has one. -/
theorem noLineEnd_assignmentLine {m : Member} (h : NoLineEnd m.identifier) :
    NoLineEnd (assignmentLine m).text ↔ NoLineEnd m.description := by
  have hopen : NoLineEnd " = GetScriptParam(\"" := by decide
  have hclose : NoLineEnd "\").Single();" := by decide
  rw [assignmentLine, Line.text, noLineEnd_append, noLineEnd_append, noLineEnd_append]
  exact ⟨fun hline => hline.1.2, fun hdescription => ⟨⟨⟨h, hopen⟩, hdescription⟩, hclose⟩⟩

/-- A property has no line end. -/
theorem noLineEnd_propertyLines {m : Member} (h : NoLineEnd m.identifier) :
    ∀ line ∈ propertyLines m, NoLineEnd line.text := by
  have hopen : NoLineEnd "public string " := by decide
  have hclose : NoLineEnd " \x7b get; \x7d" := by decide
  rw [propertyLines, List.forall_mem_cons, List.forall_mem_singleton, Line.text, Line.text,
    noLineEnd_append, noLineEnd_append]
  exact ⟨by decide, ⟨hopen, h⟩, hclose⟩

/-- The texts of a class have line ends exactly where descriptions have them. -/
theorem noLineEnd_classLines {ms : List Member} (h : ∀ m ∈ ms, NoLineEnd m.identifier) :
    (∀ line ∈ classLines ms, NoLineEnd line.text) ↔ ∀ m ∈ ms, NoLineEnd m.description := by
  have hskeleton := noLineEnd_skeleton
  rw [List.forall_mem_append, List.forall_mem_append] at hskeleton
  obtain ⟨⟨hopening, hmiddle⟩, hclosing⟩ := hskeleton
  rw [classLines, List.forall_mem_append, List.forall_mem_append, List.forall_mem_append,
    List.forall_mem_append, List.forall_mem_map]
  constructor
  · rintro ⟨⟨⟨⟨-, hassignments⟩, -⟩, -⟩, -⟩ m hm
    exact (noLineEnd_assignmentLine (h m hm)).1 (hassignments m hm)
  · intro hdescriptions
    refine ⟨⟨⟨⟨hopening, ?_⟩, hmiddle⟩, ?_⟩, hclosing⟩
    · exact fun m hm => (noLineEnd_assignmentLine (h m hm)).2 (hdescriptions m hm)
    · intro line hline
      obtain ⟨m, hm, hline⟩ := List.mem_flatMap.1 hline
      exact noLineEnd_propertyLines (h m hm) line hline

/-- A class has three lines for each member besides the 52 of the skeleton exactly when no
description has a line end. -/
theorem lined_classLines_iff {settings : Settings} (hvalid : settings.validate = .ok settings)
    {ms : List Member} (h : ∀ m ∈ ms, NoLineEnd m.identifier) :
    Lined settings.lineEnding (52 + 3 * ms.length) (layout settings.style (classLines ms)) ↔
      ∀ m ∈ ms, NoLineEnd m.description := by
  have hlayout : Lined settings.lineEnding (classLines ms).length
      (layout settings.style (classLines ms)) ↔ _ := lined_layout_iff
  rw [length_classLines] at hlayout
  rw [← noLineEnd_classLines h]
  exact hlayout.trans (forall₂_congr fun line _ => noLineEnd_body (noLineEnd_indent hvalid))

/-! ## The braces -/

/-- The trimmed lines of the texts of some lines. -/
def textLines (lines : List Line) : List (List Char) :=
  lines.flatMap fun line => trimmedLines line.text.toList

/-- The trimmed lines of lines one after the other. -/
theorem textLines_append (lines more : List Line) :
    textLines (lines ++ more) = textLines lines ++ textLines more := List.flatMap_append

/-- An empty line is one line. -/
theorem textLines_blank {lines : List Line} : textLines (.blank :: lines) = [] :: textLines lines := rfl

/-- The lines of a text that is given by its characters. -/
theorem textLines_code {margin : Nat} {cs : List Char} {lines : List Line} :
    textLines (.code margin (.ofList cs) :: lines) = trimmedLines cs ++ textLines lines := by
  rw [textLines, List.flatMap_cons, Line.text, String.toList_ofList]
  rfl

/-- A line with a character that is no brace and not blank opens and closes nothing. -/
theorem braceStep_trim {c : Char} {s : List Char} (hc : c ∈ s) (hblank : isBlank c = false)
    (hopen : c ∉ openingBrace) (hclose : c ∉ closingBrace) (depth : Nat) :
    braceStep depth (trim s) = some depth := by
  have hmem : c ∈ trim s := mem_trim hc hblank
  apply braceStep_of_ne
  · intro heq
    exact hopen (heq ▸ hmem)
  · intro heq
    exact hclose (heq ▸ hmem)

/-- Of an assignment only the lines inside its description can open and close anything. -/
theorem openAfter_assignmentLine {m : Member} (h : NoLineEnd m.identifier) (depth : Nat) :
    openAfter depth (trimmedLines (assignmentLine m).text.toList) =
      openAfter depth (innerLines m.description.toList) := by
  -- The first and the last line hold a quote each.
  have hquote : ∀ {s : List Char}, '"' ∈ s → ∀ depth, braceStep depth (trim s) = some depth :=
    fun hmem => braceStep_trim hmem (by decide) (by decide) (by decide)
  have hbefore : '\n' ∉ (m.identifier ++ " = GetScriptParam(\"").toList :=
    (noLineEnd_append.2 ⟨h, by decide⟩).1
  have hopen : '"' ∈ (m.identifier ++ " = GetScriptParam(\"").toList := by
    rw [String.toList_append]
    exact List.mem_append_right _ (by decide)
  have hclose : '"' ∈ "\").Single();".toList := by decide
  have hafter : '\n' ∉ "\").Single();".toList := by decide
  rw [assignmentLine, Line.text, String.toList_append, String.toList_append]
  rcases trimmedLines_append_cases hbefore hafter m.description.toList with
    hone | ⟨first, last, -, heq⟩
  -- Without a line feed in the description there is one line, which holds both quotes.
  · have hinner : innerLines m.description.toList = [] := by
      rw [innerLines, trimmedLines_of_not_mem hone]
      rfl
    have hwhole : '\n' ∉ (m.identifier ++ " = GetScriptParam(\"").toList ++ m.description.toList ++
        "\").Single();".toList := by
      rw [List.mem_append, List.mem_append, not_or, not_or]
      exact ⟨⟨hbefore, hone⟩, hafter⟩
    rw [hinner, trimmedLines_of_not_mem hwhole, openAfter_cons,
      hquote (List.mem_append_right _ hclose)]
    rfl
  -- With one, the first quote is on the first line and the second quote on the last line.
  · rw [heq, List.cons_append, openAfter_cons, hquote (List.mem_append_left _ hopen),
      Option.bind_some, openAfter_append]
    have hlast : ∀ depth', openAfter depth' [trim (last ++ "\").Single();".toList)] = some depth' := by
      intro depth'
      rw [openAfter_cons, hquote (List.mem_append_right _ hclose)]
      rfl
    simp only [hlast, Option.bind_fun_some]

/-- Nor does such a line after an empty one. -/
theorem openAfter_blank_code {c : Char} {s : String} (hline : NoLineEnd s) (hc : c ∈ s.toList)
    (hblank : isBlank c = false) (hopen : c ∉ openingBrace) (hclose : c ∉ closingBrace)
    {margin depth : Nat} : openAfter depth (textLines [.blank, .code margin s]) = some depth := by
  have hlines : textLines [.blank, .code margin s] = [[], trim s.toList] := by
    show [trim []] ++ (trimmedLines s.toList ++ []) = _
    rw [trimmedLines_of_not_mem hline.1]
    rfl
  rw [hlines, openAfter_cons, braceStep_of_ne (by decide) (by decide), Option.bind_some, openAfter_cons,
    braceStep_trim hc hblank hopen hclose]
  rfl

/-- Properties open and close nothing. -/
theorem openAfter_propertyLines {ms : List Member} (h : ∀ m ∈ ms, NoLineEnd m.identifier)
    (depth : Nat) : openAfter depth (textLines (ms.flatMap propertyLines)) = some depth := by
  induction ms with
  | nil => rfl
  | cons m ms ih =>
    rw [List.forall_mem_cons] at h
    have hline : NoLineEnd ("public string " ++ m.identifier ++ " \x7b get; \x7d") :=
      noLineEnd_propertyLines h.1 (.code 2 _) (List.mem_cons_of_mem _ List.mem_cons_self)
    have hp : 'p' ∈ ("public string " ++ m.identifier ++ " \x7b get; \x7d").toList := by
      rw [String.toList_append, String.toList_append, List.append_assoc]
      exact List.mem_append_left _ (by decide)
    rw [List.flatMap_cons, textLines_append, openAfter_append, propertyLines,
      openAfter_blank_code hline hp (by decide) (by decide) (by decide)]
    exact ih h.2

/-- The lines of a class before the assignments open three blocks. -/
theorem openAfter_openingLines : openAfter 0 (textLines openingLines) = some 3 := by
  rw [openingLines]
  -- A literal is its list of characters here too, so that the walk computes nothing from bytes.
  repeat first | rw [textLines_code] | rw [textLines_blank]
  decide +kernel

/-- The lines of a class after the assignments close three blocks, after all that they open. -/
theorem openAfter_after_assignments {ms : List Member} (h : ∀ m ∈ ms, NoLineEnd m.identifier) :
    openAfter 3 (textLines (middleLines ++ ms.flatMap propertyLines ++ closingLines) ++ [[]]) =
      some 0 := by
  have hmiddle : openAfter 3 (textLines middleLines) = some 2 := by
    rw [middleLines]
    repeat first | rw [textLines_code] | rw [textLines_blank]
    decide +kernel
  have hclosing : openAfter 2 (textLines closingLines ++ [[]]) = some 0 := by
    rw [closingLines]
    repeat first | rw [textLines_code] | rw [textLines_blank]
    decide +kernel
  rw [textLines_append, textLines_append, List.append_assoc, List.append_assoc, openAfter_append,
    hmiddle, Option.bind_some, openAfter_append, openAfter_propertyLines h, Option.bind_some, hclosing]

/-- The braces of a class are balanced exactly when those inside the descriptions are, at the depth
of the constructor. -/
theorem bracesBalanced_classLines_iff {settings : Settings}
    (hvalid : settings.validate = .ok settings) {ms : List Member}
    (h : ∀ m ∈ ms, NoLineEnd m.identifier) :
    BracesBalanced 0 (trimmedLines (layout settings.style (classLines ms)).toList) ↔
      BracesBalanced 3 (ms.flatMap fun m => innerLines m.description.toList) := by
  have hlines : trimmedLines (layout settings.style (classLines ms)).toList =
      textLines openingLines ++ (textLines (ms.map assignmentLine) ++
        (textLines (middleLines ++ ms.flatMap propertyLines ++ closingLines) ++ [[]])) := by
    rw [trimmedLines_layout (fun c hc => isBlank_of_mem_indent hvalid hc) (noLineEnd_indent hvalid).1,
      classLines]
    simp only [textLines, List.flatMap_append, List.append_assoc]
  have hassignments : openAfter 3 (textLines (ms.map assignmentLine)) =
      openAfter 3 (ms.flatMap fun m => innerLines m.description.toList) := by
    rw [textLines, List.flatMap_map]
    exact openAfter_flatMap_congr (fun m hm => openAfter_assignmentLine (h m hm)) 3
  have hrest := openAfter_after_assignments h
  rw [bracesBalanced_iff_openAfter, bracesBalanced_iff_openAfter, hlines, openAfter_append,
    openAfter_openingLines, Option.bind_some, openAfter_append, hassignments, Option.bind_eq_some_iff]
  constructor
  · rintro ⟨depth, hdepth, hend⟩
    -- The rest of the class gets to 0 from 3 only, so the assignments have to end at 3.
    rwa [openAfter_inj hend hrest] at hdepth
  · exact fun hdepth => ⟨3, hdepth, hrest⟩

/-! ## The class -/

/-- The class of accepted parameters has 52 lines and three more for each parameter, each with the
line ending of the settings, and no other line end, exactly when no description has a line end. And
no prefix of its lines closes more blocks than it opens and the totals are equal, exactly when this
holds of the lines inside the descriptions, from the three blocks on in which they stand. -/
theorem discipline_of_generate {parameters : List Parameter} {settings : Settings} {text : String}
    (hvalid : settings.validate = .ok settings) (htext : generate parameters settings = .ok text) :
    (Lined settings.lineEnding (52 + 3 * parameters.length) text ↔
      ∀ description ∈ parameters.filterMap (·.description), NoLineEnd description) ∧
    (BracesBalanced 0 (trimmedLines text.toList) ↔
      BracesBalanced 3 ((parameters.filterMap (·.description)).flatMap fun description =>
        innerLines description.toList)) := by
  obtain ⟨ms, hms, rfl⟩ := layout_of_generate htext
  have hidentifiers := hms.noLineEnd_identifier
  rw [← hms.map_description, List.forall_mem_map, List.flatMap_map, hms.length_eq]
  exact ⟨lined_classLines_iff hvalid hidentifiers, bracesBalanced_classLines_iff hvalid hidentifiers⟩

/-- Two descriptions, the second with a block between its line ends: the class has more than its 58
lines, and its braces are balanced. -/
theorem discipline_of_nested_block :
    ∃ text,
      generate [⟨none, none, none, some "Host"⟩, ⟨none, none, none, some "if\n \x7b\n\x7d\t\nend"⟩]
        ⟨"", "\t ", .crlf⟩ = .ok text ∧
      ¬ Lined .crlf (52 + 3 * 2) text ∧ BracesBalanced 0 (trimmedLines text.toList) := by
  have hvalid : Settings.validate ⟨"", "\t ", .crlf⟩ = .ok ⟨"", "\t ", .crlf⟩ := by rfl
  have hmembers :
      members [⟨none, none, none, some "Host"⟩, ⟨none, none, none, some "if\n \x7b\n\x7d\t\nend"⟩] =
        .ok [⟨"Host", "Host"⟩, ⟨"If\x7b\x7dend", "if\n \x7b\n\x7d\t\nend"⟩] := by
    decide +kernel
  obtain ⟨text, htext⟩ := exists_generate_iff.2 ⟨_, hmembers⟩
  obtain ⟨hlined, hbalanced⟩ := discipline_of_generate hvalid htext
  refine ⟨text, htext, fun h => ?_, hbalanced.2 ?_⟩
  · exact absurd (hlined.1 h) (by decide)
  · decide

/-- A closing brace between the line ends of a description takes away both the number of lines and the
balance of the braces. -/
theorem not_discipline_of_brace :
    Settings.default.validate = .ok Settings.default ∧
      ∃ text, generate [⟨none, none, none, some "a\n\x7d\nb"⟩] .default = .ok text ∧
        ¬ Lined Settings.default.lineEnding (52 + 3 * 1) text ∧
        ¬ BracesBalanced 0 (trimmedLines text.toList) := by
  have hvalid : Settings.default.validate = .ok Settings.default := by rfl
  have hmembers : members [⟨none, none, none, some "a\n\x7d\nb"⟩] = .ok [⟨"A\x7db", "a\n\x7d\nb"⟩] := by
    decide +kernel
  have hidentifiers : ∀ m ∈ [Member.mk "A\x7db" "a\n\x7d\nb"], NoLineEnd m.identifier := by decide
  refine ⟨hvalid, layout Settings.default.style (classLines [⟨"A\x7db", "a\n\x7d\nb"⟩]), ?_, ?_, ?_⟩
  · rw [generate, hmembers]
    dsimp only
    rw [classText_eq_layout]
  · intro h
    exact absurd ((lined_classLines_iff hvalid hidentifiers).1 h) (by decide)
  · rw [bracesBalanced_classLines_iff hvalid hidentifiers]
    decide

end ParamClass.Generation

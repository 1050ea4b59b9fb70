import ParamClass.Proofs.Grammar.Stops

/-!
# Documents that go on

A document ends where its root element and what may be skipped after it end, and no decision of the
reader depends on what follows there. So a document may be followed by more of what may be skipped,
and stays the same; if anything else follows, the reader stops exactly at the end of the document
(`readDocument_eq_contentAfterRoot_iff`). `PreambleText` is all that may stand before the root
element, and `parse_append` says the same of texts with any line ends.
-/

namespace ParamClass.Xml

open Text

/-! ## Before the root element -/

/-- All that the reader takes for the part of a document before its root element. -/
def PreambleText (s : List Char) : Prop :=
  ∃ mark prolog doctype, (mark = [] ∨ mark = ['\uFEFF']) ∧ PrologText prolog ∧
    (doctype = [] ∨ ∃ d m, SkippedDoctype d ∧ MiscText m ∧ doctype = d ++ m) ∧
    s = mark ++ prolog ++ doctype

/-- The reader has skipped a preamble. -/
theorem exists_preamble {s rest : List Char} (h : skipProlog s = .ok rest) :
    ∃ p, PreambleText p ∧ s = p ++ rest := by
  obtain ⟨mark, p, r, hmark, hp, hdoctypes, rfl⟩ := exists_prolog_skipDoctypes h
  by_cases hr : doctypeMark <+: r
  · obtain ⟨r, rfl⟩ := hr
    obtain ⟨body, m, hbody, hm, -, -, rfl⟩ := skipDoctypes_doctype_eq_ok_iff.1 hdoctypes
    exact ⟨_, ⟨mark, p, _, hmark, hp, .inr ⟨_, m, ⟨body, hbody, rfl⟩, hm, rfl⟩, rfl⟩, by simp⟩
  · rw [skipDoctypes, after?_eq_none_iff.2 hr] at hdoctypes
    obtain rfl := Except.ok.inj hdoctypes
    exact ⟨_, ⟨mark, p, [], hmark, hp, .inl rfl, rfl⟩, by simp⟩

/-- Skipping goes past a preamble, up to the element after it. -/
theorem PreambleText.skipProlog_append {p : List Char} (hp : PreambleText p) {c : Char}
    (hc : isNameStart c = true) (s : List Char) :
    skipProlog (p ++ '<' :: c :: s) = .ok ('<' :: c :: s) := by
  obtain ⟨mark, p, doctype, hmark, hp, hdoctype, rfl⟩ := hp
  rcases hdoctype with rfl | ⟨d, m, ⟨body, hbody, rfl⟩, hm, rfl⟩
  · rw [List.append_nil]
    exact hp.skipProlog_append hmark hc s
  · have hdoctypes : skipDoctypes (doctypeMark ++ (body ++ '>' :: (m ++ '<' :: c :: s))) =
        .ok ('<' :: c :: s) :=
      skipDoctypes_doctype_eq_ok_iff.2
        ⟨body, m, hbody, hm, noMisc_of_isNameStart hc s, after?_doctypeMark hc s, rfl⟩
    have hprolog := hp.skipProlog_eq hmark (noMisc_doctypeMark (body ++ '>' :: (m ++ '<' :: c :: s)))
    rw [← hdoctypes]
    refine Eq.trans ?_ hprolog
    simp [doctypeMark]

/-! ## The end of a document -/

/-- A text is read as a document exactly when it is a preamble, an element that is not too deep and
what may be skipped after it. -/
theorem readDocument_eq_ok_iff_preamble {s : List Char} {root : Element} :
    readDocument s = .ok root ↔
      ∃ p t m, PreambleText p ∧ ElementText noBindings t root ∧ MiscText m ∧
        root.depth ≤ maxDepth ∧ s = p ++ (t ++ m) := by
  rw [readDocument_eq_ok_iff]
  constructor
  · rintro ⟨t, m, ht, hm, hdepth, hprolog⟩
    obtain ⟨p, hp, rfl⟩ := exists_preamble hprolog
    exact ⟨p, t, m, hp, ht, hm, hdepth, rfl⟩
  · rintro ⟨p, t, m, hp, ht, hm, hdepth, rfl⟩
    obtain ⟨c, r, rfl, hc⟩ := ht.exists_eq
    exact ⟨_, m, ht, hm, hdepth, hp.skipProlog_append hc _⟩

/-- A document may be followed by more of what may be skipped, and stays the same. -/
theorem readDocument_append_misc {s m : List Char} {root : Element} (h : readDocument s = .ok root)
    (hm : MiscText m) : readDocument (s ++ m) = .ok root := by
  rw [readDocument_eq_ok_iff_preamble] at h ⊢
  obtain ⟨p, t, m', hp, ht, hm', hdepth, rfl⟩ := h
  exact ⟨p, t, m' ++ m, hp, ht, hm'.append hm, hdepth, by simp⟩

/-- Reading stops for what follows the root element exactly at the end of a document that something
else follows. -/
theorem readDocument_eq_contentAfterRoot_iff {s r : List Char} :
    readDocument s = .error ⟨.contentAfterRoot, r⟩ ↔
      ∃ before root, readDocument before = .ok root ∧ NoMisc r ∧ r ≠ [] ∧ s = before ++ r := by
  constructor
  · intro h
    -- No part of the document is read with this fault, only the end of it.
    rw [readDocument, bind_eq_error] at h
    rcases h with h | ⟨rest, hprolog, h⟩
    · exact absurd rfl (skipProlog_within h).cause
    split at h
    · exact absurd h (by simp)
    · next body =>
      rcases bind_eq_error.1 h with hroot | ⟨⟨root, rest⟩, hroot, hafter⟩
      · exact absurd rfl (readElement_within List.suffix_rfl hroot).cause
      rcases bind_eq_error.1 hafter with hmisc | ⟨rest', hmisc, hend⟩
      · exact absurd rfl (skipMisc_within hmisc).cause
      split_ifs at hend with hne
      obtain ⟨-, rfl⟩ := Stop.mk.inj (Except.error.inj hend)
      obtain ⟨p, hp, rfl⟩ := exists_preamble hprolog
      obtain ⟨t, ht, hdepth, heq⟩ := readElement_eq_ok_iff.1 hroot
      obtain ⟨m, hm, hno, rfl⟩ := skipMisc_eq_ok_iff.1 hmisc
      refine ⟨p ++ (t ++ m), root, ?_, hno, hne, by rw [heq]; simp⟩
      exact readDocument_eq_ok_iff_preamble.2 ⟨p, t, m, hp, ht, hm, hdepth, rfl⟩
    · exact absurd h (by simp)
  · rintro ⟨before, root, h, hno, hne, rfl⟩
    obtain ⟨p, t, m, hp, ht, hm, hdepth, rfl⟩ := readDocument_eq_ok_iff_preamble.1 h
    refine readDocument_eq_contentAfterRoot ?_ ht hdepth hm hno hne
    obtain ⟨c, body, rfl, hc⟩ := ht.exists_eq
    rw [List.append_assoc, List.append_assoc]
    exact hp.skipProlog_append hc _

/-! ## Line ends -/

/-- A comment with its line ends normalized is a comment. -/
theorem CommentText.normalizeLines {t : List Char} (ht : CommentText t) :
    CommentText (normalizeLines t) ∧ Normalizes t (normalizeLines t) := by
  obtain ⟨body, hhyphens, hlast, rfl⟩ := ht
  have hpart : Normalizes (commentMark ++ (body ++ ['-', '-', '>']))
      (commentMark ++ (Text.normalizeLines body ++ ['-', '-', '>'])) :=
    (Normalizes.of_not_mem (by decide)).append (.before body (by decide) (by decide))
  rw [List.append_assoc, hpart.eq]
  refine ⟨⟨_, ?_, ?_, (List.append_assoc _ _ _).symm⟩, hpart⟩
  · exact fun h => hhyphens (infix_of_infix_normalizeLines (by decide) (by decide) h)
  · exact fun h => hlast (suffix_singleton_of_normalizeLines (by decide) h)

/-- An instruction with its line ends normalized is an instruction with the same name. -/
theorem InstructionText.normalizeLines {target : String} {t : List Char}
    (ht : InstructionText target t) :
    InstructionText target (normalizeLines t) ∧ Normalizes t (normalizeLines t) := by
  obtain ⟨data, hname, hstop, hend, rfl⟩ := ht
  have hmark : '\r' ∉ instructionMark ++ target.toList := by
    rw [List.mem_append, not_or]
    exact ⟨by decide, hname.not_mem (isNameChar_eq_false (by simp))⟩
  have hpart : Normalizes (instructionMark ++ target.toList ++ (data ++ ['?', '>']))
      (instructionMark ++ target.toList ++ (Text.normalizeLines data ++ ['?', '>'])) :=
    (Normalizes.of_not_mem hmark).append (.before data (by decide) (by decide))
  rw [List.append_assoc _ data, hpart.eq]
  refine ⟨⟨_, hname, ?_, ?_, (List.append_assoc _ _ _).symm⟩, hpart⟩
  · intro c hc
    rcases head?_of_normalizeLines hc with hhead | ⟨-, rfl⟩
    · exact hstop c hhead
    · exact isNameChar_eq_false (by simp)
  · exact fun h => hend (infix_of_infix_normalizeLines (by decide) (by decide) h)

/-- What may be skipped around a root element may be skipped with its line ends normalized. -/
theorem MiscText.normalizeLines {m : List Char} (hm : MiscText m) : MiscText (normalizeLines m) := by
  induction hm with
  | nil => exact .nil
  | @space c s hc _ ih =>
    by_cases hcr : c = '\r'
    · subst hcr
      -- The LF of a CR LF is normalized like one that stands alone.
      by_cases hlf : ∃ r, s = '\n' :: r
      · obtain ⟨r, rfl⟩ := hlf
        exact ih
      · rw [Text.normalizeLines.eq_3 s fun r hr => hlf ⟨r, hr⟩]
        exact .space (by decide) ih
    · rw [Text.normalizeLines.eq_4 c s (fun _ h _ => hcr h) hcr]
      exact .space hc ih
  | comment ht _ ih =>
    rw [ht.normalizeLines.2]
    exact .comment ht.normalizeLines.1 ih
  | instruction ht hx _ ih =>
    rw [ht.normalizeLines.2]
    exact .instruction ht.normalizeLines.1 hx ih

/-- Behind a space, what may be skipped goes on. -/
theorem MiscText.of_cons {c : Char} {m : List Char} (hc : isSpace c = true)
    (hm : MiscText (c :: m)) : MiscText m := by
  generalize hs : c :: m = s at hm
  cases hm with
  | nil => exact absurd hs (by simp)
  | space _ hm => exact (List.cons.inj hs).2 ▸ hm
  | comment ht _ =>
    obtain ⟨r, rfl⟩ := ht.exists_eq
    obtain ⟨rfl, -⟩ := List.cons.inj hs
    exact absurd hc (by decide)
  | instruction ht _ _ =>
    obtain ⟨r, rfl⟩ := ht.exists_eq
    obtain ⟨rfl, -⟩ := List.cons.inj hs
    exact absurd hc (by decide)

/-- What may be skipped and follows a text does so when the line ends of both are normalized. -/
theorem MiscText.exists_normalizeLines {m : List Char} (hm : MiscText m) (s : List Char) :
    ∃ m', MiscText m' ∧ Text.normalizeLines (s ++ m) = Text.normalizeLines s ++ m' := by
  rcases normalizeLines_append_cases s m with h | ⟨t, rfl, h⟩
  · exact ⟨_, hm.normalizeLines, h⟩
  · exact ⟨_, (hm.of_cons (by decide)).normalizeLines, h⟩

/-- What is neither a space nor the start of a comment or an instruction is none of them when its line
ends are normalized. -/
theorem noMisc_normalizeLines {s : List Char} (hspace : Stops isSpace s)
    (hcomment : ¬ commentMark <+: s) (hinstruction : ¬ instructionMark <+: s) :
    NoMisc (normalizeLines s) := by
  refine ⟨?_, after?_eq_none_iff.2 fun h => ?_, after?_eq_none_iff.2 fun h => ?_⟩
  · intro c hc
    rcases head?_of_normalizeLines hc with hhead | ⟨hhead, -⟩
    · exact hspace c hhead
    · exact absurd (hspace _ hhead) (by decide)
  · exact hcomment (prefix_of_prefix_normalizeLines (by decide) (by decide) h)
  · exact hinstruction (prefix_of_prefix_normalizeLines (by decide) (by decide) h)

/-! ## Texts with any line ends -/

/-- A text that starts with `start` is none that does not. -/
theorem append_ne {start text : String} (h : ¬ start.toList <+: text.toList) (s t : String) :
    start ++ s ++ t ≠ text := by
  rintro rfl
  rw [String.append_assoc, String.toList_append] at h
  exact h (List.prefix_append _ _)

/-- Only the fault of what follows the root element has its wording. -/
theorem Cause.eq_of_message {cause : Cause}
    (h : cause.message = "unexpected content after root element") : cause = .contentAfterRoot := by
  cases cause with
  | contentAfterRoot => rfl
  | mismatchedEnd opened found =>
    have hassoc : "mismatched end tag: expected </" ++ opened ++ (">, found </" ++ found ++ ">") =
        Cause.message (.mismatchedEnd opened found) := by
      rw [← String.append_assoc, ← String.append_assoc]
      rfl
    exact absurd (hassoc.trans h) (append_ne (by decide) _ _)
  | _ => first | exact absurd h (append_ne (by decide) _ _) | exact absurd h (by decide +kernel)

/-- A text is not parsed exactly when reading it stops, with its line ends normalized. -/
theorem parse_eq_error_iff {text : String} {fault : Fault} :
    parse text = .error fault ↔ ∃ stop, readDocument (normalizeLines text.toList) = .error stop ∧
      stop.fault (normalizeLines text.toList) = fault := by
  rw [parse]
  split
  · next h => simp [h]
  · next h => simp [h]

/-- Reading stops in a text at the place that the text before it reaches. -/
theorem Stop.fault_append (cause : Cause) (before rest : List Char) :
    Stop.fault (before ++ rest) ⟨cause, rest⟩ = ⟨cause, .after before⟩ := by
  rw [Stop.fault, Place.within, List.length_append, Nat.add_sub_cancel, List.take_left]

/-- A text that is rejected for what follows the root element is a document up to the place of the
fault, where a character other than a space stands. A document with such a character after it, that
starts no comment or instruction, is rejected like that at its end, and a document with more of what
may be skipped after it stays the same. -/
theorem parse_append (text : String) :
    (∀ fault, parse text = .error fault →
      fault.cause.message = "unexpected content after root element" →
      ∃ before c after root, normalizeLines text.toList = before ++ c :: after ∧
        isSpace c = false ∧ fault.place = .after before ∧ parse (.ofList before) = .ok root) ∧
    ∀ root, parse text = .ok root →
      (∀ more : String, more ≠ "" → Stops isSpace more.toList → ¬ commentMark <+: more.toList →
        ¬ instructionMark <+: more.toList →
        ∃ fault, parse (text ++ more) = .error fault ∧
          fault.cause.message = "unexpected content after root element" ∧
          fault.place = .after (normalizeLines text.toList)) ∧
      ∀ more : String, MiscText more.toList → parse (text ++ more) = .ok root := by
  refine ⟨fun fault hfault hmessage => ?_, fun root hroot => ⟨?_, ?_⟩⟩
  · obtain ⟨⟨cause, rest⟩, hread, rfl⟩ := parse_eq_error_iff.1 hfault
    obtain rfl : cause = .contentAfterRoot := Cause.eq_of_message hmessage
    obtain ⟨before, root, hbefore, hno, hne, hs⟩ := readDocument_eq_contentAfterRoot_iff.1 hread
    obtain ⟨c, after, rfl⟩ := List.exists_cons_of_ne_nil hne
    refine ⟨before, c, after, root, hs, stops_cons.1 hno.space, ?_, ?_⟩
    · rw [hs, Stop.fault_append]
    · -- The text up to the fault is part of a normalized text, so there is nothing to normalize.
      have hcr : '\r' ∉ before := by
        have hwhole := not_mem_normalizeLines text.toList
        rw [hs, List.mem_append, not_or] at hwhole
        exact hwhole.1
      rwa [parse_eq_ok_iff, String.toList_ofList, (Normalizes.of_not_mem hcr).eq]
  · intro more hmore hspace hcomment hinstruction
    have hno := noMisc_normalizeLines hspace hcomment hinstruction
    have hne : normalizeLines more.toList ≠ [] :=
      normalizeLines_eq_nil_iff.not.2 (String.toList_eq_nil_iff.not.2 hmore)
    have happend : normalizeLines (text ++ more).toList =
        normalizeLines text.toList ++ normalizeLines more.toList := by
      rw [String.toList_append]
      refine normalizeLines_append fun hhead => ?_
      exact absurd (hspace _ hhead) (by decide)
    have hread := readDocument_eq_contentAfterRoot_iff.2
      ⟨_, root, parse_eq_ok_iff.1 hroot, hno, hne, happend⟩
    refine ⟨_, parse_eq_error_iff.2 ⟨_, hread, rfl⟩, rfl, ?_⟩
    rw [happend, Stop.fault_append]
  · intro more hmore
    obtain ⟨m, hm, happend⟩ := hmore.exists_normalizeLines text.toList
    rw [parse_eq_ok_iff, String.toList_append, happend]
    exact readDocument_append_misc (parse_eq_ok_iff.1 hroot) hm

/-- A document that ends in a CR may be followed by an LF, a comment and an instruction. Another element
after it is reported on the second line. -/
theorem parse_append_of_lines :
    let root : Element := ⟨⟨"a", none, []⟩, []⟩
    parse ("<a/>\r" ++ "\n<!-- b --><?c?>") = .ok root ∧
      (∃ fault, parse ("<a/>\r" ++ "<b/>") = .error fault ∧
        fault.cause.message = "unexpected content after root element" ∧ fault.place = ⟨2, 1⟩) ∧
      ∃ before c after root, normalizeLines "<a/>\r<b/>".toList = before ++ c :: after ∧
        isSpace c = false ∧ Place.after before = ⟨2, 1⟩ ∧ parse (.ofList before) = .ok root := by
  intro root
  have hroot : parse "<a/>\r" = .ok root := by decide +kernel
  obtain ⟨hfault, hmisc⟩ := (parse_append "<a/>\r").2 root hroot
  have hcomment : CommentText "<!-- b -->".toList :=
    ⟨[' ', 'b', ' '], by decide, by decide, by decide⟩
  have hinstruction : InstructionText "c" "<?c?>".toList :=
    ⟨[], by decide +kernel, stops_nil, by decide, by decide⟩
  have hmore : MiscText "\n<!-- b --><?c?>".toList :=
    .space (by decide) (.comment hcomment (.instruction hinstruction (by decide) .nil))
  have hrejected : ∃ fault, parse ("<a/>\r" ++ "<b/>") = .error fault ∧
      fault.cause.message = "unexpected content after root element" ∧ fault.place = ⟨2, 1⟩ :=
    hfault "<b/>" (by decide) (stops_cons.2 (by decide)) (by decide) (by decide)
  refine ⟨hmisc _ hmore, hrejected, ?_⟩
  obtain ⟨fault, hparse, hmessage, hplace⟩ := hrejected
  obtain ⟨before, c, after, root', hs, hc, hbefore, hok⟩ := (parse_append _).1 fault hparse hmessage
  exact ⟨before, c, after, root', hs, hc, hbefore.symm.trans hplace, hok⟩

/-- An instruction after the root element may not have the name of a declaration in upper case. -/
theorem not_parse_append_of_upperCase :
    ¬ ∀ (text more target : String) (root : Element), parse text = .ok root →
      InstructionText target more.toList → target ≠ "xml" → parse (text ++ more) = .ok root := by
  intro h
  have hroot : parse "<a/>" = .ok ⟨⟨"a", none, []⟩, []⟩ := by decide +kernel
  have hinstruction : InstructionText "XML" "<?XML?>".toList :=
    ⟨[], by decide +kernel, stops_nil, by decide, by decide⟩
  have hparse := h _ _ _ _ hroot hinstruction (by decide)
  have hfault : parse ("<a/>" ++ "<?XML?>") = .error ⟨.misplacedDeclaration, ⟨1, 5⟩⟩ := by
    decide +kernel
  rw [hfault] at hparse
  exact absurd hparse (by simp)

end ParamClass.Xml

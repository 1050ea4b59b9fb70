import ParamClass.Proofs.Grammar.Element
import ParamClass.Proofs.Grammar.Markup
import ParamClass.Proofs.Lines

/-!
# The grammar of documents

A document without a document type declaration is an optional byte order mark, a prolog, an element
and what may follow it. Reading a text gives a root element exactly when the text, with its line ends
normalized, is a document of this grammar that denotes the element. Where the root element starts at
once, that holds whatever else the text contains (`readDocument_eq_ok_iff_of_start`).
-/

namespace ParamClass.Xml

open Text

/-- What may stand before a root element: what may stand after it, and before that one instruction
that may be an XML declaration. -/
inductive PrologText : List Char → Prop where
  /-- No instruction at the very start, or one that is no declaration. -/
  | misc {s} (hs : MiscText s) : PrologText s
  /-- An instruction at the very start, declaration or not. -/
  | declaration {target t s} (ht : InstructionText target t) (hs : MiscText s) : PrologText (t ++ s)

/-- The text of a document with this root element. -/
def DocumentText (s : List Char) (root : Element) : Prop :=
  ∃ mark prolog element epilog, (mark = [] ∨ mark = ['\uFEFF']) ∧ PrologText prolog ∧
    ElementText noBindings element root ∧ MiscText epilog ∧
    s = mark ++ prolog ++ element ++ epilog

/-! ## Before the root element -/

/-- Where an element starts, nothing is to be skipped. -/
theorem noMisc_of_isNameStart {c : Char} (hc : isNameStart c = true) (s : List Char) :
    NoMisc ('<' :: c :: s) := by
  have hlead := Lead.of?_startTag hc s
  refine ⟨stops_cons.2 (by decide), ?_, ?_⟩
  · rw [after?_eq_none_iff]
    rintro ⟨r, hr⟩
    have hcomment : Lead.of? (commentMark ++ r) = some (.comment, r) := rfl
    rw [hr, hlead] at hcomment
    exact absurd hcomment (by simp)
  · rw [after?_eq_none_iff]
    rintro ⟨r, hr⟩
    have hinstruction : Lead.of? (instructionMark ++ r) = some (.instruction, r) := rfl
    rw [hr, hlead] at hinstruction
    exact absurd hinstruction (by simp)

/-- At the end of the text nothing is to be skipped. -/
theorem noMisc_nil : NoMisc [] := ⟨stops_nil, rfl, rfl⟩

/-- Where an element starts, there is no document type declaration. -/
theorem after?_doctypeMark {c : Char} (hc : isNameStart c = true) (s : List Char) :
    after? doctypeMark ('<' :: c :: s) = none := by
  rw [after?_eq_none_iff]
  rintro ⟨r, hr⟩
  have hdeclaration : Lead.of? (doctypeMark ++ r) = some (.declaration, _) := rfl
  rw [hr, Lead.of?_startTag hc] at hdeclaration
  exact absurd hdeclaration (by simp)

/-- The first character before a root element, or the one it starts with, is no byte order mark. -/
theorem PrologText.skipMark_append {p : List Char} (hp : PrologText p) (s : List Char) :
    skipMark (p ++ '<' :: s) = p ++ '<' :: s := by
  -- A comment and an instruction start with a `<`, and a space is no byte order mark.
  have hmisc : ∀ m : List Char, MiscText m → skipMark (m ++ '<' :: s) = m ++ '<' :: s := by
    intro m hm
    cases hm with
    | nil => rfl
    | @space c m hc _ =>
      rw [List.cons_append, skipMark.eq_def]
      split
      · next heq =>
        obtain ⟨rfl, -⟩ := List.cons.inj heq
        exact absurd hc (by decide)
      · rfl
    | comment ht =>
      obtain ⟨r, rfl⟩ := ht.exists_eq
      rfl
    | instruction ht =>
      obtain ⟨r, rfl⟩ := ht.exists_eq
      rfl
  rcases hp with hm | ⟨ht, -⟩
  · exact hmisc p hm
  · obtain ⟨r, rfl⟩ := ht.exists_eq
    rfl

/-- Skipping goes past an instruction at the very start, declaration or not. -/
theorem skipDeclaration_append {target : String} {t : List Char} (ht : InstructionText target t)
    (s : List Char) : skipDeclaration (t ++ s) = .ok s := by
  obtain ⟨r, rfl⟩ := ht.exists_eq
  rw [List.append_assoc, skipDeclaration, after?_append]
  dsimp only
  rw [readInstruction_eq_ok_iff.2 ⟨_, ht, (List.append_assoc _ _ _).symm⟩]
  rfl

/-- After the very start of a prolog, the rest of it may stand anywhere around a root element. -/
theorem PrologText.exists_skipDeclaration {p : List Char} (hp : PrologText p) {s : List Char}
    (hs : after? instructionMark s = none) :
    ∃ m, MiscText m ∧ skipDeclaration (p ++ s) = .ok (m ++ s) := by
  rcases hp with hm | ⟨ht, hm⟩
  · cases hm with
    | nil => exact ⟨[], .nil, by rw [skipDeclaration, List.nil_append, hs]⟩
    | @space c m hc hm =>
      refine ⟨c :: m, .space hc hm, ?_⟩
      rw [skipDeclaration, after?_eq_none_iff.2]
      rintro ⟨r, hr⟩
      obtain ⟨rfl, -⟩ := List.cons.inj hr
      exact absurd hc (by decide)
    | @comment t m ht hm =>
      refine ⟨t ++ m, .comment ht hm, ?_⟩
      obtain ⟨r, rfl⟩ := ht.exists_eq
      rfl
    | @instruction target t m ht _ hm =>
      exact ⟨m, hm, by rw [List.append_assoc, skipDeclaration_append ht]⟩
  · exact ⟨_, hm, by rw [List.append_assoc, skipDeclaration_append ht]⟩

/-- Skipping goes past a byte order mark and a prolog, up to what is there for other markup. -/
theorem PrologText.skipProlog_eq {mark p : List Char} (hmark : mark = [] ∨ mark = ['\uFEFF'])
    (hp : PrologText p) {s : List Char} (hs : NoMisc ('<' :: s)) :
    skipProlog (mark ++ p ++ '<' :: s) = skipDoctypes ('<' :: s) := by
  have hbom : skipMark (mark ++ p ++ '<' :: s) = p ++ '<' :: s := by
    rcases hmark with rfl | rfl
    · exact hp.skipMark_append _
    · rfl
  obtain ⟨m, hm, hskip⟩ := hp.exists_skipDeclaration hs.instruction
  have hmisc : skipMisc (m ++ '<' :: s) = .ok ('<' :: s) := by
    rw [hm.skipMisc_append, hs.skipMisc]
  rw [skipProlog, hbom, hskip]
  show (skipMisc (m ++ '<' :: s) >>= skipDoctypes) = _
  rw [hmisc]
  rfl

/-- Skipping goes past a byte order mark and a prolog, up to the element after it. -/
theorem PrologText.skipProlog_append {mark p : List Char} (hmark : mark = [] ∨ mark = ['\uFEFF'])
    (hp : PrologText p) {c : Char} (hc : isNameStart c = true) (s : List Char) :
    skipProlog (mark ++ p ++ '<' :: c :: s) = .ok ('<' :: c :: s) := by
  rw [hp.skipProlog_eq hmark (noMisc_of_isNameStart hc s), skipDoctypes, after?_doctypeMark hc]

/-- The reader has skipped at most a byte order mark. -/
theorem exists_mark (s : List Char) :
    ∃ mark, (mark = [] ∨ mark = ['\uFEFF']) ∧ s = mark ++ skipMark s := by
  unfold skipMark
  split
  · exact ⟨['\uFEFF'], .inr rfl, rfl⟩
  · exact ⟨[], .inl rfl, rfl⟩

/-- The reader has skipped a byte order mark and a prolog, and then a document type declaration. -/
theorem exists_prolog_skipDoctypes {s rest : List Char} (h : skipProlog s = .ok rest) :
    ∃ mark p r, (mark = [] ∨ mark = ['\uFEFF']) ∧ PrologText p ∧ skipDoctypes r = .ok rest ∧
      s = mark ++ p ++ r := by
  obtain ⟨mark, hmark, hs⟩ := exists_mark s
  rw [skipProlog, bind_eq_ok] at h
  obtain ⟨s', hdeclaration, h⟩ := h
  obtain ⟨rest', hmisc, hdoctypes⟩ := bind_eq_ok.1 h
  obtain ⟨m, hm, -, rfl⟩ := skipMisc_eq_ok_iff.1 hmisc
  -- The declaration, if there is one, makes the text after it a prolog of its own kind.
  have hprolog : ∃ p, PrologText p ∧ skipMark s = p ++ rest' := by
    unfold skipDeclaration at hdeclaration
    split at hdeclaration
    · exact ⟨m, .misc hm, Except.ok.inj hdeclaration⟩
    · next r hr =>
      obtain ⟨⟨target, s'⟩, hread, heq⟩ := map_eq_ok.1 hdeclaration
      obtain rfl : s' = m ++ rest' := heq
      obtain ⟨t, ht, htext⟩ := readInstruction_eq_ok_iff.1 hread
      refine ⟨t ++ m, .declaration ht hm, ?_⟩
      rw [after?_eq_some.1 hr, htext, List.append_assoc]
  obtain ⟨p, hp, hskip⟩ := hprolog
  rw [hskip, ← List.append_assoc] at hs
  exact ⟨mark, p, rest', hmark, hp, hdoctypes, hs⟩

/-- Without a document type declaration, the reader has skipped a byte order mark and a prolog. -/
theorem exists_prolog {s rest : List Char} (hdoctype : ¬ doctypeMark <:+: s)
    (h : skipProlog s = .ok rest) :
    ∃ mark p, (mark = [] ∨ mark = ['\uFEFF']) ∧ PrologText p ∧ s = mark ++ p ++ rest := by
  obtain ⟨mark, p, r, hmark, hp, hdoctypes, hs⟩ := exists_prolog_skipDoctypes h
  unfold skipDoctypes at hdoctypes
  split at hdoctypes
  · obtain rfl := Except.ok.inj hdoctypes
    exact ⟨mark, p, hmark, hp, hs⟩
  · next r' hr =>
    -- The mark of a declaration that is found here stands in the text.
    rw [hs, after?_eq_some.1 hr] at hdoctype
    exact absurd ((List.prefix_append _ _).isInfix.trans (List.suffix_append _ _).isInfix) hdoctype

/-! ## The whole document -/

/-- Reading a document succeeds exactly when an element that is not too deep follows the prolog, and
nothing but what may be skipped follows it. -/
theorem readDocument_eq_ok_iff {s : List Char} {root : Element} :
    readDocument s = .ok root ↔
      ∃ t m, ElementText noBindings t root ∧ MiscText m ∧ root.depth ≤ maxDepth ∧
        skipProlog s = .ok (t ++ m) := by
  constructor
  · intro h
    rw [readDocument, bind_eq_ok] at h
    obtain ⟨rest, hprolog, h⟩ := h
    split at h
    · exact absurd h (by simp)
    · next r =>
      obtain ⟨⟨root', rest⟩, hroot, h⟩ := bind_eq_ok.1 h
      obtain ⟨rest', hmisc, h⟩ := bind_eq_ok.1 h
      obtain ⟨t, ht, hdepth, hr⟩ := readElement_eq_ok_iff.1 hroot
      obtain ⟨m, hm, -, hrest⟩ := skipMisc_eq_ok_iff.1 hmisc
      split_ifs at h with hnil
      obtain rfl : root' = root := Except.ok.inj h
      obtain rfl : rest = m := by rw [hrest, hnil, List.append_nil]
      exact ⟨t, rest, ht, hm, hdepth, hr ▸ hprolog⟩
    · exact absurd h (by simp)
  · rintro ⟨t, m, ht, hm, hdepth, hprolog⟩
    obtain ⟨c, r, rfl, hc⟩ := ht.exists_eq
    have hroot : ∀ start, readElement start (c :: (r ++ m)) = .ok (root, m) :=
      fun start => readElement_eq_ok_iff.2 ⟨_, ht, hdepth, rfl⟩
    have hmisc : skipMisc m = .ok [] := skipMisc_eq_ok_iff.2 ⟨m, hm, noMisc_nil, by simp⟩
    rw [readDocument, bind_eq_ok]
    refine ⟨_, hprolog, ?_⟩
    show (readElement _ _ >>= fun x => skipMisc x.2 >>= fun s => _) = _
    rw [bind_eq_ok]
    refine ⟨_, hroot _, ?_⟩
    rw [bind_eq_ok]
    exact ⟨[], hmisc, rfl⟩

/-- A text is parsed exactly when it is read as a document with its line ends normalized. -/
theorem parse_eq_ok_iff {text : String} {root : Element} :
    parse text = .ok root ↔ readDocument (normalizeLines text.toList) = .ok root := by
  rw [parse]
  split
  · next h => rw [h, Except.ok.injEq, Except.ok.injEq]
  · next h =>
    rw [h]
    simp

/-- Where the root element starts at once, a document is read exactly when it is an element that is
not too deep, and what may be skipped after it. -/
theorem readDocument_eq_ok_iff_of_start {s : List Char}
    (h : ∃ c r, s = '<' :: c :: r ∧ isNameStart c = true) {root : Element} :
    readDocument s = .ok root ↔
      ∃ t m, ElementText noBindings t root ∧ MiscText m ∧ root.depth ≤ maxDepth ∧ s = t ++ m := by
  obtain ⟨c, r, rfl, hc⟩ := h
  have hprolog : skipProlog ('<' :: c :: r) = .ok ('<' :: c :: r) :=
    PrologText.skipProlog_append (.inl rfl) (.misc .nil) hc r
  rw [readDocument_eq_ok_iff, hprolog]
  constructor
  · rintro ⟨t, m, ht, hm, hdepth, h⟩
    exact ⟨t, m, ht, hm, hdepth, Except.ok.inj h⟩
  · rintro ⟨t, m, ht, hm, hdepth, h⟩
    exact ⟨t, m, ht, hm, hdepth, congrArg Except.ok h⟩

/-- An element, what may be skipped and something else after it are no document. -/
theorem readDocument_eq_contentAfterRoot {s t m r : List Char} {root : Element}
    (hprolog : skipProlog s = .ok (t ++ (m ++ r))) (ht : ElementText noBindings t root)
    (hdepth : root.depth ≤ maxDepth) (hm : MiscText m) (hr : NoMisc r) (hne : r ≠ []) :
    readDocument s = .error ⟨.contentAfterRoot, r⟩ := by
  obtain ⟨c, body, rfl, -⟩ := ht.exists_eq
  have hroot : ∀ start, readElement start (c :: (body ++ (m ++ r))) = .ok (root, m ++ r) :=
    fun start => readElement_eq_ok_iff.2 ⟨_, ht, hdepth, rfl⟩
  have hmisc : skipMisc (m ++ r) = .ok r := by rw [hm.skipMisc_append, hr.skipMisc]
  rw [List.cons_append, List.cons_append] at hprolog
  rw [readDocument, hprolog]
  show (readElement _ _ >>= fun x => skipMisc x.2 >>= fun s => _) = _
  rw [hroot]
  show (skipMisc (m ++ r) >>= fun s => _) = _
  rw [hmisc]
  exact if_neg hne

/-- Without a document type declaration, a text is parsed exactly when it is a document of the
grammar, with its line ends normalized, that is not too deep; what is read is what it denotes. -/
theorem parse_eq_ok_iff_documentText {text : String} (hdoctype : ¬ doctypeMark <:+: text.toList)
    {root : Element} :
    parse text = .ok root ↔
      DocumentText (normalizeLines text.toList) root ∧ root.depth ≤ maxDepth := by
  have hnormal : ¬ doctypeMark <:+: normalizeLines text.toList :=
    fun h => hdoctype (infix_of_infix_normalizeLines (by decide) (by decide) h)
  rw [parse_eq_ok_iff, readDocument_eq_ok_iff]
  constructor
  · rintro ⟨t, m, ht, hm, hdepth, h⟩
    obtain ⟨mark, p, hmark, hp, hs⟩ := exists_prolog hnormal h
    exact ⟨⟨mark, p, t, m, hmark, hp, ht, hm, by rw [hs, List.append_assoc _ t]⟩, hdepth⟩
  · rintro ⟨⟨mark, p, t, m, hmark, hp, ht, hm, hs⟩, hdepth⟩
    refine ⟨t, m, ht, hm, hdepth, ?_⟩
    obtain ⟨c, r, rfl, hc⟩ := ht.exists_eq
    rw [hs, List.append_assoc]
    exact hp.skipProlog_append hmark hc _

/-- A text with a declaration, a comment that holds the start of one, a prefix that its own tag
declares, a reference and character data is the document that is read from it. -/
theorem documentText_of_declared :
    let text := "<?xml version='1.0'?>\r\n<r xmlns='u'><!-- <! --><p:e xmlns:p='v' a='1\t2'/>" ++
      "a&#62;<![CDATA[<]]></r>\r"
    let root : Element :=
      ⟨⟨"r", some "u", []⟩, [.element ⟨"e", some "v", [⟨"a", none, "1 2"⟩]⟩ [], .text "a><"]⟩
    ¬ doctypeMark <:+: text.toList ∧
      DocumentText (normalizeLines text.toList) root ∧ root.depth ≤ maxDepth := by
  intro text root
  have hdoctype : ¬ doctypeMark <:+: text.toList := by decide +kernel
  have hparse : parse text = .ok root := by decide +kernel
  exact ⟨hdoctype, (parse_eq_ok_iff_documentText hdoctype).1 hparse⟩

end ParamClass.Xml

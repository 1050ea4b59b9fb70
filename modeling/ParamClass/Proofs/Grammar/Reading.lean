import ParamClass.Proofs.Grammar.Content
import ParamClass.Xml.Content

/-!
# Reading content piece by piece

`Piece` says all that one step of the reader can do: which text it takes from the front, and what
it makes of the open elements. The reader keeps the nodes of an open element in reverse; a whole
content adds its nodes to them (`Frame.withNodes`), and an element that has got merged nodes closes
with these.
-/

namespace ParamClass.Xml

open Text

/-! ## Nodes of an open element -/

/-- Nodes, the last one first, followed by one more. -/
def addNode (before : List Node) : Node → List Node
  | .text content => addText content.toList before
  | .element head children => .element head children :: before

/-- The frame with the nodes of some content after its own. -/
def Frame.withNodes (frame : Frame) (nodes : List Node) : Frame :=
  { frame with nodes := nodes.foldl addNode frame.nodes }

/-- An empty text adds nothing. -/
theorem addText_nil (before : List Node) : addText [] before = before := by
  rcases before with _ | ⟨_ | content, before⟩
  · rfl
  · rfl
  · rw [addText, String.ofList_nil, String.append_empty]

/-- Two texts are added as one. -/
theorem addText_append (s t : List Char) (before : List Node) :
    addText (s ++ t) before = addText t (addText s before) := by
  -- Behind anything but a text, the first text that is not empty is a node of its own.
  have hfresh : ∀ before : List Node,
      (∀ u, addText u before = if u = [] then before else .text (.ofList u) :: before) →
      addText (s ++ t) before = addText t (addText s before) := by
    intro before h
    by_cases hs : s = []
    · rw [hs, List.nil_append, addText_nil]
    · rw [h, h, if_neg hs, if_neg (by simp [hs]), addText, String.ofList_append]
  rcases before with _ | ⟨_ | content, before⟩
  · exact hfresh [] fun u => rfl
  · exact hfresh _ fun u => rfl
  · rw [addText, addText, addText, String.ofList_append, String.append_assoc]

/-- Adding nodes with a text in front adds the text first. -/
theorem foldl_addNode_prependText (text : List Char) (nodes before : List Node) :
    (prependText text nodes).foldl addNode before = nodes.foldl addNode (addText text before) := by
  rcases prependText_eq text nodes with ⟨content, rest, rfl, heq⟩ | ⟨-, heq⟩
  · rw [heq, List.foldl_cons, List.foldl_cons, addNode, addNode, String.toList_append,
      String.toList_ofList, addText_append]
  · rw [heq]
    split_ifs with ht
    · rw [ht, addText_nil]
    · rw [List.foldl_cons, addNode, String.toList_ofList]

/-- Merged nodes are added one by one, where no text meets a text before. -/
theorem Merged.foldl_addNode {nodes before : List Node} (h : Merged nodes)
    (hmeet : ∀ s t, before.head? = some (.text s) → nodes.head? ≠ some (.text t)) :
    nodes.foldl addNode before = nodes.reverse ++ before := by
  -- After the first node nothing meets any more, since the nodes are merged among themselves.
  induction nodes generalizing before with
  | nil => rfl
  | cons n nodes ih =>
    rw [List.foldl_cons, List.reverse_cons, List.append_assoc, List.singleton_append]
    rcases n with ⟨head, children⟩ | content
    · exact ih h (by simp [addNode])
    · obtain ⟨hne, hhead, hrest⟩ := h
      have hne' : content.toList ≠ [] := by simpa using hne
      have hadd : addText content.toList before = .text content :: before := by
        rcases before with _ | ⟨_ | other, before⟩
        · rw [addText, if_neg hne', String.ofList_toList]
          simp
        · rw [addText, if_neg hne', String.ofList_toList]
          simp
        · exact absurd rfl (hmeet other content rfl)
      rw [addNode, hadd]
      exact ih hrest fun _ t _ => hhead t

/-- A text and nodes after it are added as these nodes with the text in front. -/
theorem Frame.withText_withNodes (frame : Frame) (text : List Char) (nodes : List Node) :
    (frame.withText text).withNodes nodes = frame.withNodes (prependText text nodes) := by
  rw [withNodes, withNodes, withText, foldl_addNode_prependText]

/-- An open element that has got merged nodes as its content closes with these nodes. -/
theorem Merged.close_withNodes {nodes : List Node} (h : Merged nodes) (name : String) (head : Head)
    (scope : Scope) : ((⟨name, head, scope, []⟩ : Frame).withNodes nodes).close = ⟨head, nodes⟩ := by
  rw [Frame.close, Frame.withNodes]
  dsimp only
  rw [h.foldl_addNode (by simp), List.append_nil, List.reverse_reverse]

/-! ## Pieces -/

/-- What one step of the reader does inside `top` and `outer`: the text it starts from, what becomes
of the open elements, and the text it leaves. -/
inductive Piece (top : Frame) (outer : List Frame) : List Char → Progress → List Char → Prop where
  /-- A plain character. -/
  | char {c rest} (hlt : c ≠ '<') (hamp : c ≠ '&') (hend : ¬ cdataEnd <+: c :: rest) :
      Piece top outer (c :: rest) (.inside (top.withText [c]) outer) rest
  /-- A reference. -/
  | reference {t c rest} (ht : ReferenceText t c) :
      Piece top outer (t ++ rest) (.inside (top.withText [c]) outer) rest
  /-- A section of character data. -/
  | cdata {text rest} (htext : ¬ cdataEnd <:+: text) :
      Piece top outer (cdataMark ++ text ++ cdataEnd ++ rest) (.inside (top.withText text) outer) rest
  /-- A comment. -/
  | comment {t rest} (ht : CommentText t) : Piece top outer (t ++ rest) (.inside top outer) rest
  /-- An instruction that is no XML declaration. -/
  | instruction {target t rest} (ht : InstructionText target t) (hx : isDeclaration target = false) :
      Piece top outer (t ++ rest) (.inside top outer) rest
  /-- A start tag, of an element with content or without. -/
  | startTag {t tag head scope rest} (ht : TagText t tag) (hdepth : outer.length + 1 < maxDepth)
      (hresolve : tag.resolve top.scope = .ok (head, scope)) :
      Piece top outer (t ++ rest)
        (if tag.isEmpty then .inside (top.withElement ⟨head, []⟩) outer
          else .inside ⟨tag.name, head, scope, []⟩ (top :: outer)) rest
  /-- The end tag. -/
  | endTag {t rest} (ht : EndTagText top.tagName t) :
      Piece top outer (t ++ rest) (.after top.close outer) rest

/-- A lead is its mark, and what follows the mark. -/
theorem Lead.eq_of_of? {s r : List Char} {lead : Lead} (h : Lead.of? s = some (lead, r)) :
    s = lead.mark ++ r := by
  obtain ⟨l, -, hl⟩ := List.exists_of_findSome?_eq_some h
  obtain ⟨r', hr, heq⟩ := Option.map_eq_some_iff.1 hl
  obtain ⟨rfl, rfl⟩ := Prod.mk.inj heq
  exact after?_eq_some.1 hr

/-- Nothing leads exactly where no mark stands. -/
theorem Lead.of?_eq_none_iff {s : List Char} :
    Lead.of? s = none ↔ ∀ lead : Lead, ¬ lead.mark <+: s := by
  rw [Lead.of?, List.findSome?_eq_none_iff]
  constructor
  · intro h lead
    have := h lead (by cases lead <;> simp [all])
    rw [Option.map_eq_none_iff] at this
    exact after?_eq_none_iff.1 this
  · intro h lead _
    rw [after?_eq_none_iff.2 (h lead)]
    rfl

/-- A plain character leads nothing. -/
theorem Lead.of?_char {c : Char} {s : List Char} (hlt : c ≠ '<') (hamp : c ≠ '&')
    (hend : ¬ Xml.cdataEnd <+: c :: s) : Lead.of? (c :: s) = none := by
  rw [of?_eq_none_iff]
  intro lead hlead
  have hfirst : ∀ m ms, m :: ms <+: c :: s → m = c := fun m ms h => (List.cons_prefix_cons.1 h).1
  cases lead with
  | cdataEnd => exact hend hlead
  | reference => exact hamp (hfirst _ _ hlead).symm
  | endTag => exact hlt (hfirst _ _ hlead).symm
  | comment => exact hlt (hfirst _ _ hlead).symm
  | cdata => exact hlt (hfirst _ _ hlead).symm
  | instruction => exact hlt (hfirst _ _ hlead).symm
  | declaration => exact hlt (hfirst _ _ hlead).symm
  | startTag => exact hlt (hfirst _ _ hlead).symm

/-- A name behind a `<` leads a start tag. -/
theorem Lead.of?_startTag {c : Char} (hc : isNameStart c = true) (s : List Char) :
    Lead.of? ('<' :: c :: s) = some (.startTag, c :: s) := by
  have hchar := isNameChar_of_isNameStart hc
  -- The marks that start with `<` too go on with characters that may not stand in a name.
  have hslash : '/' ≠ c := ne_of_isNameChar hchar (isNameChar_eq_false (by simp))
  have hquestion : '?' ≠ c := ne_of_isNameChar hchar (isNameChar_eq_false (by simp))
  have hbang : '!' ≠ c := ne_of_isNameChar hchar (by decide +kernel)
  simp [of?, all, mark, after?, commentMark, instructionMark, hslash, hquestion, hbang]

/-- A start tag is opened exactly when the tag is one, fewer than `maxDepth` elements are open
around it and its names resolve. -/
theorem openElement_eq_ok_iff {outer : List Frame} {start s rest : List Char} {p : Progress} :
    openElement outer start s = .ok (p, rest) ↔
      outer.length < maxDepth ∧ ∃ t tag head scope, TagText t tag ∧
        tag.resolve (scopeOf outer) = .ok (head, scope) ∧ '<' :: s = t ++ rest ∧
        p = if tag.isEmpty then .after ⟨head, []⟩ outer
          else .inside ⟨tag.name, head, scope, []⟩ outer := by
  rw [openElement]
  constructor
  · intro h
    split_ifs at h with hdepth
    refine ⟨Nat.lt_of_not_le hdepth, ?_⟩
    split at h
    · exact absurd h (by simp)
    · next tag r hread =>
      obtain ⟨t, ht, hs⟩ := readTag_eq_ok_iff.1 hread
      split at h
      · exact absurd h (by simp)
      · next head scope hresolve =>
        refine ⟨t, tag, head, scope, ht, hresolve, ?_⟩
        split_ifs at h with hempty
        · obtain ⟨rfl, rfl⟩ := Prod.mk.inj (Except.ok.inj h)
          exact ⟨hs, by rw [if_pos hempty]⟩
        · obtain ⟨rfl, rfl⟩ := Prod.mk.inj (Except.ok.inj h)
          exact ⟨hs, by rw [if_neg hempty]⟩
  · rintro ⟨hdepth, t, tag, head, scope, ht, hresolve, hs, rfl⟩
    rw [if_neg (Nat.not_le.2 hdepth), readTag_eq_ok_iff.2 ⟨t, ht, hs⟩]
    dsimp only
    rw [hresolve]
    dsimp only
    split_ifs <;> rfl

/-- A step of the reader that succeeds reads a piece. -/
theorem piece_of_readPiece {top : Frame} {outer : List Frame} {s rest : List Char} {p : Progress}
    (h : readPiece top outer s = .ok (p, rest)) : Piece top outer s p rest := by
  rw [readPiece.eq_def] at h
  -- One case for each mark that may lead, in the order in which the reader looks for them.
  split at h
  · next r hl =>
    obtain ⟨a, ha, heq⟩ := map_eq_ok.1 h
    obtain ⟨rfl, rfl⟩ := Prod.mk.inj heq
    obtain ⟨t, ht, hs⟩ := readEndTag_eq_ok_iff.1 ha
    rw [Lead.eq_of_of? hl, Lead.mark, hs]
    exact .endTag ht
  · next r hl =>
    obtain ⟨a, ha, heq⟩ := map_eq_ok.1 h
    obtain ⟨rfl, rfl⟩ := Prod.mk.inj heq
    obtain ⟨t, ht, hs⟩ := readComment_eq_ok_iff.1 ha
    rw [Lead.eq_of_of? hl, Lead.mark, hs]
    exact .comment ht
  · next r hl =>
    split at h
    · exact absurd h (by simp)
    · next text r' hc =>
      obtain ⟨rfl, rfl⟩ := Prod.mk.inj (Except.ok.inj h)
      obtain ⟨rfl, htext⟩ := (cut?_eq_some_iff_of_last (by simp) (by decide)).1 hc
      rw [Lead.eq_of_of? hl, Lead.mark, ← List.append_assoc, ← List.append_assoc]
      exact .cdata htext
  · next r hl =>
    obtain ⟨a, ha, heq⟩ := map_eq_ok.1 h
    obtain ⟨rfl, rfl⟩ := Prod.mk.inj heq
    obtain ⟨target, t, ht, hx, hs⟩ := readPlainInstruction_eq_ok_iff.1 ha
    rw [Lead.eq_of_of? hl, Lead.mark, hs]
    exact .instruction ht hx
  · exact absurd h (by simp)
  · next r hl =>
    obtain ⟨hdepth, t, tag, head, scope, ht, hresolve, hs, rfl⟩ := openElement_eq_ok_iff.1 h
    rw [Lead.eq_of_of? hl, Lead.mark, List.singleton_append, hs]
    exact .startTag ht hdepth hresolve
  · next r hl =>
    obtain ⟨⟨c, a⟩, ha, heq⟩ := map_eq_ok.1 h
    obtain ⟨rfl, rfl⟩ := Prod.mk.inj heq
    obtain ⟨t, ht, hs⟩ := readReference_eq_ok_iff.1 ha
    rw [Lead.eq_of_of? hl, Lead.mark, List.singleton_append, hs]
    exact .reference ht
  · exact absurd h (by simp)
  · next hl =>
    -- No mark stands here, not even the `<` of a start tag or the `&` of a reference.
    rw [Lead.of?_eq_none_iff] at hl
    split at h
    · exact absurd h (by simp)
    · next c r =>
      obtain ⟨rfl, rfl⟩ := Prod.mk.inj (Except.ok.inj h)
      refine .char ?_ ?_ (hl .cdataEnd)
      · rintro rfl
        exact hl .startTag ⟨r, rfl⟩
      · rintro rfl
        exact hl .reference ⟨r, rfl⟩

/-- A piece is read in one step. -/
theorem Piece.readPiece {top : Frame} {outer : List Frame} {s rest : List Char} {p : Progress}
    (h : Piece top outer s p rest) : readPiece top outer s = .ok (p, rest) := by
  rw [readPiece.eq_def]
  cases h with
  | char hlt hamp hend => rw [Lead.of?_char hlt hamp hend]
  | @reference t c rest ht =>
    obtain ⟨r, rfl⟩ := ht.exists_eq
    have hl : Lead.of? ('&' :: r ++ rest) = some (.reference, r ++ rest) := rfl
    have hread : readReference (r ++ rest) = .ok (c, rest) :=
      readReference_eq_ok_iff.2 ⟨_, ht, rfl⟩
    rw [hl]
    dsimp only
    rw [hread]
    rfl
  | @cdata text rest htext =>
    have hl : Lead.of? (cdataMark ++ text ++ cdataEnd ++ rest) =
        some (.cdata, text ++ cdataEnd ++ rest) := rfl
    have hcut : cut? [']', ']', '>'] (text ++ cdataEnd ++ rest) = some (text, rest) :=
      (cut?_eq_some_iff_of_last (by simp) (by decide)).2 ⟨rfl, htext⟩
    rw [hl]
    dsimp only
    rw [hcut]
  | comment ht =>
    obtain ⟨r, rfl⟩ := ht.exists_eq
    have hl : Lead.of? (commentMark ++ r ++ rest) = some (.comment, r ++ rest) := rfl
    rw [hl]
    dsimp only
    rw [readComment_eq_ok_iff.2 ⟨_, ht, (List.append_assoc _ _ _).symm⟩]
    rfl
  | instruction ht hx =>
    obtain ⟨r, rfl⟩ := ht.exists_eq
    have hl : Lead.of? (instructionMark ++ r ++ rest) = some (.instruction, r ++ rest) := rfl
    rw [hl]
    dsimp only
    rw [readPlainInstruction_eq_ok_iff.2 ⟨_, _, ht, hx, (List.append_assoc _ _ _).symm⟩]
    rfl
  | startTag ht hdepth hresolve =>
    obtain ⟨c, r, rfl, hc⟩ := ht.exists_eq
    rw [List.cons_append, List.cons_append, Lead.of?_startTag hc]
    dsimp only
    rw [openElement_eq_ok_iff]
    exact ⟨hdepth, _, _, _, _, ht, hresolve, rfl, rfl⟩
  | endTag ht =>
    obtain ⟨r, rfl⟩ := ht.exists_eq
    have hl : Lead.of? (['<', '/'] ++ r ++ rest) = some (.endTag, r ++ rest) := rfl
    rw [hl]
    dsimp only
    rw [readEndTag_eq_ok_iff.2 ⟨_, ht, (List.append_assoc _ _ _).symm⟩]
    rfl

/-- Reading goes on after a piece. -/
theorem Piece.readContent {top : Frame} {outer : List Frame} {s rest : List Char} {p : Progress}
    (h : Piece top outer s p rest) : readContent (.inside top outer) s = readContent p rest := by
  rw [Xml.readContent, h.readPiece]

end ParamClass.Xml

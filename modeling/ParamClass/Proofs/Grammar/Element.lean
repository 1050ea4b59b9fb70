import ParamClass.Proofs.Grammar.Reading

/-!
# Reading elements

Reading goes past content in one move (`ContentText.readContent_append`), whatever is open around it
and whatever follows its end tag, and past an element in the same way
(`ElementText.readInside_append`). It gets out of an open element only by taking content and an end
tag (`exists_content`). Together they make reading the root element succeed exactly on an element of
the grammar with at most `maxDepth` elements inside each other.
-/

namespace ParamClass.Xml

open Text

/-! ## Past what the grammar allows -/

/-- Reads an element inside `outer`, and on until the outermost element is complete. -/
def readInside (outer : List Frame) (start s : List Char) : Except Stop (Element × List Char) :=
  match openElement outer start s with
  | .error stop => .error stop
  | .ok (progress, rest) => readContent progress rest

/-- A start tag inside an element is read as an element inside it. -/
theorem readContent_startTag {top : Frame} {outer : List Frame} {c : Char}
    (hc : isNameStart c = true) (s : List Char) :
    readContent (.inside top outer) ('<' :: c :: s) =
      readInside (top :: outer) ('<' :: c :: s) (c :: s) := by
  have hpiece : readPiece top outer ('<' :: c :: s) =
      openElement (top :: outer) ('<' :: c :: s) (c :: s) := by
    rw [readPiece.eq_def, Lead.of?_startTag hc]
  rw [readContent, hpiece, readInside]
  rcases openElement (top :: outer) ('<' :: c :: s) (c :: s) with stop | ⟨p, rest⟩
  · rfl
  · rfl

/-- An end of character data does not reach from content into the end tag after it. -/
theorem cdataEnd_prefix_append_iff {s : List Char} (rest : List Char) :
    cdataEnd <+: s ++ (['<', '/'] ++ rest) ↔ cdataEnd <+: s := by
  rcases s with _ | ⟨a, _ | ⟨b, _ | ⟨c, s⟩⟩⟩ <;> simp [cdataEnd]

/-- An element starts with a `<` and a character that starts a name. -/
theorem ElementText.exists_eq {bindings : Bindings} {t : List Char} {e : Element}
    (h : ElementText bindings t e) : ∃ c r, t = '<' :: c :: r ∧ isNameStart c = true := by
  rcases h with ⟨ht, -, -⟩ | ⟨ht, -, -, -, -⟩
  · exact ht.exists_eq
  · obtain ⟨c, r, rfl, hc⟩ := ht.exists_eq
    exact ⟨c, _, rfl, hc⟩

mutual

/-- Reading goes past content, up to the end tag after it, and adds its nodes. -/
theorem ContentText.readContent_append {bindings : Bindings} {s : List Char} {nodes : List Node}
    (h : ContentText bindings s nodes) {top : Frame} {outer : List Frame}
    (hscope : top.scope.uri? = bindings) (hdepth : outer.length + 1 + depthOf nodes ≤ maxDepth)
    (rest : List Char) :
    readContent (.inside top outer) (s ++ (['<', '/'] ++ rest)) =
      readContent (.inside (top.withNodes nodes) outer) (['<', '/'] ++ rest) := by
  have hscope' : ∀ text, (top.withText text).scope.uri? = bindings := fun _ => hscope
  match h with
  | .nil => rfl
  | .char hlt hamp hend hs =>
    rw [depthOf_prependText] at hdepth
    rw [← cdataEnd_prefix_append_iff rest, List.cons_append] at hend
    rw [List.cons_append, (Piece.char hlt hamp hend).readContent, ← Frame.withText_withNodes]
    exact hs.readContent_append (hscope' _) hdepth rest
  | .reference ht hs =>
    rw [depthOf_prependText] at hdepth
    rw [List.append_assoc, (Piece.reference ht).readContent, ← Frame.withText_withNodes]
    exact hs.readContent_append (hscope' _) hdepth rest
  | .cdata ht hs =>
    rw [depthOf_prependText] at hdepth
    rw [List.append_assoc, (Piece.cdata ht).readContent, ← Frame.withText_withNodes]
    exact hs.readContent_append (hscope' _) hdepth rest
  | .comment ht hs =>
    rw [List.append_assoc, (Piece.comment ht).readContent]
    exact hs.readContent_append hscope hdepth rest
  | .instruction ht hx hs =>
    rw [List.append_assoc, (Piece.instruction ht hx).readContent]
    exact hs.readContent_append hscope hdepth rest
  | @ContentText.element _ t e s nodes ht hs =>
    rw [depthOf] at hdepth
    obtain ⟨c, r, hr, hc⟩ := ht.exists_eq
    -- Past the element first, with `top` open around it, and then past the rest of the content.
    have hopen : readInside (top :: outer) ('<' :: c :: (r ++ (s ++ (['<', '/'] ++ rest))))
        (c :: (r ++ (s ++ (['<', '/'] ++ rest)))) =
          readContent (.inside (top.withElement e) outer) (s ++ (['<', '/'] ++ rest)) := by
      refine ht.readInside_append ?_ ?_ ?_
      · exact hscope
      · have : e.node.depth = e.depth := rfl
        rw [List.length_cons]
        omega
      · rw [hr]
        rfl
    have htop : (top.withElement e).scope.uri? = bindings := hscope
    rw [hr, List.append_assoc, List.cons_append, List.cons_append, readContent_startTag hc, hopen]
    exact hs.readContent_append htop (by omega) rest

/-- Reading goes past an element, whatever is open around it. -/
theorem ElementText.readInside_append {bindings : Bindings} {t : List Char} {e : Element}
    (h : ElementText bindings t e) {outer : List Frame} (hscope : (scopeOf outer).uri? = bindings)
    (hdepth : outer.length + e.depth ≤ maxDepth) {start s rest : List Char}
    (hs : '<' :: s = t ++ rest) : readInside outer start s = readContent (.after e outer) rest := by
  have hlt : outer.length < maxDepth := by
    have : e.depth = depthOf e.children + 1 := rfl
    omega
  match h with
  | @ElementText.empty _ t tag head ht hempty hmeans =>
    rw [← hscope] at hmeans
    obtain ⟨scope, hresolve, -⟩ := hmeans.exists_resolve
    rw [readInside, openElement_eq_ok_iff.2 ⟨hlt, t, tag, head, scope, ht, hresolve, hs, rfl⟩]
    dsimp only
    rw [if_pos hempty]
  | @ElementText.filled _ t tag head inner nodes e ht hempty hmeans hcontent he =>
    rw [← hscope] at hmeans
    obtain ⟨scope, hresolve, hinside⟩ := hmeans.exists_resolve
    obtain ⟨r, hr⟩ := he.exists_eq
    have hs' : '<' :: s = t ++ (inner ++ (e ++ rest)) := by
      rw [hs, List.append_assoc, List.append_assoc]
    have hframe : (⟨tag.name, head, scope, []⟩ : Frame).scope.uri? =
        bindingsInside bindings tag.attributes := by
      rw [← hscope, ← hinside]
    have hdepth' : outer.length + 1 + depthOf nodes ≤ maxDepth := by
      have : (⟨head, nodes⟩ : Element).depth = depthOf nodes + 1 := rfl
      omega
    -- The content ends where its end tag stands, and the end tag closes it with its nodes.
    have hcontent' := hcontent.readContent_append hframe hdepth' (r ++ rest)
    rw [readInside, openElement_eq_ok_iff.2 ⟨hlt, t, tag, head, scope, ht, hresolve, hs', rfl⟩]
    dsimp only
    rw [← List.append_assoc ['<', '/'], ← hr] at hcontent'
    rw [if_neg (by simp [hempty]), hcontent', (Piece.endTag he).readContent,
      hcontent.merged.close_withNodes]

end

/-! ## Only what the grammar allows -/

/-- The reader gets out of `top` with content, the end tag and what it does afterwards. -/
def GetsOut (top : Frame) (outer : List Frame) (s : List Char) (result : Element × List Char) :
    Prop :=
  ∃ t nodes e rest, ContentText top.scope.uri? t nodes ∧ EndTagText top.tagName e ∧
    s = t ++ e ++ rest ∧ outer.length + 1 + depthOf nodes ≤ maxDepth ∧
    readContent (.after (top.withNodes nodes).close outer) rest = .ok result

/-- Getting out after a text is getting out, when the text and any content after it are content. -/
theorem GetsOut.of_withText {top : Frame} {outer : List Frame} {s : List Char} {text t : List Char}
    {result : Element × List Char} (h : GetsOut (top.withText text) outer s result)
    (hcontent : ∀ s' nodes, s' <+: s → ContentText top.scope.uri? s' nodes →
      ContentText top.scope.uri? (t ++ s') (prependText text nodes)) :
    GetsOut top outer (t ++ s) result := by
  obtain ⟨s', nodes, e, rest, hs', he, rfl, hdepth, hafter⟩ := h
  have hpre : s' <+: s' ++ e ++ rest := ⟨e ++ rest, (List.append_assoc _ _ _).symm⟩
  rw [Frame.withText_withNodes] at hafter
  have hsplit : t ++ (s' ++ e ++ rest) = t ++ s' ++ e ++ rest := by simp
  refine ⟨t ++ s', prependText text nodes, e, rest, hcontent s' nodes hpre hs', he, hsplit, ?_, hafter⟩
  rwa [depthOf_prependText]

/-- Getting out after an element is getting out. -/
theorem GetsOut.of_withElement {top : Frame} {outer : List Frame} {s t : List Char} {e : Element}
    {result : Element × List Char} (h : GetsOut (top.withElement e) outer s result)
    (ht : ElementText top.scope.uri? t e) (hdepth : outer.length + 1 + e.depth ≤ maxDepth) :
    GetsOut top outer (t ++ s) result := by
  obtain ⟨s', nodes, e', rest, hs', he, rfl, hdepth', hafter⟩ := h
  refine ⟨t ++ s', e.node :: nodes, e', rest, .element ht hs', he, by simp, ?_, hafter⟩
  have : e.node.depth = e.depth := rfl
  rw [depthOf]
  omega

/-- Getting out of an element whose start tag was read is reading an element and going on after it. -/
theorem GetsOut.exists_element {t : List Char} {tag : Tag} {head : Head} {scope : Scope}
    {outer : List Frame} {s : List Char} {result : Element × List Char}
    (h : GetsOut ⟨tag.name, head, scope, []⟩ outer s result) (ht : TagText t tag)
    (hempty : tag.isEmpty = false) (hresolve : tag.resolve (scopeOf outer) = .ok (head, scope)) :
    ∃ u e rest, ElementText (scopeOf outer).uri? u e ∧ t ++ s = u ++ rest ∧
      rest.length ≤ s.length ∧ outer.length + e.depth ≤ maxDepth ∧
      readContent (.after e outer) rest = .ok result := by
  obtain ⟨hmeans, hinside⟩ := Tag.means_of_resolve hresolve
  obtain ⟨inner, nodes, e, rest, hinner, he, rfl, hdepth, hafter⟩ := h
  rw [hinner.merged.close_withNodes] at hafter
  have hcontent : ContentText (bindingsInside (scopeOf outer).uri? tag.attributes) inner nodes := by
    rw [← hinside]
    exact hinner
  have hlen : rest.length ≤ (inner ++ e ++ rest).length := by
    rw [List.length_append]
    omega
  have hdepth' : outer.length + (⟨head, nodes⟩ : Element).depth ≤ maxDepth := by
    show outer.length + (depthOf nodes + 1) ≤ maxDepth
    omega
  have hsplit : t ++ (inner ++ e ++ rest) = t ++ inner ++ e ++ rest := by simp
  exact ⟨_, _, rest, .filled ht hempty hmeans hcontent he, hsplit, hlen, hdepth', hafter⟩

/-- The reader gets out of an open element only with content and its end tag. The induction is on
the length of the text, because an element inside is left in two moves: out of it, and on from
there. -/
theorem exists_content {top : Frame} {outer : List Frame} {s : List Char}
    {result : Element × List Char} (hdepth : outer.length < maxDepth)
    (h : readContent (.inside top outer) s = .ok result) : GetsOut top outer s result := by
  induction hn : s.length using Nat.strongRecOn generalizing top outer s with
  | ind n ih =>
    subst hn
    rw [readContent] at h
    split at h
    · exact absurd h (by simp)
    · next p rest hpiece =>
      have hlen := readPiece_length hpiece
      have hp := piece_of_readPiece hpiece
      cases hp with
      | @char c rest hlt hamp hend =>
        refine (ih _ hlen hdepth h rfl).of_withText (t := [c]) fun s' nodes hpre hs' => ?_
        refine .char hlt hamp ?_ hs'
        exact fun hi => hend (hi.trans ((List.prefix_cons_inj c).2 hpre))
      | reference ht =>
        exact (ih _ hlen hdepth h rfl).of_withText fun s' nodes _ hs' => .reference ht hs'
      | cdata htext =>
        exact (ih _ hlen hdepth h rfl).of_withText fun s' nodes _ hs' => .cdata htext hs'
      | comment ht =>
        obtain ⟨s', nodes, e, r, hs', he, rfl, hd, hafter⟩ := ih _ hlen hdepth h rfl
        exact ⟨_, nodes, e, r, .comment ht hs', he, by simp, hd, hafter⟩
      | instruction ht hx =>
        obtain ⟨s', nodes, e, r, hs', he, rfl, hd, hafter⟩ := ih _ hlen hdepth h rfl
        exact ⟨_, nodes, e, r, .instruction ht hx hs', he, by simp, hd, hafter⟩
      | @startTag t tag head scope rest ht hopen hresolve =>
        -- An empty tag is an element already; otherwise the reader first gets out of the element,
        -- and from behind its end tag out of `top`.
        split_ifs at h with hempty
        · obtain ⟨hmeans, -⟩ := Tag.means_of_resolve hresolve
          refine (ih _ hlen hdepth h rfl).of_withElement (.empty ht hempty hmeans) ?_
          have : (⟨head, []⟩ : Element).depth = 1 := rfl
          omega
        · have hopen' : (top :: outer).length < maxDepth := hopen
          obtain ⟨u, e, r, hu, hsplit, hshort, hd, hafter⟩ :=
            (ih _ hlen hopen' h rfl).exists_element ht (by simpa using hempty) hresolve
          have hshort' : r.length < (t ++ rest).length := Nat.lt_of_le_of_lt hshort hlen
          have hd' : outer.length + 1 + e.depth ≤ maxDepth := hd
          rw [hsplit]
          exact (ih _ hshort' hdepth hafter rfl).of_withElement hu hd'
      | endTag ht =>
        refine ⟨[], [], _, _, .nil, ht, rfl, ?_, h⟩
        rw [depthOf]
        omega

/-- Reading a root element succeeds exactly on an element that is not too deep, and what follows
it. -/
theorem readElement_eq_ok_iff {start s rest : List Char} {root : Element} :
    readElement start s = .ok (root, rest) ↔
      ∃ t, ElementText noBindings t root ∧ root.depth ≤ maxDepth ∧ '<' :: s = t ++ rest := by
  have hread : readElement start s = readInside [] start s := rfl
  have hscope : (scopeOf []).uri? = noBindings := rfl
  rw [hread]
  constructor
  · intro h
    unfold readInside at h
    split at h
    · exact absurd h (by simp)
    · next p r hopen =>
      obtain ⟨hdepth, t, tag, head, scope, ht, hresolve, hs, rfl⟩ := openElement_eq_ok_iff.1 hopen
      split_ifs at h with hempty
      · obtain ⟨hmeans, -⟩ := Tag.means_of_resolve hresolve
        rw [hscope] at hmeans
        rw [Progress.after, readContent] at h
        obtain ⟨rfl, rfl⟩ := Prod.mk.inj (Except.ok.inj h)
        exact ⟨t, .empty ht hempty hmeans, (by decide : 1 ≤ maxDepth), hs⟩
      · obtain ⟨u, e, r', hu, hsplit, -, hd, hafter⟩ :=
          (exists_content hdepth h).exists_element ht (by simpa using hempty) hresolve
        rw [Progress.after, readContent] at hafter
        obtain ⟨rfl, rfl⟩ := Prod.mk.inj (Except.ok.inj hafter)
        rw [List.length_nil, Nat.zero_add] at hd
        exact ⟨u, hu, hd, hs.trans hsplit⟩
  · rintro ⟨t, ht, hdepth, hs⟩
    have hdepth' : ([] : List Frame).length + root.depth ≤ maxDepth := by
      rw [List.length_nil]
      omega
    rw [ht.readInside_append hscope hdepth' hs, Progress.after, readContent]

end ParamClass.Xml

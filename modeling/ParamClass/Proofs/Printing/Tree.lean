import ParamClass.Proofs.Grammar.Document
import ParamClass.Proofs.Lines
import ParamClass.Proofs.Printing.Head

/-!
# Printed trees

Every tree that a document can have is printed as one, and parsing the print gives the tree back
(`parse_print`): names, namespaces, attributes, texts and their order. Prefixes are declared on each
tag anew, so that the ones declared around an element are hidden inside it and in force again after
it.
-/

namespace ParamClass.Xml

open Text

/-! ## Normal trees -/

/-- Whether the first node is no text. -/
def decNoText : (nodes : List Node) → Decidable (∀ t, nodes.head? ≠ some (.text t))
  | [] => .isTrue (by simp)
  | .element _ _ :: _ => .isTrue (by simp)
  | .text t :: _ => .isFalse fun h => h t rfl

/-- Whether nodes are merged. -/
def decMerged : (nodes : List Node) → Decidable (Merged nodes)
  | [] => .isTrue trivial
  | .element _ _ :: nodes => decMerged nodes
  | .text content :: nodes =>
    have := decNoText nodes
    have := decMerged nodes
    inferInstanceAs
      (Decidable (content ≠ "" ∧ (∀ t, nodes.head? ≠ some (.text t)) ∧ Merged nodes))

instance (nodes : List Node) : Decidable (Merged nodes) := decMerged nodes

mutual

/-- The heads of all elements are normal, and the texts are merged everywhere. -/
def Node.IsNormal : Node → Prop
  | .element head children => head.IsNormal ∧ Merged children ∧ AllNormal children
  | .text _ => True

/-- All nodes are normal. -/
def AllNormal : List Node → Prop
  | [] => True
  | n :: ns => n.IsNormal ∧ AllNormal ns

end

mutual

/-- Whether a node is normal. -/
def Node.decNormal : (n : Node) → Decidable n.IsNormal
  | .element head children =>
    have := decAllNormal children
    inferInstanceAs (Decidable (head.IsNormal ∧ Merged children ∧ AllNormal children))
  | .text _ => .isTrue trivial

/-- Whether all nodes are normal. -/
def decAllNormal : (ns : List Node) → Decidable (AllNormal ns)
  | [] => .isTrue trivial
  | n :: ns =>
    have := n.decNormal
    have := decAllNormal ns
    inferInstanceAs (Decidable (n.IsNormal ∧ AllNormal ns))

end

/-- A tree that a document can have. -/
structure Element.IsNormal (e : Element) : Prop where
  /-- Its elements and texts are normal. -/
  node : e.node.IsNormal
  /-- Not too many elements are inside each other. -/
  depth : e.depth ≤ maxDepth

instance (e : Element) : Decidable e.IsNormal :=
  have := e.node.decNormal
  decidable_of_iff (e.node.IsNormal ∧ e.depth ≤ maxDepth) ⟨fun h => ⟨h.1, h.2⟩, fun h => ⟨h.1, h.2⟩⟩

/-! ## Printing -/

/-- The end tag of a name. -/
def endTag (name : String) : List Char := ['<', '/'] ++ name.toList ++ ['>']

mutual

/-- A node as it is printed: an element between its tags, a text escaped. -/
def Node.print (spelling : Spelling) : Node → List Char
  | .element head children =>
    head.tag.print spelling ++ printAll spelling children ++ endTag head.tag.name
  | .text content => escape spelling textSpecials content.toList

/-- Some nodes as they are printed, one after the other. -/
def printAll (spelling : Spelling) : List Node → List Char
  | [] => []
  | n :: ns => n.print spelling ++ printAll spelling ns

end

/-- An element as the text of a document. -/
def Element.print (spelling : Spelling) (e : Element) : String := .ofList (e.node.print spelling)

/-- The end tag of a name is one. -/
theorem endTagText_endTag {name : String} (h : IsName name.toList) : EndTagText name (endTag name) := by
  refine ⟨[], h, List.forall_mem_nil _, ?_⟩
  rw [List.append_nil]
  rfl

/-- There is no CR in an end tag. -/
theorem cr_not_mem_endTag {name : String} (h : IsName name.toList) : '\r' ∉ endTag name := by
  simp [endTag, h.cr_not_mem]

/-- A text in front of nodes that do not start with a text is a node of its own. -/
theorem prependText_of_ne_empty {content : String} (hne : content ≠ "") {nodes : List Node}
    (hhead : ∀ t, nodes.head? ≠ some (.text t)) :
    prependText content.toList nodes = .text content :: nodes := by
  have hne' : content.toList ≠ [] := by simpa using hne
  rcases prependText_eq content.toList nodes with ⟨other, rest, rfl, -⟩ | ⟨-, heq⟩
  · exact absurd rfl (hhead other)
  · rw [heq, if_neg hne', String.ofList_toList]

mutual

/-- The print of a normal element is a text of it, where there is no default namespace. -/
theorem elementText_print (spelling : Spelling) {bindings : Bindings} (hdefault : bindings none = none)
    (head : Head) (children : List Node) (h : (Node.element head children).IsNormal) :
    ElementText bindings ((Node.element head children).print spelling) ⟨head, children⟩ := by
  obtain ⟨hhead, hmerged, hchildren⟩ := h
  -- The tag declares no default namespace, so there is none inside the element either.
  have hinside := (hhead.bindingsInside_tag bindings).trans hdefault
  obtain ⟨hcontent, -⟩ := contentText_printAll spelling hinside children hchildren hmerged
  rw [Node.print]
  exact .filled (hhead.tagText_tag spelling) rfl (hhead.means_tag hdefault) hcontent
    (endTagText_endTag hhead.isName_tag)

/-- The prints of normal nodes that are merged are content with these nodes, and no `>` comes first
in it. -/
theorem contentText_printAll (spelling : Spelling) {bindings : Bindings}
    (hdefault : bindings none = none) (nodes : List Node) (h : AllNormal nodes)
    (hmerged : Merged nodes) :
    ContentText bindings (printAll spelling nodes) nodes ∧ Guarded (printAll spelling nodes) := by
  match nodes with
  | [] => exact ⟨.nil, guarded_nil⟩
  | .element head children :: nodes =>
    obtain ⟨hrest, -⟩ := contentText_printAll spelling hdefault nodes h.2 hmerged
    have helement := elementText_print spelling hdefault head children h.1
    obtain ⟨c, r, heq, -⟩ := helement.exists_eq
    rw [printAll]
    refine ⟨.element helement hrest, ?_⟩
    rw [heq]
    exact guarded_cons (by decide) (by decide) _
  | .text content :: nodes =>
    -- The text may end in `]]`, which the rest does not turn into an end of character data.
    obtain ⟨hne, hhead, hmerged⟩ := hmerged
    obtain ⟨hrest, hguarded⟩ := contentText_printAll spelling hdefault nodes h.2 hmerged
    have htext := writesText_escape spelling content.toList bindings _ _ hrest hguarded
    rwa [prependText_of_ne_empty hne hhead] at htext

end

mutual

/-- There is no CR in the print of a normal node. -/
theorem Node.cr_not_mem_print (spelling : Spelling) (n : Node) (h : n.IsNormal) :
    '\r' ∉ n.print spelling := by
  match n with
  | .element head children =>
    obtain ⟨hhead, -, hchildren⟩ := h
    have htag := Tag.cr_not_mem_print spelling hhead.isName_tag hhead.isName_attributes
    have hcontent := cr_not_mem_printAll spelling children hchildren
    have hend := cr_not_mem_endTag hhead.isName_tag
    rw [Node.print, List.mem_append, List.mem_append, not_or, not_or]
    exact ⟨⟨htag, hcontent⟩, hend⟩
  | .text content =>
    exact cr_not_mem_escape spelling (by decide) textSpecials_subset _

/-- There is no CR in the prints of normal nodes. -/
theorem cr_not_mem_printAll (spelling : Spelling) (ns : List Node) (h : AllNormal ns) :
    '\r' ∉ printAll spelling ns := by
  match ns with
  | [] => exact List.not_mem_nil
  | n :: ns =>
    rw [printAll, List.mem_append, not_or]
    exact ⟨n.cr_not_mem_print spelling h.1, cr_not_mem_printAll spelling ns h.2⟩

end

/-! ## Parsing what is printed -/

/-- A text that is a text of an element once its lines are normalized is parsed as the element. -/
theorem parse_of_elementText {s t : List Char} {e : Element} (hlines : Normalizes s t)
    (ht : ElementText noBindings t e) (hdepth : e.depth ≤ maxDepth) : parse (.ofList s) = .ok e := by
  rw [parse_eq_ok_iff, String.toList_ofList, hlines.eq]
  refine (readDocument_eq_ok_iff_of_start ht.exists_eq).2 ?_
  exact ⟨t, [], ht, .nil, hdepth, (List.append_nil t).symm⟩

/-- Parsing the print of a normal tree gives the tree back. -/
theorem parse_print (spelling : Spelling) (e : Element) (h : e.IsNormal) :
    parse (e.print spelling) = .ok e := by
  have helement : ElementText noBindings (e.node.print spelling) e :=
    elementText_print spelling rfl e.head e.children h.node
  -- Every CR is written as a reference, so normalizing the lines leaves the print as it is.
  have hlines : Normalizes (e.node.print spelling) (e.node.print spelling) :=
    .of_not_mem (e.node.cr_not_mem_print spelling h.node)
  exact parse_of_elementText hlines helement h.depth

/-- A name that starts with a digit behind its prefix, two attributes with the same qualified name, the
same prefix declared again inside, and texts and values with all special characters. -/
theorem parse_print_of_special :
    let e : Element := ⟨⟨"1r", some "u&\"", [⟨"a", none, "\r\n\t<&>\""⟩, ⟨"a", some "v", "1"⟩,
        ⟨"a", some "v", ""⟩]⟩,
      [.text "]]>\r\n&lt;", .element ⟨"e", none, []⟩ [.element ⟨"-", some "w", []⟩ []],
        .element ⟨"e", some "u", []⟩ [.text "\t"]]⟩
    e.IsNormal ∧ parse (e.print .named) = .ok e :=
  ⟨by decide +kernel, parse_print .named _ (by decide +kernel)⟩

example :
    Element.print .named
        ⟨⟨"r", some "u", [⟨"b", some "v", "<"⟩]⟩, [.text "]]>", .element ⟨"c", none, []⟩ []]⟩ =
      "<e:r xmlns:e=\"u\" xmlns:a0=\"v\" a0:b=\"&lt;\">]]&gt;<c></c></e:r>" := by
  decide +kernel

end ParamClass.Xml

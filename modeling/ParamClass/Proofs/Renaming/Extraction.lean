import ParamClass.Manifest
import ParamClass.Proofs.Printing.Normal
import ParamClass.Proofs.Renaming.Order
import ParamClass.Proofs.Renaming.Prefixes

/-!
# Extraction after renaming and reordering

Other prefixes and another order of attributes change nothing that is extracted from a manifest
(`parameters_rename_reorder`). Similar trees declare the same parameters, because in a parsed tree no
element has two unqualified attributes of the same name, so that a look for one finds it wherever it
stands. A text that is no document is read once more inside the made-up root, and the text inside
that root is again the print of a tree, renamed and reordered as the first one.
-/

namespace ParamClass.Xml

/-! ## Similar trees -/

mutual

/-- Similar nodes have the same text. -/
theorem Node.Similar.fullText_eq {n n' : Node} (h : n.Similar n') : n.fullText = n'.fullText := by
  match h with
  | .element _ hns => exact hns.fullTexts_eq
  | .text _ => rfl

/-- Similar lists of nodes have the same text. -/
theorem AllSimilar.fullTexts_eq {ns ns' : List Node} (h : AllSimilar ns ns') :
    fullTexts ns = fullTexts ns' := by
  match h with
  | .nil => rfl
  | .cons hn hns => rw [fullTexts, fullTexts, hn.fullText_eq, hns.fullTexts_eq]

end

mutual

/-- Similar nodes have similar elements. -/
theorem Node.Similar.elements {n n' : Node} (h : n.Similar n') :
    List.Forall₂ Element.Similar n.elements n'.elements := by
  match h with
  | .element hhead hns => exact .cons ⟨hhead, hns⟩ hns.elementsOf
  | .text _ => exact .nil

/-- Similar lists of nodes have similar elements. -/
theorem AllSimilar.elementsOf {ns ns' : List Node} (h : AllSimilar ns ns') :
    List.Forall₂ Element.Similar (elementsOf ns) (elementsOf ns') := by
  match h with
  | .nil => exact .nil
  | .cons hn hns => exact List.rel_append hn.elements hns.elementsOf

end

/-- Similar lists of nodes have similar elements among them. -/
theorem AllSimilar.filterMap_element? {ns ns' : List Node} (h : AllSimilar ns ns') :
    List.Forall₂ Element.Similar (ns.filterMap Node.element?) (ns'.filterMap Node.element?) := by
  match h with
  | .nil => exact .nil
  | .cons (.element hhead hchildren) hns =>
    exact .cons ⟨hhead, hchildren⟩ hns.filterMap_element?
  | .cons (.text _) hns => exact hns.filterMap_element?

namespace Element.Similar

variable {e e' : Element}

/-- Similar elements have the same name and namespace. -/
theorem is_eq (h : e.Similar e') (uri : Option String) (name : String) :
    e.is uri name = e'.is uri name := by
  rw [Element.is, Element.is, h.head.name, h.head.uri]

/-- Similar elements have the same unqualified attributes, if the first is normal. -/
theorem attribute?_eq (h : e.Similar e') (hnormal : e.node.IsNormal) (name : String) :
    e.attribute? name = e'.attribute? name :=
  congrArg (·.map Attribute.value)
    (find?_unqualified_eq_of_perm h.head.attributes hnormal.1.distinct name)

/-- Similar elements have similar first children with a name and namespace, or both none. -/
theorem child? (h : e.Similar e') (uri : Option String) (name : String) :
    Option.Rel Element.Similar (e.child? uri name) (e'.child? uri name) := by
  have hchildren : List.Forall₂ Element.Similar e.childElements e'.childElements :=
    h.children.filterMap_element?
  rw [Element.child?, Element.child?]
  generalize e.childElements = es, e'.childElements = es' at hchildren
  induction hchildren with
  | nil => exact .none
  | cons he _ ih =>
    rw [List.find?_cons, List.find?_cons, he.is_eq]
    split
    · exact .some he
    · exact ih

/-- Similar elements have the same text. -/
theorem text_eq (h : e.Similar e') : e.text = e'.text := h.children.fullTexts_eq

end Element.Similar

end ParamClass.Xml

namespace ParamClass.Manifest

open Xml

/-! ## Parameters -/

/-- Similar elements declare the same parameter, if the first is normal. -/
theorem parameterOf_eq_of_similar {e e' : Element} (h : e.Similar e') (hnormal : e.node.IsNormal)
    (uri : Option String) : parameterOf uri e = parameterOf uri e' := by
  have hdescription : (e.child? uri "Description").map Element.text =
      (e'.child? uri "Description").map Element.text :=
    eq_of_rel (rel_map (h.child? uri "Description") fun _ _ hd => hd.text_eq)
  unfold parameterOf
  rw [h.attribute?_eq hnormal, h.attribute?_eq hnormal, h.attribute?_eq hnormal, hdescription]

/-- Similar trees declare the same parameters, if the first is normal. -/
theorem parametersOf_eq_of_similar {root root' : Element} (h : root.Similar root')
    (hnormal : root.IsNormal) (uri : Option String) :
    parametersOf uri root = parametersOf uri root' := by
  have helements : List.Forall₂ Element.Similar root.descendants root'.descendants :=
    .cons h h.children.elementsOf
  have hall := hnormal.descendants
  unfold parametersOf
  generalize root.descendants = es, root'.descendants = es' at helements hall
  induction helements with
  | nil => rfl
  | cons he _ ih =>
    obtain ⟨hfirst, hrest⟩ := List.forall_mem_cons.1 hall
    rw [List.filter_cons, List.filter_cons, he.is_eq]
    split
    · rw [List.map_cons, List.map_cons, parameterOf_eq_of_similar he hfirst, ih hrest]
    · exact ih hrest

/-! ## The made-up root -/

/-- A text is parsed as it is, or else inside the made-up root. -/
theorem toOption_parse (text : String) :
    (parse text).toOption = (Xml.parse text).toOption.or (Xml.parse (wrap text)).toOption := by
  rw [parse]
  cases Xml.parse text with
  | ok root => rfl
  | error direct => cases Xml.parse (wrap text) <;> rfl

/-- What a manifest declares is what its root declares. -/
theorem toOption_parameters (text namespaceSetting : String) :
    (parameters text namespaceSetting).toOption =
      (parse text).toOption.map (parametersOf (uri? namespaceSetting)) := by
  rw [parameters]
  cases parse text <;> rfl

/-- The root of a manifest is normal. -/
theorem isNormal_of_parse {text : String} {root : Element} (h : parse text = .ok root) :
    root.IsNormal := by
  rw [← toOption_eq_some, toOption_parse, Option.or_eq_some_iff, toOption_eq_some,
    toOption_eq_some] at h
  rcases h with h | ⟨-, h⟩
  · exact Xml.isNormal_of_parse h
  · exact Xml.isNormal_of_parse h

/-- The tree inside the made-up root. -/
def inRoot (e : SourceElement) : SourceElement :=
  ⟨.plain ⟨⟨wrapperName, by decide⟩, by decide⟩, [], [e.node]⟩

/-- Its print is the print of the tree inside the made-up root. -/
theorem print_inRoot (spelling : Spelling) (e : SourceElement) :
    (inRoot e).print spelling = wrap (e.print spelling) := by
  rw [← String.toList_inj, wrap]
  simp [SourceElement.print, inRoot, SourceElement.node, SourceNode.print, printSources, sourceTag,
    SourceName.text, Tag.print, Tag.endMark, endTag]

/-- It is renamed and reordered as the tree is. -/
theorem reordered_inRoot {f : Renaming} {e e' : SourceElement} (h : (e.rename f).Reordered e') :
    ((inRoot e).rename f).Reordered (inRoot e') :=
  .element (.refl _) (.cons h .nil)

/-! ## Extraction -/

/-- The print of a tree is parsed to a similar document, or refused as it was, after its prefixes are
replaced and its attributes put into another order. -/
theorem rel_parse_print {f : Renaming} {e e' : SourceElement} (h : (e.rename f).Reordered e')
    (spelling spelling' : Spelling) :
    Option.Rel Element.Similar (Xml.parse (e.print spelling)).toOption
      (Xml.parse (e'.print spelling')).toOption := by
  rw [toOption_parse_print, toOption_parse_print, ← e.denote_rename f]
  exact h.rel_denote

/-- Replacing prefixes by others, different ones by different ones, and putting attributes into
another order, declarations among them, changes neither whether the print of a tree is a document, nor
the document but for the order of attributes, nor whether parameters can be extracted, nor which. -/
theorem parameters_rename_reorder {f : Renaming} {e e' : SourceElement}
    (h : (e.rename f).Reordered e') (spelling spelling' : Spelling) :
    Option.Rel Element.Similar (Xml.parse (e.print spelling)).toOption
        (Xml.parse (e'.print spelling')).toOption ∧
      ∀ namespaceSetting : String, (parameters (e.print spelling) namespaceSetting).toOption =
        (parameters (e'.print spelling') namespaceSetting).toOption := by
  have hdirect := rel_parse_print h spelling spelling'
  have hwrapped := rel_parse_print (reordered_inRoot h) spelling spelling'
  rw [print_inRoot, print_inRoot] at hwrapped
  have hroot : Option.Rel Element.Similar (parse (e.print spelling)).toOption
      (parse (e'.print spelling')).toOption := by
    rw [toOption_parse, toOption_parse]
    exact rel_or hdirect hwrapped
  refine ⟨hdirect, fun namespaceSetting => ?_⟩
  rw [toOption_parameters, toOption_parameters]
  -- That the trees are similar is not enough: the first must be one that was parsed.
  generalize hx : (parse (e.print spelling)).toOption = x at hroot ⊢
  generalize (parse (e'.print spelling')).toOption = y at hroot ⊢
  cases hroot with
  | none => rfl
  | some hsimilar =>
    have hnormal := isNormal_of_parse (toOption_eq_some.1 hx)
    exact congrArg some (parametersOf_eq_of_similar hsimilar hnormal _)

/-- Two prefixes change places. Both are declared after their use in the root, declared the other way
around inside it, and hold again after that; the default namespace is emptied inside, too. The
attributes of each tag are in reverse order. -/
theorem parameters_rename_reorder_of_redeclared :
    let a : NCName := ⟨⟨"a", by decide⟩, by decide⟩
    let b : NCName := ⟨⟨"b", by decide⟩, by decide⟩
    let id : NCName := ⟨⟨"id", by decide⟩, by decide⟩
    let parameter : NCName := ⟨⟨"ScriptParameter", by decide⟩, by decide⟩
    let description : NCName := ⟨⟨"Description", by decide⟩, by decide⟩
    let e : SourceElement :=
      ⟨.prefixed a id.toLocalName,
        [.prefixed b (by decide) id.toLocalName "0", .declaration a.toLocalName "u",
          .declaration b.toLocalName "v", .default "u"],
        [.element (.prefixed b parameter.toLocalName)
          [.plain id (by decide) "1", .prefixed a (by decide) id.toLocalName "2",
            .declaration a.toLocalName "v", .declaration b.toLocalName "u", .default ""]
          [.element (.prefixed a description.toLocalName) [] [.text "3"],
            .element (.prefixed b description.toLocalName) [] [.text "<4>"]],
        .element (.prefixed b parameter.toLocalName) [.plain id (by decide) "5"] [],
        .element (.plain parameter) [.plain id (by decide) "6"] []]⟩
    let e' : SourceElement :=
      ⟨.prefixed b id.toLocalName,
        [.default "u", .declaration a.toLocalName "v", .declaration b.toLocalName "u",
          .prefixed a (by decide) id.toLocalName "0"],
        [.element (.prefixed a parameter.toLocalName)
          [.default "", .declaration a.toLocalName "u", .declaration b.toLocalName "v",
            .prefixed b (by decide) id.toLocalName "2", .plain id (by decide) "1"]
          [.element (.prefixed b description.toLocalName) [] [.text "3"],
            .element (.prefixed a description.toLocalName) [] [.text "<4>"]],
        .element (.prefixed a parameter.toLocalName) [.plain id (by decide) "5"] [],
        .element (.plain parameter) [.plain id (by decide) "6"] []]⟩
    (e.rename (.swap a b (by decide) (by decide))).Reordered e' ∧
      (∃ root root', Xml.parse (e.print .named) = .ok root ∧
        Xml.parse (e'.print .named) = .ok root' ∧ root.Similar root') ∧
      parameters (e'.print .named) "u" =
        .ok [⟨some "1", none, none, some "<4>"⟩, ⟨some "6", none, none, none⟩] := by
  intro a b id parameter description e e'
  have hreordered : (e.rename (.swap a b (by decide) (by decide))).Reordered e' := by
    refine .element (List.reverse_perm _).symm (.cons (.element (List.reverse_perm _).symm ?_) ?_)
    · exact .cons (.element .nil (.cons (.text _) .nil))
        (.cons (.element .nil (.cons (.text _) .nil)) .nil)
    · exact .cons (.element (.refl _) .nil) (.cons (.element (.refl _) .nil) .nil)
  obtain ⟨hparse, hparameters⟩ := parameters_rename_reorder hreordered .named .named
  have hdenote : e.denote.map (parametersOf (uri? "u")) =
      some [⟨some "1", none, none, some "<4>"⟩, ⟨some "6", none, none, none⟩] := by
    decide +kernel
  obtain ⟨root, hroot, hdeclared⟩ := Option.map_eq_some_iff.1 hdenote
  rw [← toOption_parse_print .named] at hroot
  refine ⟨hreordered, ?_, ?_⟩
  · rw [hroot] at hparse
    generalize hx : (Xml.parse (e'.print .named)).toOption = x at hparse
    cases hparse with
    | some hsimilar => exact ⟨root, _, toOption_eq_some.1 hroot, toOption_eq_some.1 hx, hsimilar⟩
  · rw [← toOption_eq_some, ← hparameters, toOption_parameters, toOption_parse, hroot, Option.some_or,
      Option.map_some, hdeclared]

end ParamClass.Manifest

import Mathlib.Data.List.Forall2
import ParamClass.Proofs.Manifest.Wrapper

/-!
# Fragments side by side

A manifest may be several documents written one after the other, each from its root element on.
Together they are no document, but inside the made-up root they are its content: its child elements
are their roots, read as they are read alone, and the parameters that it declares are those of the
fragments in order.
-/

namespace ParamClass.Xml

open Text

/-! ## What may be skipped is content -/

/-- A text in front of nodes is no element. -/
theorem filterMap_element?_prependText (text : List Char) (nodes : List Node) :
    (prependText text nodes).filterMap Node.element? = nodes.filterMap Node.element? := by
  rcases prependText_eq text nodes with ⟨content, rest, rfl, heq⟩ | ⟨-, heq⟩
  · rw [heq]
    rfl
  · rw [heq]
    split_ifs
    · rfl
    · rfl

/-- What may stand after a root element may stand in front of content, and adds neither elements nor
depth to it. -/
theorem MiscText.exists_contentText {m : List Char} (hm : MiscText m) {bindings : Bindings}
    {s : List Char} {nodes : List Node} (hs : ContentText bindings s nodes) :
    ∃ nodes', ContentText bindings (m ++ s) nodes' ∧
      nodes'.filterMap Node.element? = nodes.filterMap Node.element? ∧
      depthOf nodes' = depthOf nodes := by
  induction hm with
  | nil => exact ⟨nodes, hs, rfl, rfl⟩
  | @space c m hc _ ih =>
    obtain ⟨nodes', hcontent, helements, hdepth⟩ := ih
    have hne : ∀ d : Char, isSpace d = false → c ≠ d := by
      rintro d hd rfl
      exact absurd hc (by simp [hd])
    refine ⟨prependText [c] nodes', .char (hne _ (by decide)) (hne _ (by decide)) ?_ hcontent, ?_, ?_⟩
    · intro hend
      exact hne ']' (by decide) (List.cons_prefix_cons.1 hend).1.symm
    · rw [filterMap_element?_prependText, helements]
    · rw [depthOf_prependText, hdepth]
  | comment ht _ ih =>
    obtain ⟨nodes', hcontent, helements, hdepth⟩ := ih
    rw [List.append_assoc]
    exact ⟨nodes', .comment ht hcontent, helements, hdepth⟩
  | instruction ht hx _ ih =>
    obtain ⟨nodes', hcontent, helements, hdepth⟩ := ih
    rw [List.append_assoc]
    exact ⟨nodes', .instruction ht hx hcontent, helements, hdepth⟩

/-- The elements of some nodes are those of the elements among them. -/
theorem elementsOf_eq_flatMap (nodes : List Node) :
    elementsOf nodes = (nodes.filterMap Node.element?).flatMap Element.descendants := by
  induction nodes with
  | nil => rfl
  | cons n nodes ih =>
    rw [elementsOf, ih]
    rcases n with ⟨head, children⟩ | content
    · rfl
    · rfl

/-! ## Fragments -/

/-- A document that starts with its root element and is not too deep to stand inside another one. -/
structure Fragment (text : String) (root : Element) : Prop where
  /-- It starts with a `<` and a character that starts a name. -/
  start : ∃ c r, text.toList = '<' :: c :: r ∧ isNameStart c = true
  /-- It is a document with this root. -/
  parsed : parse text = .ok root
  /-- One more element may be around it. -/
  depth : root.depth ≤ 255

/-- A fragment is an element and what may be skipped after it. -/
theorem Fragment.exists_elementText {text : String} {root : Element} (h : Fragment text root) :
    ∃ t m, ElementText noBindings t root ∧ MiscText m ∧ normalizeLines text.toList = t ++ m := by
  obtain ⟨c, r, htext, hc⟩ := h.start
  have hcr : '\r' ∉ ['<', c] := by
    intro hmem
    obtain rfl : '\r' = c := by simpa using hmem
    exact absurd hc (by decide +kernel)
  have hnormal : normalizeLines text.toList = '<' :: c :: normalizeLines r := by
    rw [htext]
    exact normalizeLines_append_of_not_mem hcr r
  have hparsed := parse_eq_ok_iff.1 h.parsed
  rw [readDocument_eq_ok_iff_of_start ⟨c, _, hnormal, hc⟩] at hparsed
  obtain ⟨t, m, ht, hm, -, heq⟩ := hparsed
  exact ⟨t, m, ht, hm, heq⟩

/-- Fragments side by side start with a `<`, if with anything. -/
theorem head?_join {texts : List String} {roots : List Element}
    (h : List.Forall₂ Fragment texts roots) : (String.join texts).toList.head? ≠ some '\n' := by
  rw [String.toList_join]
  cases h with
  | nil => simp
  | cons hfragment _ =>
    obtain ⟨c, r, htext, -⟩ := hfragment.start
    rw [List.flatMap_cons, htext]
    simp

/-- Line ends of fragments side by side are normalized fragment by fragment. -/
theorem normalizeLines_join_cons {text : String} {texts : List String} {roots : List Element}
    (h : List.Forall₂ Fragment texts roots) :
    normalizeLines (String.join (text :: texts)).toList =
      normalizeLines text.toList ++ normalizeLines (String.join texts).toList := by
  rw [← normalizeLines_append (head?_join h)]
  simp [String.toList_join]

/-- Fragments side by side are content, whose elements are their roots. -/
theorem exists_contentText_join {texts : List String} {roots : List Element}
    (h : List.Forall₂ Fragment texts roots) :
    ∃ nodes, ContentText noBindings (normalizeLines (String.join texts).toList) nodes ∧
      nodes.filterMap Node.element? = roots ∧ depthOf nodes ≤ 255 := by
  -- What follows the root of a fragment stands in front of the fragments after it.
  induction h with
  | nil => exact ⟨[], .nil, rfl, by rw [depthOf]; exact Nat.zero_le _⟩
  | @cons text root texts roots hfragment hrest ih =>
    obtain ⟨nodes, hnodes, helements, hdepth⟩ := ih
    obtain ⟨t, m, ht, hm, htext⟩ := hfragment.exists_elementText
    obtain ⟨nodes', hnodes', helements', hdepth'⟩ := hm.exists_contentText hnodes
    refine ⟨root.node :: nodes', ?_, ?_, ?_⟩
    · rw [normalizeLines_join_cons hrest, htext, List.append_assoc]
      exact .element ht hnodes'
    · rw [← helements, ← helements']
      rfl
    · have hroot : root.node.depth = root.depth := rfl
      have := hfragment.depth
      rw [depthOf]
      omega

/-- Two fragments and more side by side are no document: another element follows the root. -/
theorem exists_parse_join_eq_error {text text' : String} {texts : List String} {roots : List Element}
    (h : List.Forall₂ Fragment (text :: text' :: texts) roots) :
    ∃ fault, parse (String.join (text :: text' :: texts)) = .error fault ∧
      fault.cause = .contentAfterRoot := by
  cases h with
  | @cons _ root _ roots hfragment hrest =>
    obtain ⟨t, m, ht, hm, htext⟩ := hfragment.exists_elementText
    have hdepth : root.depth ≤ maxDepth := hfragment.depth.trans (by decide)
    have hjoin : ∃ c r, normalizeLines (String.join (text' :: texts)).toList = '<' :: c :: r ∧
        isNameStart c = true := by
      cases hrest with
      | cons hfragment' hrest =>
        obtain ⟨t', m', ht', -, htext'⟩ := hfragment'.exists_elementText
        obtain ⟨c, r, rfl, hc⟩ := ht'.exists_eq
        exact ⟨c, _, by rw [normalizeLines_join_cons hrest, htext']; rfl, hc⟩
    obtain ⟨c, r, hjoin, hc⟩ := hjoin
    have hprolog : skipProlog (t ++ (m ++ '<' :: c :: r)) = .ok (t ++ (m ++ '<' :: c :: r)) := by
      obtain ⟨d, body, rfl, hd⟩ := ht.exists_eq
      exact PrologText.skipProlog_append (.inl rfl) (.misc .nil) hd _
    have hread := readDocument_eq_contentAfterRoot hprolog ht hdepth hm (noMisc_of_isNameStart hc r)
      (by simp)
    rw [← List.append_assoc, ← htext, ← hjoin, ← normalizeLines_join_cons hrest] at hread
    exact ⟨_, by rw [parse, hread], rfl⟩

end ParamClass.Xml

namespace ParamClass.Manifest

open Text Xml

/-! ## Parameters -/

/-- The made-up root declares no parameter, and holds those that its child elements hold. -/
theorem parametersOf_wrapper (uri : Option String) (nodes : List Node) :
    parametersOf uri ⟨⟨wrapperName, none, []⟩, nodes⟩ =
      (nodes.filterMap Node.element?).flatMap (parametersOf uri) := by
  -- The root has the name of no parameter, whatever the namespace.
  have hroot : (⟨⟨wrapperName, none, []⟩, nodes⟩ : Element).is uri "ScriptParameter" = false := by
    simp [Element.is, wrapperName]
  rw [parametersOf, Element.descendants, List.filter_cons_of_neg (by simp [hroot]),
    elementsOf_eq_flatMap, List.filter_flatMap, List.map_flatMap]
  rfl

/-- A fragment is a manifest that declares the parameters of its root. -/
theorem parameters_of_fragment {text : String} {root : Element} (h : Fragment text root)
    (namespaceSetting : String) :
    parameters text namespaceSetting = .ok (parametersOf (uri? namespaceSetting) root) := by
  rw [parameters, parse, h.parsed]

/-- Fragments side by side, when they are no document, are the content of the made-up root. -/
theorem exists_parse_join {texts : List String} {roots : List Element}
    (h : List.Forall₂ Fragment texts roots) {fault : Xml.Fault}
    (hfault : Xml.parse (String.join texts) = .error fault) :
    ∃ nodes, parse (String.join texts) = .ok ⟨⟨wrapperName, none, []⟩, nodes⟩ ∧
      nodes.filterMap Node.element? = roots := by
  obtain ⟨nodes, hnodes, helements, hdepth⟩ := exists_contentText_join h
  refine ⟨nodes, ?_, helements⟩
  rw [parse_eq_ok_iff_of_error hfault, parse_inside_eq_ok_iff wrapperName_ok]
  exact ⟨rfl, Nat.succ_le_succ hdepth, hnodes⟩

/-- Fragments side by side declare the parameters of their roots in order. One fragment is a document
already, and none is the empty text. -/
theorem parameters_of_fragments {texts : List String} {roots : List Element}
    (h : List.Forall₂ Fragment texts roots) (namespaceSetting : String) :
    parameters (String.join texts) namespaceSetting =
      .ok (roots.flatMap (parametersOf (uri? namespaceSetting))) := by
  have hwrapped : ∀ fault, Xml.parse (String.join texts) = .error fault →
      parameters (String.join texts) namespaceSetting =
        .ok (roots.flatMap (parametersOf (uri? namespaceSetting))) := by
    intro fault hfault
    obtain ⟨nodes, hparse, rfl⟩ := exists_parse_join h hfault
    rw [parameters, hparse, ← parametersOf_wrapper]
  cases h with
  | nil => exact hwrapped ⟨.missingRoot, ⟨1, 1⟩⟩ (by decide +kernel)
  | @cons text root texts roots hfragment hrest =>
    cases hrest with
    | nil =>
      have hjoin : String.join [text] = text := by simp
      rw [hjoin, parameters_of_fragment hfragment, List.flatMap_singleton]
    | cons hfragment' hrest =>
      obtain ⟨fault, hfault, -⟩ :=
        exists_parse_join_eq_error (.cons hfragment (.cons hfragment' hrest))
      exact hwrapped fault hfault

/-- Texts that each start with the root element of a document, at most 255 elements deep, are
together a manifest that declares what each of them declares, in order. Two and more of them are no
document by themselves, because the first root element is followed by more, and the made-up root
holds exactly their root elements. -/
theorem parameters_join {texts : List String}
    (h : ∀ text ∈ texts, (∃ c r, text.toList = '<' :: c :: r ∧ isNameStart c = true) ∧
      ∃ root, Xml.parse text = .ok root ∧ root.depth ≤ 255) (namespaceSetting : String) :
    (∃ lists, List.Forall₂ (fun text ps => parameters text namespaceSetting = .ok ps) texts lists ∧
      parameters (String.join texts) namespaceSetting = .ok lists.flatten) ∧
    (2 ≤ texts.length →
      (∃ fault, Xml.parse (String.join texts) = .error fault ∧ fault.cause = .contentAfterRoot) ∧
      ∃ root, parse (String.join texts) = .ok root ∧ root.head = ⟨wrapperName, none, []⟩ ∧
        List.Forall₂ (fun text e => Xml.parse text = .ok e) texts root.childElements) := by
  obtain ⟨roots, hroots⟩ : ∃ roots, List.Forall₂ Fragment texts roots := by
    induction texts with
    | nil => exact ⟨[], .nil⟩
    | cons text texts ih =>
      rw [List.forall_mem_cons] at h
      obtain ⟨⟨hstart, root, hparsed, hdepth⟩, hrest⟩ := h
      obtain ⟨roots, hroots⟩ := ih hrest
      exact ⟨root :: roots, .cons ⟨hstart, hparsed, hdepth⟩ hroots⟩
  constructor
  · refine ⟨roots.map (parametersOf (uri? namespaceSetting)), ?_, ?_⟩
    · rw [List.forall₂_map_right_iff]
      exact hroots.imp fun text root hfragment => parameters_of_fragment hfragment _
    · rw [parameters_of_fragments hroots, List.flatMap_def]
  · intro hlen
    obtain ⟨text, text', texts, rfl⟩ : ∃ t t' ts, texts = t :: t' :: ts := by
      match texts, hlen with
      | t :: t' :: ts, _ => exact ⟨t, t', ts, rfl⟩
    obtain ⟨fault, hfault, hcause⟩ := exists_parse_join_eq_error hroots
    obtain ⟨nodes, hparse, helements⟩ := exists_parse_join hroots hfault
    refine ⟨⟨fault, hfault, hcause⟩, _, hparse, rfl, ?_⟩
    rw [Element.childElements, helements]
    exact hroots.imp fun text root hfragment => hfragment.parsed

/-- The parameter before a comment and a line end, and the one inside an element with a namespace of
its own, are those of the two fragments together. -/
theorem parameters_join_of_comment :
    let text := "<ScriptParameter id='1'/><!--a-->\r"
    let text' := "<p:a xmlns:p='u'><ScriptParameter id='2'/></p:a>"
    parameters (String.join [text, text']) "" =
      .ok [⟨some "1", none, none, none⟩, ⟨some "2", none, none, none⟩] := by
  intro text text'
  have hparsed : Xml.parse text = .ok ⟨⟨"ScriptParameter", none, [⟨"id", none, "1"⟩]⟩, []⟩ := by
    decide +kernel
  have hparsed' : Xml.parse text' = .ok ⟨⟨"a", some "u", []⟩,
      [.element ⟨"ScriptParameter", none, [⟨"id", none, "2"⟩]⟩ []]⟩ := by
    decide +kernel
  have hfragments : ∀ t ∈ [text, text'],
      (∃ c r, t.toList = '<' :: c :: r ∧ isNameStart c = true) ∧
        ∃ root, Xml.parse t = .ok root ∧ root.depth ≤ 255 := by
    rw [List.forall_mem_cons, List.forall_mem_singleton]
    refine ⟨⟨⟨'S', "criptParameter id='1'/><!--a-->\r".toList, by decide +kernel, by decide +kernel⟩,
        _, hparsed, by decide⟩,
      ⟨'p', ":a xmlns:p='u'><ScriptParameter id='2'/></p:a>".toList, by decide +kernel,
        by decide +kernel⟩, _, hparsed', by decide⟩
  obtain ⟨⟨lists, hlists, hjoin⟩, -⟩ := parameters_join hfragments ""
  rw [List.forall₂_cons_left_iff] at hlists
  obtain ⟨ps, lists, hps, hlists, rfl⟩ := hlists
  rw [List.forall₂_cons_left_iff] at hlists
  obtain ⟨ps', lists, hps', hlists, rfl⟩ := hlists
  obtain rfl := List.forall₂_nil_left_iff.1 hlists
  rw [parameters, parse, hparsed] at hps
  rw [parameters, parse, hparsed'] at hps'
  rw [hjoin, ← Except.ok.inj hps, ← Except.ok.inj hps']
  decide +kernel

end ParamClass.Manifest

import ParamClass.Generation.Basic
import ParamClass.Proofs.Manifest.Fragments
import ParamClass.Proofs.Printing.Tree

/-!
# Written manifests

Any list of parameters can be written as a manifest: a root that sets the default namespace, in it an
element for each parameter with the attributes that are present, and inside that the description, if
there is one, as pieces of escaped text, sections of character data and comments. Reading the
manifest gives the parameters back, whatever their strings hold, and the class is generated from it
as from the parameters themselves (`parameters_manifest`).
-/

namespace ParamClass.Manifest

open Generation Text Xml

/-! ## What is written -/

/-- A piece of a written description. -/
inductive TextPiece where
  /-- A text with its special characters as references. -/
  | escaped (text : List Char)
  /-- A section of character data. -/
  | cdata (text : List Char) (hend : ¬ cdataEnd <:+: text) (hcr : '\r' ∉ text)
  /-- A comment, which is no part of the description. -/
  | comment (body : List Char) (hmark : ¬ ['-', '-'] <:+: body) (hlast : ¬ ['-'] <:+ body)

/-- The part of the description that a piece writes. -/
def TextPiece.text : TextPiece → List Char
  | escaped text => text
  | cdata text _ _ => text
  | comment _ _ _ => []

/-- A piece as it is written. -/
def TextPiece.print (spelling : Spelling) : TextPiece → List Char
  | escaped text => escape spelling textSpecials text
  | cdata text _ _ => cdataMark ++ text ++ cdataEnd
  | comment body _ _ => commentMark ++ body ++ ['-', '-', '>']

/-- A declaration of a parameter: the attributes that are present, and the pieces of the description
if there is one. -/
structure Declaration where
  /-- The attribute `id`. -/
  id : Option String
  /-- The attribute `type`. -/
  type : Option String
  /-- The attribute `values`. -/
  values : Option String
  /-- The pieces of the description. -/
  description : Option (List TextPiece)

/-- The text that pieces write. -/
def textOf (pieces : List TextPiece) : List Char := pieces.flatMap TextPiece.text

/-- The parameter that a declaration declares. -/
def Declaration.parameter (d : Declaration) : Parameter where
  id := d.id
  type := d.type
  values := d.values
  description := d.description.map fun pieces => .ofList (textOf pieces)

/-- The attributes of a declaration. -/
def Declaration.attributes (d : Declaration) : List Attribute :=
  [("id", d.id), ("type", d.type), ("values", d.values)].filterMap fun (name, value?) =>
    value?.map (⟨name, none, ·⟩)

/-- An element whose name has no prefix, with this content. -/
def printPlain (spelling : Spelling) (name : String) (as : List Attribute) (content : List Char) :
    List Char :=
  (⟨name, none, as⟩ : Head).tag.print spelling ++ content ++ endTag name

/-- The content of a declaration: its description, if there is one. -/
def Declaration.printContent (spelling : Spelling) (d : Declaration) : List Char :=
  match d.description with
  | none => []
  | some pieces => printPlain spelling "Description" [] (pieces.flatMap (·.print spelling))

/-- A declaration as it is written. -/
def Declaration.print (spelling : Spelling) (d : Declaration) : List Char :=
  printPlain spelling "ScriptParameter" d.attributes (d.printContent spelling)

/-- The start tag of the root, which sets the default namespace if there is one. -/
def rootTag (namespaceSetting : String) : Tag where
  name := "M"
  attributes := if namespaceSetting = "" then [] else [⟨declarationName none, namespaceSetting⟩]
  isEmpty := false

/-- The declarations between the tags of the root. -/
def manifestText (spelling : Spelling) (namespaceSetting : String) (ds : List Declaration) :
    List Char :=
  (rootTag namespaceSetting).print spelling ++ ds.flatMap (·.print spelling) ++ endTag "M"

/-- A manifest with these declarations. -/
def manifest (spelling : Spelling) (namespaceSetting : String) (ds : List Declaration) : String :=
  .ofList (manifestText spelling namespaceSetting ds)

/-! ## What is denoted -/

/-- The nodes inside the element of a declaration. -/
def Declaration.nodes (uri : Option String) (d : Declaration) : List Node :=
  match d.description with
  | none => []
  | some pieces => [.element ⟨"Description", uri, []⟩ (prependText (textOf pieces) [])]

/-- The element of a declaration. -/
def Declaration.element (uri : Option String) (d : Declaration) : Element :=
  ⟨⟨"ScriptParameter", uri, d.attributes⟩, d.nodes uri⟩

/-- The root element of a manifest. -/
def rootElement (uri : Option String) (ds : List Declaration) : Element :=
  ⟨⟨"M", uri, []⟩, ds.map fun d => (d.element uri).node⟩

/-- The attributes of the element are those that are present. -/
theorem attribute?_element (uri : Option String) (d : Declaration) :
    (d.element uri).attribute? "id" = d.id ∧ (d.element uri).attribute? "type" = d.type ∧
      (d.element uri).attribute? "values" = d.values := by
  obtain ⟨id, type, values, description⟩ := d
  rcases id with _ | id <;> rcases type with _ | type <;> rcases values with _ | values
  all_goals exact ⟨rfl, rfl, rfl⟩

/-- The text of nodes is that of the text in front of them and theirs. -/
theorem fullTexts_prependText (text : List Char) (nodes : List Node) :
    fullTexts (prependText text nodes) = .ofList text ++ fullTexts nodes := by
  rcases prependText_eq text nodes with ⟨content, rest, rfl, heq⟩ | ⟨-, heq⟩
  · rw [heq, fullTexts, fullTexts, Node.fullText, Node.fullText, String.append_assoc]
  · rw [heq]
    split_ifs with ht
    · rw [ht, String.ofList_nil, String.empty_append]
    · rw [fullTexts, Node.fullText]

/-- The element of a declaration declares its parameter. -/
theorem parameterOf_element (uri : Option String) (d : Declaration) :
    parameterOf uri (d.element uri) = d.parameter := by
  obtain ⟨hid, htype, hvalues⟩ := attribute?_element uri d
  have hdescription : ((d.element uri).child? uri "Description").map Element.text =
      d.description.map fun pieces => .ofList (textOf pieces) := by
    obtain ⟨id, type, values, _ | pieces⟩ := d
    · rfl
    · have hchild : (Declaration.element uri ⟨id, type, values, some pieces⟩).child? uri "Description" =
          some ⟨⟨"Description", uri, []⟩, prependText (textOf pieces) []⟩ := by
        simp [Element.child?, Element.childElements, Declaration.element, Declaration.nodes,
          Node.element?, Element.is]
      rw [hchild, Option.map_some, Option.map_some, Element.text, fullTexts_prependText, fullTexts,
        String.append_empty]
  rw [parameterOf, hid, htype, hvalues, hdescription, Declaration.parameter]

/-- A text in front of nodes adds no elements. -/
theorem elementsOf_prependText (text : List Char) (nodes : List Node) :
    elementsOf (prependText text nodes) = elementsOf nodes := by
  rw [elementsOf_eq_flatMap, filterMap_element?_prependText, ← elementsOf_eq_flatMap]

/-- Of the elements of a declaration only its own has the name of a declaration. -/
theorem filter_descendants_element (uri : Option String) (d : Declaration) :
    (d.element uri).descendants.filter (·.is uri "ScriptParameter") = [d.element uri] := by
  have hself : (d.element uri).is uri "ScriptParameter" = true := by
    simp [Element.is, Declaration.element]
  have hinside : (elementsOf (d.element uri).children).filter (·.is uri "ScriptParameter") = [] := by
    rw [Declaration.element, Declaration.nodes]
    split
    · rfl
    · rw [elementsOf, Node.elements, elementsOf_prependText]
      simp [elementsOf, Element.is]
  rw [Element.descendants, List.filter_cons, if_pos hself, hinside]

/-- The root declares the parameters of its declarations. -/
theorem parametersOf_rootElement (uri : Option String) (ds : List Declaration) :
    parametersOf uri (rootElement uri ds) = ds.map (·.parameter) := by
  have hroot : (rootElement uri ds).is uri "ScriptParameter" = false := by
    simp [Element.is, rootElement]
  have hchildren : (rootElement uri ds).children.filterMap Node.element? = ds.map (·.element uri) := by
    rw [rootElement, List.filterMap_map]
    exact congrFun List.filterMap_eq_map' ds
  rw [parametersOf, Element.descendants, List.filter_cons_of_neg (by simp [hroot]),
    elementsOf_eq_flatMap, hchildren, List.flatMap_map, List.filter_flatMap, List.map_flatMap]
  simp only [filter_descendants_element, List.map_singleton, parameterOf_element]
  rw [List.map_eq_flatMap]

/-! ## The text of a manifest -/

/-- An element whose name has no prefix is in the default namespace, which holds inside it as well. -/
theorem elementText_printPlain (spelling : Spelling) {bindings : Bindings} {name : String}
    {uri : Option String} {as : List Attribute} {content : List Char} {nodes : List Node}
    (h : (⟨name, none, as⟩ : Head).IsNormal) (hselects : Selects bindings none uri)
    (hcontent : ∀ inside : Bindings, Selects inside none uri → ContentText inside content nodes) :
    ElementText bindings (printPlain spelling name as content) ⟨⟨name, uri, as⟩, nodes⟩ := by
  have hinside := hselects.congr (h.bindingsInside_tag bindings).symm
  exact .filled (h.tagText_tag spelling) rfl
    (means_of_selects h.name.plain h.attributes h.distinct hselects) (hcontent _ hinside)
    (endTagText_endTag h.isName_tag)

/-- The start tag of a declaration is a normal one. -/
theorem isNormal_attributes (d : Declaration) :
    (⟨"ScriptParameter", none, d.attributes⟩ : Head).IsNormal := by
  have hname : IsLocalName "ScriptParameter" ∧ StartsName "ScriptParameter" := by decide +kernel
  have hnames : ∀ name ∈ ["id", "type", "values"],
      IsLocalName name ∧ StartsName name ∧ name ≠ "xmlns" := by decide +kernel
  have hattributes : ∀ a ∈ d.attributes, a.IsNormal := by
    intro a ha
    obtain ⟨⟨name, value?⟩, hmem, heq⟩ := List.mem_filterMap.1 ha
    obtain ⟨value, -, rfl⟩ := Option.map_eq_some_iff.1 heq
    obtain ⟨hlocal, hstart, hxmlns⟩ := hnames name (List.mem_map_of_mem (f := Prod.fst) hmem)
    exact ⟨hlocal, fun _ => hstart, fun _ => hxmlns, by simp⟩
  have hdistinct : (unqualifiedNames d.attributes).Nodup := by
    obtain ⟨id, type, values, description⟩ := d
    rcases id with _ | id <;> rcases type with _ | type <;> rcases values with _ | values
    all_goals simp [unqualifiedNames, Declaration.attributes]
  exact ⟨hname.1, fun _ => hname.2, by simp, hattributes, hdistinct⟩

/-- The start tag of a description is a normal one. -/
theorem isNormal_description : (⟨"Description", none, []⟩ : Head).IsNormal := by
  decide +kernel

/-- A piece is written as text. -/
theorem TextPiece.writesText (spelling : Spelling) (p : TextPiece) :
    WritesText (p.print spelling) p.text := by
  cases p with
  | escaped text => exact writesText_escape spelling text
  | cdata text hend => exact writesText_cdata hend
  | comment body hmark hlast => exact CommentText.writesText ⟨body, hmark, hlast, rfl⟩

/-- Pieces are written as the text of them all. -/
theorem writesText_pieces (spelling : Spelling) (pieces : List TextPiece) :
    WritesText (pieces.flatMap (·.print spelling)) (textOf pieces) := by
  induction pieces with
  | nil => exact writesText_nil
  | cons p pieces ih => exact (p.writesText spelling).append ih

/-- A declaration is written as its element. -/
theorem elementText_print_declaration (spelling : Spelling) {bindings : Bindings}
    {uri : Option String} (hselects : Selects bindings none uri) (d : Declaration) :
    ElementText bindings (d.print spelling) (d.element uri) := by
  refine elementText_printPlain spelling (isNormal_attributes d) hselects fun inside hinside => ?_
  rw [Declaration.printContent, Declaration.nodes]
  split
  · exact .nil
  · next pieces _ =>
    have hdescription := elementText_printPlain spelling isNormal_description hinside
      fun inside _ => (writesText_pieces spelling pieces inside [] [] .nil guarded_nil).1
    rw [List.append_nil] at hdescription
    rw [← List.append_nil (printPlain _ _ _ _)]
    exact .element hdescription .nil

/-- Declarations are written as their elements. -/
theorem contentText_declarations (spelling : Spelling) {bindings : Bindings} {uri : Option String}
    (hselects : Selects bindings none uri) (ds : List Declaration) :
    ContentText bindings (ds.flatMap (·.print spelling)) (ds.map fun d => (d.element uri).node) := by
  induction ds with
  | nil => exact .nil
  | cons d ds ih => exact .element (elementText_print_declaration spelling hselects d) ih

/-- Inside the root, no prefix selects its namespace. -/
theorem selects_rootTag (namespaceSetting : String) :
    Selects (bindingsInside noBindings (rootTag namespaceSetting).attributes) none
      (uri? namespaceSetting) := by
  rw [rootTag, uri?]
  split_ifs with hempty
  · exact .unqualified rfl
  · have hbound : bindingsInside noBindings [⟨declarationName none, namespaceSetting⟩] none =
        some namespaceSetting := bindingsInside_of_mem (by simp) List.mem_cons_self rfl
    exact .bound (by simp) hbound hempty

/-- The name of the root is one. -/
theorem isName_rootTag (namespaceSetting : String) : IsName (rootTag namespaceSetting).name.toList := by
  have hname : IsName "M".toList := by decide
  exact hname

/-- The root has no attribute but the declaration of the default namespace. -/
theorem xmlns_rootTag (namespaceSetting : String) :
    ∀ a ∈ (rootTag namespaceSetting).attributes, a.name = declarationName none ∧ IsName a.name.toList := by
  have hname : IsName (declarationName none).toList := by decide
  rw [rootTag]
  split_ifs
  · exact List.forall_mem_nil _
  · rw [List.forall_mem_singleton]
    exact ⟨rfl, hname⟩

/-- The root is in the default namespace that it sets, and has no attributes. -/
theorem means_rootTag (namespaceSetting : String) :
    (rootTag namespaceSetting).Means noBindings ⟨"M", uri? namespaceSetting, []⟩ where
  declared a ha pre hpre := by
    rw [(xmlns_rootTag namespaceSetting a ha).1] at hpre
    exact absurd hpre.symm (declarationName_ne_default pre)
  name := by
    have hplain : ':' ∉ "M".toList := by decide
    exact ⟨none, .plain hplain, selects_rootTag namespaceSetting⟩
  attributes := by
    rw [rootTag]
    split_ifs
    · exact .nil
    · exact .declaration none rfl .nil

/-- The root of a manifest is written as its start tag. -/
theorem tagText_rootTag (spelling : Spelling) (namespaceSetting : String) :
    TagText ((rootTag namespaceSetting).print spelling) (rootTag namespaceSetting) := by
  have hnodup : ((rootTag namespaceSetting).attributes.map (·.name)).Nodup := by
    rw [rootTag]
    split_ifs
    · exact List.nodup_nil
    · exact List.nodup_singleton _
  exact tagText_print spelling (isName_rootTag namespaceSetting)
    (fun a ha => (xmlns_rootTag namespaceSetting a ha).2) hnodup

/-- The print of a manifest is its root element. -/
theorem elementText_manifest (spelling : Spelling) (namespaceSetting : String)
    (ds : List Declaration) :
    ElementText noBindings (manifestText spelling namespaceSetting ds)
      (rootElement (uri? namespaceSetting) ds) :=
  .filled (tagText_rootTag spelling namespaceSetting) rfl (means_rootTag namespaceSetting)
    (contentText_declarations spelling (selects_rootTag namespaceSetting) ds)
    (endTagText_endTag (isName_rootTag namespaceSetting))

/-- A manifest has at most three elements inside each other. -/
theorem depth_rootElement (uri : Option String) (ds : List Declaration) :
    (rootElement uri ds).depth ≤ 3 := by
  have hdeclaration : ∀ d : Declaration, (d.element uri).node.depth ≤ 2 := by
    intro d
    rw [Element.node, Node.depth, Declaration.element, Declaration.nodes]
    split
    · exact Nat.le_succ 1
    · rw [depthOf, Node.depth, depthOf_prependText]
      exact Nat.le_refl 2
  have hdeclarations : depthOf (ds.map fun d => (d.element uri).node) ≤ 2 := by
    induction ds with
    | nil => exact Nat.zero_le 2
    | cons d ds ih =>
      rw [List.map_cons, depthOf]
      exact Nat.max_le.2 ⟨hdeclaration d, ih⟩
  exact Nat.succ_le_succ hdeclarations

/-! ## Line ends -/

/-- A comment with its line ends normalized, and any other piece as it is. -/
def TextPiece.normalized : TextPiece → TextPiece
  | escaped text => escaped text
  | cdata text hend hcr => cdata text hend hcr
  | comment body hmark hlast =>
    comment (normalizeLines body)
      (fun h => hmark (infix_of_infix_normalizeLines (by decide) (by decide) h))
      (fun h => hlast (suffix_singleton_of_normalizeLines (by decide) h))

/-- A declaration with the line ends of its comments normalized. -/
def Declaration.normalized (d : Declaration) : Declaration :=
  { d with description := d.description.map fun pieces => pieces.map TextPiece.normalized }

/-- Normalizing line ends changes no text that a piece writes. -/
theorem TextPiece.text_normalized (p : TextPiece) : p.normalized.text = p.text := by
  cases p with
  | escaped => rfl
  | cdata => rfl
  | comment => rfl

/-- Normalizing line ends changes no parameter. -/
theorem Declaration.parameter_normalized (d : Declaration) :
    d.normalized.parameter = d.parameter := by
  have htext : ∀ pieces, textOf (pieces.map TextPiece.normalized) = textOf pieces := by
    intro pieces
    rw [textOf, List.flatMap_map]
    exact List.flatMap_congr fun p _ => p.text_normalized
  simp only [parameter, normalized, Option.map_map, Function.comp_def, htext]

/-- A piece is normalized to the normalized piece. -/
theorem TextPiece.normalizes_print (spelling : Spelling) (p : TextPiece) :
    Normalizes (p.print spelling) (p.normalized.print spelling) := by
  cases p with
  | escaped text =>
    exact .of_not_mem (cr_not_mem_escape spelling (by decide) textSpecials_subset text)
  | cdata text hend hcr =>
    refine .of_not_mem ?_
    simp [print, cdataMark, cdataEnd, hcr]
  | comment body hmark hlast =>
    -- Of all pieces only a comment can hold a CR, and its mark parts a last CR from what follows.
    have hbody : Normalizes (body ++ ['-', '-', '>']) (normalizeLines body ++ ['-', '-', '>']) :=
      .before body (by decide) (by decide)
    have hcomment := (Normalizes.of_not_mem (s := commentMark) (by decide)).append hbody
    rwa [← List.append_assoc, ← List.append_assoc] at hcomment

/-- An element whose name has no prefix is normalized when its content is. -/
theorem normalizes_printPlain (spelling : Spelling) {name : String} {as : List Attribute}
    {content content' : List Char} (h : (⟨name, none, as⟩ : Head).IsNormal)
    (hcontent : Normalizes content content') :
    Normalizes (printPlain spelling name as content) (printPlain spelling name as content') := by
  have htag := Tag.cr_not_mem_print spelling h.isName_tag h.isName_attributes
  exact ((Normalizes.of_not_mem htag).append hcontent).append
    (.of_not_mem (cr_not_mem_endTag h.isName_tag))

/-- A declaration is normalized to the normalized declaration. -/
theorem Declaration.normalizes_print (spelling : Spelling) (d : Declaration) :
    Normalizes (d.print spelling) (d.normalized.print spelling) := by
  refine normalizes_printPlain spelling (isNormal_attributes d) ?_
  rw [printContent, printContent, normalized]
  cases d.description with
  | none => exact .of_not_mem List.not_mem_nil
  | some pieces =>
    refine normalizes_printPlain spelling isNormal_description ?_
    rw [List.flatMap_map]
    exact .flatMap fun p _ => p.normalizes_print spelling

/-- The text of a manifest is normalized to that of the normalized declarations. -/
theorem normalizes_manifestText (spelling : Spelling) (namespaceSetting : String)
    (ds : List Declaration) :
    Normalizes (manifestText spelling namespaceSetting ds)
      (manifestText spelling namespaceSetting (ds.map Declaration.normalized)) := by
  have htag := Tag.cr_not_mem_print spelling (isName_rootTag namespaceSetting)
    (fun a ha => (xmlns_rootTag namespaceSetting a ha).2)
  have hds : Normalizes (ds.flatMap (·.print spelling))
      ((ds.map Declaration.normalized).flatMap (·.print spelling)) := by
    rw [List.flatMap_map]
    exact .flatMap fun d _ => d.normalizes_print spelling
  exact ((Normalizes.of_not_mem htag).append hds).append (.of_not_mem (by decide))

/-! ## Reading what is written -/

/-- Parsing a manifest gives its root element. -/
theorem parse_manifest (spelling : Spelling) (namespaceSetting : String) (ds : List Declaration) :
    Xml.parse (manifest spelling namespaceSetting ds) =
      .ok (rootElement (uri? namespaceSetting) (ds.map Declaration.normalized)) := by
  have helement := elementText_manifest spelling namespaceSetting (ds.map Declaration.normalized)
  have hdepth : (rootElement (uri? namespaceSetting) (ds.map Declaration.normalized)).depth ≤ maxDepth :=
    (depth_rootElement _ _).trans (by decide)
  exact parse_of_elementText (normalizes_manifestText spelling namespaceSetting ds) helement hdepth

/-- The declaration of a parameter with its description as one escaped piece. -/
def Declaration.ofParameter (p : Parameter) : Declaration where
  id := p.id
  type := p.type
  values := p.values
  description := p.description.map fun s => [.escaped s.toList]

/-- It declares the parameter. -/
theorem Declaration.parameter_ofParameter (p : Parameter) : (ofParameter p).parameter = p := by
  obtain ⟨id, type, values, _ | description⟩ := p
  · rfl
  · simp [parameter, ofParameter, textOf, TextPiece.text]

/-- Any parameters can be written as a manifest, and reading a manifest in which they are written, in
whatever pieces, gives exactly them. The class that is generated from it is the one generated from
them, with any valid settings for its namespace. -/
theorem parameters_manifest (spelling : Spelling) (namespaceSetting : String)
    (ps : List Parameter) :
    (∃ ds : List Declaration, ds.map (·.parameter) = ps) ∧
    ∀ ds : List Declaration, ds.map (·.parameter) = ps →
      parameters (manifest spelling namespaceSetting ds) namespaceSetting = .ok ps ∧
      ∀ settings : Settings, settings.validate = .ok settings →
        settings.manifestNamespace = namespaceSetting →
          generateFrom (manifest spelling namespaceSetting ds) settings = generate ps settings := by
  have hread : ∀ ds : List Declaration, ds.map (·.parameter) = ps →
      parameters (manifest spelling namespaceSetting ds) namespaceSetting = .ok ps := by
    rintro ds rfl
    -- The text is that of the normalized declarations, which declare the same parameters.
    rw [parameters, parse, parse_manifest]
    dsimp only
    rw [parametersOf_rootElement, List.map_map]
    simp only [Function.comp_def, Declaration.parameter_normalized]
  refine ⟨⟨ps.map Declaration.ofParameter, ?_⟩, fun ds hds => ⟨hread ds hds, ?_⟩⟩
  · simp [Function.comp_def, Declaration.parameter_ofParameter]
  · rintro settings hvalid rfl
    rw [generateFrom, hvalid]
    dsimp only
    unfold extract
    rw [hread ds hds]
    rfl

/-- A namespace and values with special characters, an empty value beside an absent one, an empty
description beside an absent one, and one in pieces: references, character data that looks like markup
and a comment with an end tag and line ends in it. -/
theorem parameters_manifest_of_pieces :
    let ds : List Declaration := [
      ⟨some "<\r\n\t\"&>", none, some "", some [.escaped "]]>\r".toList,
        .cdata "]]<a>&amp;".toList (by decide) (by decide),
        .comment "</Description>\r\n->\r".toList (by decide) (by decide), .escaped ">".toList]⟩,
      ⟨none, some "t", none, none⟩, ⟨none, none, none, some []⟩]
    let ps : List Parameter := [
      ⟨some "<\r\n\t\"&>", none, some "", some "]]>\r]]<a>&amp;>"⟩, ⟨none, some "t", none, none⟩,
      ⟨none, none, none, some ""⟩]
    let settings : Settings := ⟨"u&\"\r", " ", .crlf⟩
    ds.map (·.parameter) = ps ∧ settings.validate = .ok settings ∧
      parameters (manifest .named "u&\"\r" ds) "u&\"\r" = .ok ps ∧
      generateFrom (manifest .named "u&\"\r" ds) settings = generate ps settings := by
  intro ds ps settings
  have hds : ds.map (·.parameter) = ps := by decide +kernel
  have hvalid : settings.validate = .ok settings := if_pos (by decide +kernel)
  obtain ⟨hread, hgenerate⟩ := (parameters_manifest .named "u&\"\r" ps).2 ds hds
  exact ⟨hds, hvalid, hread, hgenerate settings hvalid rfl⟩

example :
    manifest .named "u" [⟨none, none, some "\n",
        some [.escaped ['<'], .comment [] (by decide) (by decide), .cdata ['<'] (by decide) (by decide)]⟩] =
      "<M xmlns=\"u\"><ScriptParameter values=\"&#xA;\"><Description>&lt;<!----><![CDATA[<]]>" ++
        "</Description></ScriptParameter></M>" := by
  decide +kernel

end ParamClass.Manifest

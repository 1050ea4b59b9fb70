import ParamClass.Proofs.Printing.Tree

/-!
# Trees as they are written

A document before its namespaces are resolved: elements and attributes with their prefixes, and the
declarations among the attributes, wherever they stand. Such a tree need not be a document. Two of
its attributes may have the same name, a prefix may be unbound, and it may be too deep. What it
denotes is written down here from the outside in, with nothing to read (`SourceNode.denote`), and
parsing the print of a tree gives exactly this (`toOption_parse_print`).
-/

namespace ParamClass.Xml

open Text

/-! ## Names -/

/-- A local name, as it may be declared as a prefix or stand behind one. -/
structure LocalName where
  /-- Its characters. -/
  text : String
  /-- It is a local name. -/
  isLocalName : IsLocalName text
  deriving DecidableEq

/-- Local names with the same characters are the same. -/
theorem LocalName.text_inj {name name' : LocalName} : name.text = name'.text ↔ name = name' := by
  cases name
  cases name'
  rw [LocalName.mk.injEq]

/-- A name without a colon, as it may stand before one. -/
structure NCName extends LocalName where
  /-- It is a name. -/
  isName : IsName text.toList
  deriving DecidableEq

namespace NCName

/-- The prefix that stands for the same URI everywhere. -/
def xml : NCName := ⟨⟨"xml", by decide⟩, by decide⟩

/-- The name that declares. -/
def xmlns : NCName := ⟨⟨"xmlns", by decide⟩, by decide⟩

/-- There is no colon in the name. -/
theorem plain (name : NCName) : ':' ∉ name.text.toList := name.isLocalName.plain

/-- Names that are the same local name are the same. -/
theorem toLocalName_inj {name name' : NCName} :
    name.toLocalName = name'.toLocalName ↔ name = name' := by
  cases name
  cases name'
  rw [NCName.mk.injEq]

/-- Names with the same characters are the same. -/
theorem text_inj {name name' : NCName} : name.text = name'.text ↔ name = name' := by
  rw [LocalName.text_inj, toLocalName_inj]

end NCName

/-- The name of an element. -/
inductive SourceName where
  /-- A name without a prefix. -/
  | plain (name : NCName)
  /-- A name with a prefix. -/
  | prefixed (pre : NCName) (base : LocalName)

namespace SourceName

/-- The name as it is written. -/
def text : SourceName → String
  | plain name => name.text
  | prefixed pre base => pre.text ++ ":" ++ base.text

/-- The two parts of the name. -/
def parts : SourceName → QName
  | plain name => ⟨none, name.text⟩
  | prefixed pre base => ⟨some pre.text, base.text⟩

/-- What is written is a name. -/
theorem isName_text (name : SourceName) : IsName name.text.toList := by
  cases name with
  | plain name => exact name.isName
  | prefixed pre base => exact base.isLocalName.isName_prefixed pre.isName

/-- What is written has the parts of the name. -/
theorem ofName?_text (name : SourceName) : QName.ofName? name.text = some name.parts := by
  cases name with
  | plain name => exact (NameParts.plain name.plain).ofName?_eq
  | prefixed pre base => exact (base.isLocalName.nameParts pre.isName pre.plain).ofName?_eq

end SourceName

/-- An attribute with its value. -/
inductive SourceAttribute where
  /-- The declaration of the default namespace. -/
  | default (uri : String)
  /-- The declaration of a prefix. -/
  | declaration (pre : LocalName) (uri : String)
  /-- An attribute without a prefix. -/
  | plain (name : NCName) (h : name ≠ .xmlns) (value : String)
  /-- An attribute with a prefix. -/
  | prefixed (pre : NCName) (h : pre ≠ .xmlns) (base : LocalName) (value : String)

/-- The attribute as a tag writes it. -/
def SourceAttribute.raw : SourceAttribute → RawAttribute
  | default uri => ⟨declarationName none, uri⟩
  | declaration pre uri => ⟨declarationName (some pre.text), uri⟩
  | plain name _ value => ⟨name.text, value⟩
  | prefixed pre _ base value => ⟨pre.text ++ ":" ++ base.text, value⟩

/-- What is written for an attribute is a name. -/
theorem SourceAttribute.isName_raw (a : SourceAttribute) : IsName a.raw.name.toList := by
  cases a with
  | default uri => exact (by decide : IsName "xmlns".toList)
  | declaration pre uri => exact isName_declarationName pre.isLocalName.chars
  | plain name h value => exact name.isName
  | prefixed pre h base value => exact base.isLocalName.isName_prefixed pre.isName

/-! ## Trees -/

/-- A node as it is written. -/
inductive SourceNode where
  /-- An element. -/
  | element (name : SourceName) (attributes : List SourceAttribute) (children : List SourceNode)
  /-- A text. -/
  | text (content : String)

/-- The start tag of an element. -/
def sourceTag (name : SourceName) (attributes : List SourceAttribute) : Tag :=
  ⟨name.text, attributes.map SourceAttribute.raw, false⟩

mutual

/-- A node as it is printed: an element between its tags, a text escaped. -/
def SourceNode.print (spelling : Spelling) : SourceNode → List Char
  | .element name attributes children =>
    (sourceTag name attributes).print spelling ++ printSources spelling children ++ endTag name.text
  | .text content => escape spelling textSpecials content.toList

/-- Some nodes as they are printed, one after the other. -/
def printSources (spelling : Spelling) : List SourceNode → List Char
  | [] => []
  | n :: ns => n.print spelling ++ printSources spelling ns

end

/-- The element of a tag that is met inside `depth` others, where what is denoted inside it depends
on the scope there. -/
def Tag.denote (tag : Tag) (scope : Scope) (depth : Nat)
    (content : Scope → Option (List Node)) : Option Element :=
  if maxDepth ≤ depth ∨ ¬ (tag.attributes.map (·.name)).Nodup then none
  else (tag.resolve scope).toOption.bind fun (head, inner) => (content inner).map (⟨head, ·⟩)

mutual

/-- The nodes that a node denotes in front of others, inside `depth` elements. -/
def SourceNode.denote (scope : Scope) (depth : Nat) : SourceNode → Option (List Node → List Node)
  | .element name attributes children =>
    ((sourceTag name attributes).denote scope depth fun inner =>
      denoteSources inner (depth + 1) children).map fun e => (e.node :: ·)
  | .text content => some (prependText content.toList)

/-- The nodes that some nodes denote. -/
def denoteSources (scope : Scope) (depth : Nat) : List SourceNode → Option (List Node)
  | [] => some []
  | n :: ns => (n.denote scope depth).bind fun add => (denoteSources scope depth ns).map add

end

/-! ## Texts -/

/-- An escaped text in front of a guarded text leaves it guarded. -/
theorem guarded_escape (spelling : Spelling) (text : List Char) {s : List Char} (h : Guarded s) :
    Guarded (escape spelling textSpecials text ++ s) := by
  induction text with
  | nil => exact h
  | cons c text ih =>
    by_cases hc : c ∈ textSpecials
    · rw [escape_cons_of_mem spelling hc]
      exact guarded_cons (by decide) (by decide) _
    · rw [escape_cons_of_not_mem spelling hc]
      exact ih.cons fun hgt => hc (hgt ▸ by decide)

/-- Reading goes past an escaped text, and adds it as it was. -/
theorem readContent_escape (spelling : Spelling) (text : List Char) {top : Frame}
    {outer : List Frame} {s : List Char} (h : Guarded s) :
    readContent (.inside top outer) (escape spelling textSpecials text ++ s) =
      readContent (.inside (top.withText text) outer) s := by
  induction text generalizing top with
  | nil =>
    rw [Frame.withText, addText_nil]
    rfl
  | cons c text ih =>
    have hadd : (top.withText [c]).withText text = top.withText (c :: text) :=
      congrArg (fun nodes => { top with nodes := nodes }) (addText_append [c] text top.nodes).symm
    by_cases hc : c ∈ textSpecials
    · have href := spelling.referenceText (textSpecials_subset hc)
      rw [escape_cons_of_mem spelling hc, List.append_assoc, (Piece.reference href).readContent, ih,
        hadd]
    · have hguarded : Guarded (c :: (escape spelling textSpecials text ++ s)) :=
        (guarded_escape spelling text h).cons fun hgt => hc (hgt ▸ by decide)
      have hlt : c ≠ '<' := fun heq => hc (heq ▸ by decide)
      have hamp : c ≠ '&' := fun heq => hc (heq ▸ by decide)
      rw [escape_cons_of_not_mem spelling hc, List.cons_append,
        (Piece.char hlt hamp hguarded.not_cdataEnd).readContent, ih, hadd]

/-! ## Tags -/

/-- A printed element starts with a `<` and a character that starts a name. -/
theorem SourceNode.exists_print_eq (spelling : Spelling) (name : SourceName)
    (attributes : List SourceAttribute) (children : List SourceNode) :
    ∃ c r, (element name attributes children).print spelling = '<' :: c :: r ∧
      isNameStart c = true := by
  obtain ⟨c, r, hr, hc⟩ := name.isName_text.exists_cons
  exact ⟨c, _, by rw [print, Tag.print, sourceTag, hr]; rfl, hc⟩

/-- What is printed after a guarded text stays guarded. -/
theorem guarded_printSources (spelling : Spelling) (ns : List SourceNode) {s : List Char}
    (h : Guarded s) : Guarded (printSources spelling ns ++ s) := by
  match ns with
  | [] => exact h
  | .element name attributes children :: ns =>
    obtain ⟨c, r, hr, -⟩ := SourceNode.exists_print_eq spelling name attributes children
    rw [printSources, hr]
    exact guarded_cons (by decide) (by decide) _
  | .text content :: ns =>
    rw [printSources, List.append_assoc]
    exact guarded_escape spelling _ (guarded_printSources spelling ns h)

/-- The name of the tag has the parts of the name. -/
theorem ofName?_sourceTag (name : SourceName) (attributes : List SourceAttribute) :
    QName.ofName? (sourceTag name attributes).name = some name.parts :=
  name.ofName?_text

/-- The tag of an element has names. -/
theorem isName_sourceTag (name : SourceName) (attributes : List SourceAttribute) :
    IsName (sourceTag name attributes).name.toList ∧
      ∀ a ∈ (sourceTag name attributes).attributes, IsName a.name.toList := by
  refine ⟨name.isName_text, ?_⟩
  intro a ha
  obtain ⟨b, -, rfl⟩ := List.mem_map.1 ha
  exact b.isName_raw

/-- A printed tag is read, unless two of its attributes have the same name. -/
theorem readTag_print (spelling : Spelling) {tag : Tag} (hname : IsName tag.name.toList)
    (hnames : ∀ a ∈ tag.attributes, IsName a.name.toList) {s rest : List Char}
    (hs : '<' :: s = tag.print spelling ++ rest) :
    (readTag s).toOption =
      if (tag.attributes.map (·.name)).Nodup then some (tag, rest) else none := by
  split
  · next hnodup =>
    have htext := tagText_print spelling hname hnames hnodup
    rw [readTag_eq_ok_iff.2 ⟨_, htext, hs⟩]
    rfl
  · next hnodup =>
    have hattributes := attributesText_print spelling hnames
    have hmark : Stops isNameChar (tag.endMark ++ rest) := (tag.endMark_stops rest).2
    have hs' : s = tag.name.toList ++
        ((tag.attributes.flatMap fun a => ' ' :: a.print spelling) ++ (tag.endMark ++ rest)) := by
      simpa [Tag.print] using hs
    obtain ⟨stop, hstop⟩ := hattributes.exists_readAttributes_eq_error tag.name [] List.nodup_nil
      hnodup (tag.endMark ++ rest)
    rw [readTag, readName_eq_ok_iff.2 ⟨hname, hattributes.stops_isNameChar hmark, hs'⟩]
    dsimp only
    rw [hstop]
    rfl

/-! ## Elements -/

/-- What a tree denotes is merged. -/
theorem merged_denoteSources {ns : List SourceNode} {scope : Scope} {depth : Nat} {nodes : List Node}
    (h : denoteSources scope depth ns = some nodes) : Merged nodes := by
  induction ns generalizing nodes with
  | nil =>
    obtain rfl := Option.some.inj h
    exact trivial
  | cons n ns ih =>
    obtain ⟨add, hadd, h⟩ := Option.bind_eq_some_iff.1 h
    obtain ⟨others, hothers, rfl⟩ := Option.map_eq_some_iff.1 h
    cases n with
    | element name attributes children =>
      obtain ⟨e, -, rfl⟩ := Option.map_eq_some_iff.1 hadd
      have hmerged : Merged others := ih hothers
      exact hmerged
    | text content =>
      obtain rfl := Option.some.inj hadd
      exact (ih hothers).prependText _

/-- Unless it is too deep, an element is opened with what its start tag says, and read on from
there. -/
theorem toOption_readInside (outer : List Frame) (start s : List Char) :
    (readInside outer start s).toOption =
      if maxDepth ≤ outer.length then none
      else (readTag s).toOption.bind fun (tag, rest) =>
        (tag.resolve (scopeOf outer)).toOption.bind fun (head, inner) =>
          (readContent (if tag.isEmpty then .after ⟨head, []⟩ outer
            else .inside ⟨tag.name, head, inner, []⟩ outer) rest).toOption := by
  rw [readInside, openElement]
  by_cases hdepth : maxDepth ≤ outer.length
  · rw [if_pos hdepth, if_pos hdepth]
    rfl
  rw [if_neg hdepth, if_neg hdepth]
  rcases readTag s with stop | ⟨tag, rest⟩
  · rfl
  dsimp only [Except.toOption, Option.bind_some]
  rcases tag.resolve (scopeOf outer) with cause | ⟨head, inner⟩
  · rfl
  dsimp only [Option.bind_some]
  cases tag.isEmpty <;> rfl

mutual

/-- Reading a printed element inside others gives what it denotes there. -/
theorem readInside_print (spelling : Spelling) (name : SourceName)
    (attributes : List SourceAttribute) (children : List SourceNode) {outer : List Frame}
    {start s rest : List Char}
    (hs : '<' :: s = (SourceNode.element name attributes children).print spelling ++ rest) :
    (readInside outer start s).toOption =
      ((sourceTag name attributes).denote (scopeOf outer) outer.length fun inner =>
        denoteSources inner (outer.length + 1) children).bind fun e =>
          (readContent (.after e outer) rest).toOption := by
  obtain ⟨hname, hnames⟩ := isName_sourceTag name attributes
  have hs' : '<' :: s = (sourceTag name attributes).print spelling ++
      (printSources spelling children ++ (endTag name.text ++ rest)) := by
    rw [hs, SourceNode.print, List.append_assoc, List.append_assoc]
  rw [toOption_readInside, readTag_print spelling hname hnames hs', Tag.denote]
  by_cases hdepth : maxDepth ≤ outer.length
  · rw [if_pos hdepth, if_pos (.inl hdepth)]
    rfl
  by_cases hnodup : ((sourceTag name attributes).attributes.map (·.name)).Nodup
  · rw [if_neg hdepth, if_neg (not_or.2 ⟨hdepth, not_not.2 hnodup⟩), if_pos hnodup, Option.bind_some,
      Option.bind_assoc]
    refine Option.bind_congr fun resolved _ => ?_
    obtain ⟨head, inner⟩ := resolved
    have hguarded : Guarded (endTag name.text ++ rest) :=
      guarded_cons (by decide) (by decide) (['/'] ++ name.text.toList ++ ['>'] ++ rest)
    let frame : Frame := ⟨name.text, head, inner, []⟩
    have hcontent : (readContent (.inside frame outer)
        (printSources spelling children ++ (endTag name.text ++ rest))).toOption = _ :=
      readContent_printSources spelling children hguarded
    refine hcontent.trans ?_
    show _ = ((denoteSources inner (outer.length + 1) children).map _).bind _
    rw [Option.bind_map]
    refine Option.bind_congr fun nodes hnodes => ?_
    -- The end tag closes the element with the nodes that have been read.
    have hend : EndTagText (frame.withNodes nodes).tagName (endTag name.text) :=
      endTagText_endTag name.isName_text
    rw [(Piece.endTag hend).readContent, (merged_denoteSources hnodes).close_withNodes]
    rfl
  · rw [if_neg hdepth, if_neg hnodup, if_pos (.inr hnodup)]
    rfl
-- Its content is no smaller than the children, but reading content goes on only into smaller ones.
termination_by (sizeOf children, 1)

/-- Reading printed nodes gives what they denote inside the open elements. -/
theorem readContent_printSources (spelling : Spelling) (ns : List SourceNode) {top : Frame}
    {outer : List Frame} {rest : List Char} (hrest : Guarded rest) :
    (readContent (.inside top outer) (printSources spelling ns ++ rest)).toOption =
      (denoteSources top.scope (outer.length + 1) ns).bind fun nodes =>
        (readContent (.inside (top.withNodes nodes) outer) rest).toOption := by
  match ns with
  | [] => rfl
  | .element name attributes children :: ns =>
    obtain ⟨c, r, hr, hc⟩ := SourceNode.exists_print_eq spelling name attributes children
    have hs : '<' :: c :: (r ++ (printSources spelling ns ++ rest)) =
        (SourceNode.element name attributes children).print spelling ++
          (printSources spelling ns ++ rest) := by rw [hr]; rfl
    have helement : ∀ start, (readInside (top :: outer) start _).toOption = _ :=
      fun start => readInside_print spelling name attributes children hs
    rw [printSources, hr, List.append_assoc, List.cons_append, List.cons_append,
      readContent_startTag hc, helement, denoteSources, SourceNode.denote, Option.bind_assoc,
      Option.bind_map]
    refine Option.bind_congr fun e _ => ?_
    rw [Function.comp, Option.bind_map]
    exact readContent_printSources spelling ns hrest
  | .text content :: ns =>
    have hguarded := guarded_printSources spelling ns hrest
    rw [printSources, SourceNode.print, List.append_assoc, readContent_escape spelling _ hguarded,
      readContent_printSources spelling ns hrest, denoteSources, SourceNode.denote,
      Option.bind_some, Option.bind_map]
    refine Option.bind_congr fun nodes _ => ?_
    rw [Function.comp, Frame.withText_withNodes]
termination_by (sizeOf ns, 0)

end

/-! ## Documents -/

mutual

/-- There is no CR in the print of a node. -/
theorem SourceNode.cr_not_mem_print (spelling : Spelling) (n : SourceNode) :
    '\r' ∉ n.print spelling := by
  match n with
  | .element name attributes children =>
    obtain ⟨hname, hnames⟩ := isName_sourceTag name attributes
    have htag := Tag.cr_not_mem_print spelling hname hnames
    have hcontent := cr_not_mem_printSources spelling children
    have hend := cr_not_mem_endTag name.isName_text
    rw [SourceNode.print, List.mem_append, List.mem_append, not_or, not_or]
    exact ⟨⟨htag, hcontent⟩, hend⟩
  | .text content => exact cr_not_mem_escape spelling (by decide) textSpecials_subset _

/-- There is no CR in the prints of nodes. -/
theorem cr_not_mem_printSources (spelling : Spelling) (ns : List SourceNode) :
    '\r' ∉ printSources spelling ns := by
  match ns with
  | [] => exact List.not_mem_nil
  | n :: ns =>
    rw [printSources, List.mem_append, not_or]
    exact ⟨n.cr_not_mem_print spelling, cr_not_mem_printSources spelling ns⟩

end

/-- An element as it is written. -/
structure SourceElement where
  /-- Its name. -/
  name : SourceName
  /-- Its attributes, in the order of the tag. -/
  attributes : List SourceAttribute
  /-- What it holds. -/
  children : List SourceNode

namespace SourceElement

/-- The element as a node. -/
def node (e : SourceElement) : SourceNode := .element e.name e.attributes e.children

/-- The element as the text of a document. -/
def print (spelling : Spelling) (e : SourceElement) : String := .ofList (e.node.print spelling)

/-- What the element denotes as the root of a document. -/
def denote (e : SourceElement) : Option Element :=
  (sourceTag e.name e.attributes).denote [] 0 fun inner => denoteSources inner 1 e.children

end SourceElement

/-- Parsing the print of an element as a document gives what it denotes, and fails if it denotes
nothing. -/
theorem toOption_parse_print (spelling : Spelling) (e : SourceElement) :
    (parse (e.print spelling)).toOption = e.denote := by
  obtain ⟨c, r, hr, hc⟩ := SourceNode.exists_print_eq spelling e.name e.attributes e.children
  have hlines : normalizeLines (e.print spelling).toList = '<' :: c :: r := by
    have hnormal : Normalizes (e.node.print spelling) (e.node.print spelling) :=
      .of_not_mem (e.node.cr_not_mem_print spelling)
    rw [SourceElement.print, String.toList_ofList, hnormal.eq]
    exact hr
  have hread : (readElement ('<' :: c :: r) (c :: r)).toOption = e.denote.map (·, []) := by
    have hinside : (readInside [] ('<' :: c :: r) (c :: r)).toOption = _ :=
      readInside_print spelling e.name e.attributes e.children
        (hr.symm.trans (List.append_nil _).symm)
    refine hinside.trans ?_
    rw [SourceElement.denote, Option.map_eq_bind]
    refine Option.bind_congr fun root _ => ?_
    rw [Progress.after, readContent]
    rfl
  ext root
  rw [toOption_eq_some, parse_eq_ok_iff, hlines,
    readDocument_eq_ok_iff_of_start ⟨c, r, rfl, hc⟩]
  constructor
  · rintro ⟨t, m, ht, -, hdepth, hs⟩
    rw [readElement_eq_ok_iff.2 ⟨t, ht, hdepth, hs⟩] at hread
    obtain ⟨root', hroot, heq⟩ := Option.map_eq_some_iff.1 hread.symm
    obtain ⟨rfl, -⟩ := Prod.mk.inj heq
    exact hroot
  · intro hroot
    rw [hroot, Option.map_some, toOption_eq_some] at hread
    obtain ⟨t, ht, hdepth, hs⟩ := readElement_eq_ok_iff.1 hread
    exact ⟨t, [], ht, .nil, hdepth, hs⟩

end ParamClass.Xml

import ParamClass.Except
import ParamClass.Xml.Tag

/-!
# Content of elements

Content is read piece by piece, from left to right. What the reader keeps is the list of open
elements, the innermost first, each with its nodes so far; their number is the depth. A start tag
opens an element, an end tag closes the innermost one and hands it to the one around it, and when
none is left the root is complete. Every piece takes at least one character, so reading ends.
-/

namespace ParamClass.Xml

open Text

/-- An element whose end tag is still to come. -/
structure Frame where
  /-- The name in the start tag, which the end tag has to repeat. -/
  tagName : String
  /-- What the start tag says. -/
  head : Head
  /-- The bindings in scope inside. -/
  scope : Scope
  /-- The nodes so far, the last one first. -/
  nodes : List Node
  deriving Repr

/-- Nodes, the last one first, followed by a text. It joins a text that stands last, and an empty
text leaves no node. -/
def addText (text : List Char) : List Node → List Node
  | .text content :: nodes => .text (content ++ .ofList text) :: nodes
  | nodes => if text = [] then nodes else .text (.ofList text) :: nodes

namespace Frame

/-- The frame with a text after its nodes. -/
def withText (frame : Frame) (text : List Char) : Frame :=
  { frame with nodes := addText text frame.nodes }

/-- The frame with an element after its nodes. -/
def withElement (frame : Frame) (e : Element) : Frame :=
  { frame with nodes := e.node :: frame.nodes }

/-- The element, when its end tag is met. -/
def close (frame : Frame) : Element := ⟨frame.head, frame.nodes.reverse⟩

end Frame

/-- How far an element has been read. -/
inductive Progress where
  /-- The element `top` is open, inside the open elements `outer`. -/
  | inside (top : Frame) (outer : List Frame)
  /-- The outermost element is complete. -/
  | complete (root : Element)
  deriving Repr

/-- The progress that a complete element inside `outer` makes. -/
def Progress.after (e : Element) : List Frame → Progress
  | [] => .complete e
  | frame :: outer => .inside (frame.withElement e) outer

/-- The bindings in scope inside the innermost of some open elements. -/
def scopeOf : List Frame → Scope
  | [] => []
  | frame :: _ => frame.scope

/-- Reads a start tag inside `outer`; `start` is its `<` and what follows, `s` what follows. -/
def openElement (outer : List Frame) (start s : List Char) : Except Stop (Progress × List Char) :=
  if maxDepth ≤ outer.length then .error ⟨.tooDeep, start⟩
  else
    match readTag s with
    | .error stop => .error stop
    | .ok (tag, rest) =>
      match tag.resolve (scopeOf outer) with
      | .error cause => .error ⟨cause, rest⟩
      | .ok (head, scope) =>
        if tag.isEmpty then .ok (.after ⟨head, []⟩ outer, rest)
        else .ok (.inside ⟨tag.name, head, scope, []⟩ outer, rest)

/-- What may begin at a place inside an element. -/
inductive Lead where
  /-- An end tag. -/
  | endTag
  /-- A comment. -/
  | comment
  /-- A character data section. -/
  | cdata
  /-- A processing instruction. -/
  | instruction
  /-- Another markup declaration. -/
  | declaration
  /-- A start tag. -/
  | startTag
  /-- A reference. -/
  | reference
  /-- The end mark of a character data section. -/
  | cdataEnd
  deriving DecidableEq, Repr

/-- The mark that shows what begins. -/
def Lead.mark : Lead → List Char
  | endTag => ['<', '/']
  | comment => commentMark
  | cdata => ['<', '!', '[', 'C', 'D', 'A', 'T', 'A', '[']
  | instruction => instructionMark
  | declaration => ['<', '!']
  | startTag => ['<']
  | reference => ['&']
  | cdataEnd => [']', ']', '>']

/-- The leads in the order in which they are looked for: a mark that starts another comes after
it. -/
def Lead.all : List Lead :=
  [endTag, comment, cdata, instruction, declaration, startTag, reference, cdataEnd]

/-- What begins here, with the text after its mark; `none` if it is a plain character or the
end. -/
def Lead.of? (s : List Char) : Option (Lead × List Char) :=
  all.findSome? fun lead => (after? lead.mark s).map (lead, ·)

/-- Reads one piece of the content of `top`, which is open inside `outer`. -/
def readPiece (top : Frame) (outer : List Frame) (s : List Char) :
    Except Stop (Progress × List Char) :=
  match Lead.of? s with
  | some (.endTag, r) => (readEndTag top.tagName s r).map (.after top.close outer, ·)
  | some (.comment, r) => (readComment s r).map (.inside top outer, ·)
  | some (.cdata, r) =>
    -- An unfinished section is reported after its opening mark, other markup at its mark.
    match cut? [']', ']', '>'] r with
    | none => .error ⟨.unterminatedCData, r⟩
    | some (text, rest) => .ok (.inside (top.withText text) outer, rest)
  | some (.instruction, r) => (readPlainInstruction s r).map (.inside top outer, ·)
  | some (.declaration, _) => .error ⟨.declarationInElement, s⟩
  | some (.startTag, r) => openElement (top :: outer) s r
  | some (.reference, r) =>
    (readReference r).map fun (c, rest) => (.inside (top.withText [c]) outer, rest)
  | some (.cdataEnd, _) => .error ⟨.cdataEndInText, s⟩
  | none =>
    match s with
    | [] => .error ⟨.unexpectedEnd, []⟩
    | c :: rest => .ok (.inside (top.withText [c]) outer, rest)

/-- What follows a start tag is shorter than what follows its `<`. -/
theorem openElement_length {outer : List Frame} {start s rest : List Char} {p : Progress}
    (h : openElement outer start s = .ok (p, rest)) : rest.length < s.length := by
  unfold openElement at h
  split at h
  · cases h
  · split at h
    · cases h
    · next hr =>
      split at h
      · cases h
      · split at h <;> cases h <;> exact readTag_length hr

/-- What follows a mark is shorter than the text. -/
theorem Lead.of?_length {s rest : List Char} {lead : Lead} (h : of? s = some (lead, rest)) :
    rest.length < s.length := by
  obtain ⟨l, _, hl⟩ := List.exists_of_findSome?_eq_some h
  obtain ⟨r, hr, heq⟩ := Option.map_eq_some_iff.1 hl
  cases heq
  have := after?_length hr
  have : 0 < lead.mark.length := by cases lead <;> decide
  omega

/-- A piece of content takes at least one character. -/
theorem readPiece_length {top : Frame} {outer : List Frame} {s rest : List Char} {p : Progress}
    (h : readPiece top outer s = .ok (p, rest)) : rest.length < s.length := by
  unfold readPiece at h
  split at h
  · next r hl =>
    obtain ⟨a, ha, heq⟩ := map_eq_ok.1 h
    cases heq
    exact Nat.lt_trans (readEndTag_length ha) (Lead.of?_length hl)
  · next r hl =>
    obtain ⟨a, ha, heq⟩ := map_eq_ok.1 h
    cases heq
    exact Nat.lt_trans (readComment_length ha) (Lead.of?_length hl)
  · next r hl =>
    split at h
    · cases h
    · next hc =>
      cases h
      have := cut?_length hc
      have := Lead.of?_length hl
      omega
  · next r hl =>
    obtain ⟨a, ha, heq⟩ := map_eq_ok.1 h
    cases heq
    exact Nat.lt_trans (readPlainInstruction_length ha) (Lead.of?_length hl)
  · cases h
  · next r hl => exact Nat.lt_trans (openElement_length h) (Lead.of?_length hl)
  · next r hl =>
    obtain ⟨⟨c, a⟩, ha, heq⟩ := map_eq_ok.1 h
    cases heq
    exact Nat.lt_trans (readReference_length ha) (Lead.of?_length hl)
  · cases h
  · split at h
    · cases h
    · cases h; simp

/-- Reads on until the outermost element is complete. -/
def readContent (progress : Progress) (s : List Char) : Except Stop (Element × List Char) :=
  match progress with
  | .complete root => .ok (root, s)
  | .inside top outer =>
    match _ : readPiece top outer s with
    | .error stop => .error stop
    | .ok (next, rest) => readContent next rest
termination_by s.length
decreasing_by exact readPiece_length ‹_›

/-- Reads an element, from the `<` of its start tag on, that is inside no other. -/
def readElement (start s : List Char) : Except Stop (Element × List Char) :=
  match openElement [] start s with
  | .error stop => .error stop
  | .ok (progress, rest) => readContent progress rest

end ParamClass.Xml

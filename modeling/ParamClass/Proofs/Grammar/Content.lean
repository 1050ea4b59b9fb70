import ParamClass.Proofs.Grammar.Naming
import ParamClass.Proofs.Grammar.Tag

/-!
# The grammar of elements

An element is an empty tag, or a start tag, content and the end tag of the same name. Content is
characters, references, character data, comments, instructions and elements in any order. What it
denotes is a list of nodes, in which all texts that meet are one and empty texts leave nothing.
-/

namespace ParamClass.Xml

open Text

/-! ## Nodes -/

mutual

/-- Whether two nodes are equal. -/
def Node.decEq : (m n : Node) → Decidable (m = n)
  | .element h ms, .element k ns =>
    have := decEqNodes ms ns
    decidable_of_iff (h = k ∧ ms = ns) (by rw [Node.element.injEq])
  | .text s, .text t => decidable_of_iff (s = t) (by rw [Node.text.injEq])
  | .element _ _, .text _ => .isFalse nofun
  | .text _, .element _ _ => .isFalse nofun

/-- Whether two lists of nodes are equal. -/
def decEqNodes : (ms ns : List Node) → Decidable (ms = ns)
  | [], [] => .isTrue rfl
  | [], _ :: _ => .isFalse nofun
  | _ :: _, [] => .isFalse nofun
  | m :: ms, n :: ns =>
    have := Node.decEq m n
    have := decEqNodes ms ns
    decidable_of_iff (m = n ∧ ms = ns) (by rw [List.cons.injEq])

end

instance : DecidableEq Node := Node.decEq

deriving instance DecidableEq for Element

/-- Nodes with a text in front of them. It joins a text that stands first, and an empty text leaves
no node. -/
def prependText (text : List Char) : List Node → List Node
  | .text content :: nodes => .text (.ofList text ++ content) :: nodes
  | nodes => if text = [] then nodes else .text (.ofList text) :: nodes

/-- No text among the nodes is empty, and no two texts meet. -/
def Merged : List Node → Prop
  | [] => True
  | .element _ _ :: nodes => Merged nodes
  | .text content :: nodes => content ≠ "" ∧ (∀ t, nodes.head? ≠ some (.text t)) ∧ Merged nodes

mutual

/-- The number of elements inside each other in a node. -/
def Node.depth : Node → Nat
  | .element _ children => depthOf children + 1
  | .text _ => 0

/-- The greatest depth among some nodes. -/
def depthOf : List Node → Nat
  | [] => 0
  | n :: ns => max n.depth (depthOf ns)

end

/-- The number of elements inside each other in an element, itself included. -/
def Element.depth (e : Element) : Nat := depthOf e.children + 1

/-- A text in front of nodes joins the first of them when that is a text, and is a node of its own
otherwise, if it is not empty. -/
theorem prependText_eq (text : List Char) (nodes : List Node) :
    (∃ content rest, nodes = .text content :: rest ∧
      prependText text nodes = .text (.ofList text ++ content) :: rest) ∨
    (∀ t, nodes.head? ≠ some (.text t)) ∧
      prependText text nodes = if text = [] then nodes else .text (.ofList text) :: nodes := by
  rcases nodes with _ | ⟨_ | content, nodes⟩
  · exact .inr ⟨by simp, rfl⟩
  · exact .inr ⟨by simp, rfl⟩
  · exact .inl ⟨content, nodes, rfl, rfl⟩

/-- A text in front of merged nodes leaves them merged. -/
theorem Merged.prependText {nodes : List Node} (h : Merged nodes) (text : List Char) :
    Merged (prependText text nodes) := by
  rcases prependText_eq text nodes with ⟨content, rest, rfl, heq⟩ | ⟨hhead, heq⟩
  · obtain ⟨hne, hhead, hrest⟩ := h
    rw [heq]
    refine ⟨?_, hhead, hrest⟩
    intro hempty
    rw [String.append_eq_empty_iff] at hempty
    exact hne hempty.2
  · rw [heq]
    split_ifs with ht
    · exact h
    · exact ⟨by simpa using ht, hhead, h⟩

/-- A text has no depth. -/
theorem depthOf_prependText (text : List Char) (nodes : List Node) :
    depthOf (prependText text nodes) = depthOf nodes := by
  rcases prependText_eq text nodes with ⟨content, rest, rfl, heq⟩ | ⟨-, heq⟩
  · rw [heq, depthOf, depthOf, Node.depth, Node.depth]
  · rw [heq]
    split_ifs
    · rfl
    · rw [depthOf, Node.depth, Nat.zero_max]

/-! ## The grammar -/

/-- The mark before a section of character data. -/
def cdataMark : List Char := ['<', '!', '[', 'C', 'D', 'A', 'T', 'A', '[']

/-- The mark after a section of character data. -/
def cdataEnd : List Char := [']', ']', '>']

mutual

/-- The text of an element, where prefixes stand for what `bindings` say. -/
inductive ElementText : Bindings → List Char → Element → Prop where
  /-- An element without content. -/
  | empty {bindings t tag head} (ht : TagText t tag) (hempty : tag.isEmpty = true)
      (hmeans : tag.Means bindings head) : ElementText bindings t ⟨head, []⟩
  /-- An element with content and an end tag. -/
  | filled {bindings t tag head s nodes e} (ht : TagText t tag) (hempty : tag.isEmpty = false)
      (hmeans : tag.Means bindings head)
      (hs : ContentText (bindingsInside bindings tag.attributes) s nodes)
      (he : EndTagText tag.name e) : ElementText bindings (t ++ s ++ e) ⟨head, nodes⟩

/-- The text of what is inside an element. -/
inductive ContentText : Bindings → List Char → List Node → Prop where
  /-- Nothing. -/
  | nil {bindings} : ContentText bindings [] []
  /-- A plain character, where no end of character data is written. -/
  | char {bindings c s nodes} (hlt : c ≠ '<') (hamp : c ≠ '&') (hend : ¬ cdataEnd <+: c :: s)
      (hs : ContentText bindings s nodes) : ContentText bindings (c :: s) (prependText [c] nodes)
  /-- A reference. -/
  | reference {bindings t c s nodes} (ht : ReferenceText t c) (hs : ContentText bindings s nodes) :
      ContentText bindings (t ++ s) (prependText [c] nodes)
  /-- A section of character data. -/
  | cdata {bindings text s nodes} (htext : ¬ cdataEnd <:+: text)
      (hs : ContentText bindings s nodes) :
      ContentText bindings (cdataMark ++ text ++ cdataEnd ++ s) (prependText text nodes)
  /-- A comment. -/
  | comment {bindings t s nodes} (ht : CommentText t) (hs : ContentText bindings s nodes) :
      ContentText bindings (t ++ s) nodes
  /-- An instruction that is no XML declaration. -/
  | instruction {bindings target t s nodes} (ht : InstructionText target t)
      (hx : isDeclaration target = false) (hs : ContentText bindings s nodes) :
      ContentText bindings (t ++ s) nodes
  /-- An element. -/
  | element {bindings t e s nodes} (ht : ElementText bindings t e)
      (hs : ContentText bindings s nodes) : ContentText bindings (t ++ s) (e.node :: nodes)

end

/-- Content denotes merged nodes. -/
theorem ContentText.merged {bindings : Bindings} {s : List Char} {nodes : List Node}
    (h : ContentText bindings s nodes) : Merged nodes := by
  match h with
  | .nil => exact trivial
  | .char _ _ _ hs => exact hs.merged.prependText _
  | .reference _ hs => exact hs.merged.prependText _
  | .cdata _ hs => exact hs.merged.prependText _
  | .comment _ hs => exact hs.merged
  | .instruction _ _ hs => exact hs.merged
  | .element _ hs => exact hs.merged

end ParamClass.Xml

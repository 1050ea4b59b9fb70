/-!
# Document trees

A document is the tree of its elements and texts. Names are resolved: an element or an attribute
has a local name and, unless it is unqualified, the URI of its namespace. Declarations, comments
and instructions leave nothing behind.
-/

namespace ParamClass.Xml

/-- An attribute. One without a prefix is unqualified. -/
structure Attribute where
  /-- The local name. -/
  name : String
  /-- The URI of the namespace, `none` for an unqualified attribute. -/
  uri : Option String
  /-- The value. -/
  value : String
  deriving DecidableEq, Repr

/-- What the start tag of an element says. -/
structure Head where
  /-- The local name. -/
  name : String
  /-- The URI of the namespace, `none` for an unqualified element. -/
  uri : Option String
  /-- The attributes, in the order of the tag. -/
  attributes : List Attribute
  deriving DecidableEq, Repr

/-- A node of a document. -/
inductive Node where
  /-- An element. -/
  | element (head : Head) (children : List Node)
  /-- A text. -/
  | text (content : String)
  deriving Repr

/-- An element. -/
structure Element where
  /-- Its start tag. -/
  head : Head
  /-- What it holds. -/
  children : List Node
  deriving Repr

namespace Element

/-- The element as a node. -/
def node (e : Element) : Node := .element e.head e.children

/-- The element has this namespace and this local name. -/
def is (e : Element) (uri : Option String) (name : String) : Bool :=
  e.head.name == name && e.head.uri == uri

/-- The value of the unqualified attribute of this name. -/
def attribute? (e : Element) (name : String) : Option String :=
  (e.head.attributes.find? fun a => a.uri.isNone && a.name == name).map (·.value)

end Element

/-- The node as an element, if it is one. -/
def Node.element? : Node → Option Element
  | .element head children => some ⟨head, children⟩
  | .text _ => none

/-- The elements directly inside an element. -/
def Element.childElements (e : Element) : List Element :=
  e.children.filterMap Node.element?

/-- The first element directly inside with this namespace and this local name. -/
def Element.child? (e : Element) (uri : Option String) (name : String) : Option Element :=
  e.childElements.find? (·.is uri name)

mutual

/-- The texts of a node and of everything inside it, in one. -/
def Node.fullText : Node → String
  | .element _ children => fullTexts children
  | .text content => content

/-- The texts of some nodes, in one. -/
def fullTexts : List Node → String
  | [] => ""
  | n :: ns => n.fullText ++ fullTexts ns

end

mutual

/-- The elements of a node, itself included, each before those inside it. -/
def Node.elements : Node → List Element
  | .element head children => ⟨head, children⟩ :: elementsOf children
  | .text _ => []

/-- The elements of some nodes, in document order. -/
def elementsOf : List Node → List Element
  | [] => []
  | n :: ns => n.elements ++ elementsOf ns

end

/-- All text inside the element, in one. -/
def Element.text (e : Element) : String := fullTexts e.children

/-- The element and all elements inside it, in document order. -/
def Element.descendants (e : Element) : List Element := e :: elementsOf e.children

end ParamClass.Xml

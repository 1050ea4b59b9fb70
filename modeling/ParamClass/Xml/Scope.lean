import ParamClass.Text.Cut
import ParamClass.Xml.Name

/-!
# Namespaces in scope

An attribute named `xmlns` binds the default namespace, and one named `xmlns:p` binds the prefix
`p`, for its own tag and everything inside the element. The innermost binding counts. A default
namespace may be unbound again by an empty URI; a prefix may not. The prefix `xml` is bound for
good.
-/

namespace ParamClass.Xml

open Text

/-- A prefix, or `none` for the default namespace, and the URI it stands for. -/
structure Binding where
  /-- The prefix. -/
  pre : Option String
  /-- The URI. -/
  uri : String
  deriving DecidableEq, Repr

/-- The bindings in scope, the innermost first. -/
abbrev Scope := List Binding

/-- The URI that the prefix `xml` stands for. -/
def xmlUri : String := "http://www.w3.org/XML/1998/namespace"

/-- What an attribute of this name binds: nothing, the default namespace, or a prefix. -/
def bound? (name : String) : Option (Option String) :=
  if name = "xmlns" then some none
  else (after? ['x', 'm', 'l', 'n', 's', ':'] name.toList).map fun pre => some (.ofList pre)

/-- The URI of the innermost binding of a prefix. -/
def Scope.uri? (scope : Scope) (pre : Option String) : Option String :=
  (scope.find? (·.pre == pre)).map (·.uri)

/-- The namespace of a name with this prefix, or of an element name with none. -/
def Scope.resolve (scope : Scope) (pre : Option String) : Except Cause (Option String) :=
  if pre = some "xml" then .ok (some xmlUri)
  else
    match scope.uri? pre, pre with
    | none, some p => .error (.unboundPrefix p)
    | none, none => .ok none
    | some uri, _ => .ok (if uri = "" then none else some uri)

end ParamClass.Xml

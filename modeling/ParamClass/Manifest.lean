import ParamClass.Xml.Document

/-!
# Manifests

A manifest declares script parameters, each in an element `ScriptParameter` anywhere in a document.
The declarations may also stand side by side without a root: a text that is no document is read
once more inside a root element made up for it.
-/

namespace ParamClass

open Xml

/-- A declared script parameter. -/
structure Parameter where
  /-- The attribute `id`. -/
  id : Option String
  /-- The attribute `type`. -/
  type : Option String
  /-- The attribute `values`. -/
  values : Option String
  /-- The text of the element `Description`, which names the parameter. -/
  description : Option String
  deriving DecidableEq, Repr

namespace Manifest

/-- The namespace in which parameters are declared unless the settings say otherwise. -/
def defaultNamespace : String := "http://www.skyline.be/automation"

/-- The name of the made-up root. -/
def wrapperName : String := "TempRoot"

/-- The text inside a root element made up for it. -/
def wrap (text : String) : String :=
  "<" ++ wrapperName ++ ">" ++ text ++ "</" ++ wrapperName ++ ">"

/-- Why a text is no manifest. -/
structure Fault where
  /-- The fault of the text as a document. -/
  direct : Xml.Fault
  /-- The fault of the text inside the made-up root. -/
  wrapped : Xml.Fault
  deriving DecidableEq, Repr

/-- The wording of the fault. -/
def Fault.message (fault : Fault) : String :=
  "malformed input: " ++ fault.direct.message ++ "; with synthetic root: " ++ fault.wrapped.message

/-- The root of a manifest. -/
def parse (text : String) : Except Fault Element :=
  match Xml.parse text with
  | .ok root => .ok root
  | .error direct =>
    -- If this fails too, both faults are told.
    match Xml.parse (wrap text) with
    | .ok root => .ok root
    | .error wrapped => .error ⟨direct, wrapped⟩

/-- The URI that a namespace setting stands for: an empty one means unqualified names. -/
def uri? (namespaceSetting : String) : Option String :=
  if namespaceSetting = "" then none else some namespaceSetting

/-- The parameter that an element declares. -/
def parameterOf (uri : Option String) (e : Element) : Parameter where
  id := e.attribute? "id"
  type := e.attribute? "type"
  values := e.attribute? "values"
  description := (e.child? uri "Description").map Element.text

/-- The parameters declared in a document, in document order. -/
def parametersOf (uri : Option String) (root : Element) : List Parameter :=
  (root.descendants.filter (·.is uri "ScriptParameter")).map (parameterOf uri)

/-- The parameters that a manifest declares in a namespace. -/
def parameters (text namespaceSetting : String) : Except Fault (List Parameter) :=
  match parse text with
  | .ok root => .ok (parametersOf (uri? namespaceSetting) root)
  | .error fault => .error fault

end Manifest

end ParamClass

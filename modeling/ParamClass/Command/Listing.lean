import ParamClass.Json.Value
import ParamClass.Manifest

/-!
# Listing parameters

The parameters of a manifest as a JSON list, one object for each with all four of its fields.
-/

namespace ParamClass

/-- A parameter as a JSON object. -/
def Parameter.toJson (p : Parameter) : Json.Value :=
  .object [
    ("id", .ofOption p.id),
    ("type", .ofOption p.type),
    ("values", .ofOption p.values),
    ("description", .ofOption p.description)]

/-- Parameters as JSON text, indented or compact. -/
def listing (isIndented : Bool) (parameters : List Parameter) : String :=
  let list := Json.Value.list (parameters.map Parameter.toJson)
  if isIndented then list.indented 0 else list.compact

end ParamClass

import ParamClass.Failure
import ParamClass.Generation.Skeleton

/-!
# From a manifest to the class

The class is generated in three steps: the settings are checked, the manifest is read, and its
parameters are written as members. The first step that fails decides.
-/

namespace ParamClass.Generation

/-- The class for some parameters. The settings are used as they are. -/
def generate (parameters : List Parameter) (settings : Settings) : Except Failure String :=
  match members parameters with
  | .error rejection => .error (.parameter rejection)
  | .ok ms =>
    match classText settings.style ms with
    | .error fault => .error (.unbalanced fault)
    | .ok text => .ok text

/-- The parameters that a manifest declares in the namespace of the settings. -/
def extract (manifest : String) (settings : Settings) : Except Failure (List Parameter) :=
  match Manifest.parameters manifest settings.manifestNamespace with
  | .error fault => .error (.manifest fault)
  | .ok parameters => .ok parameters

/-- The class for a manifest. -/
def generateFrom (manifest : String) (settings : Settings) : Except Failure String := do
  match settings.validate with
  | .error fault => .error (.settings fault)
  | .ok settings =>
    let parameters ← extract manifest settings
    generate parameters settings

/-- The class for a manifest in a file. -/
def generateFromFile (content : FileContent) (settings : Settings) : Except Failure String :=
  match content.text with
  | .error fault => .error (.file fault)
  | .ok manifest => generateFrom manifest settings

end ParamClass.Generation

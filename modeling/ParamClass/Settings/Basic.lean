import ParamClass.Emission.Buffer
import ParamClass.File
import ParamClass.Json.Fault
import ParamClass.Manifest

/-!
# Settings

What can be set: the namespace in which parameters are declared, the indent and the line ending of
the generated text. An indent has to be one or more spaces or tabs.
-/

namespace ParamClass

open Emission

/-- The settings of a generation. -/
structure Settings where
  /-- The URI of the namespace of parameter declarations, empty for unqualified ones. -/
  manifestNamespace : String
  /-- The indent of one block. -/
  indent : String
  /-- What ends a line. -/
  lineEnding : LineEnding
  deriving DecidableEq, Repr

namespace Settings

/-- The settings that hold unless others are given. -/
def default : Settings := ⟨Manifest.defaultNamespace, "\t", .lf⟩

/-- How lines are written. -/
def style (settings : Settings) : Style := ⟨settings.indent, settings.lineEnding⟩

/-- Why settings are refused. -/
inductive Fault where
  /-- This file cannot be read. -/
  | unreadable (path : String) (fault : FileFault)
  /-- The text does not give settings. -/
  | malformed (fault : Json.Fault)
  /-- This indent is empty or has other characters than spaces and tabs. -/
  | badIndent (indent : String)
  deriving Repr

/-- The wording of a fault. -/
def Fault.message : Fault → String
  | unreadable path fault =>
    "config error: failed to read config '" ++ path ++ "': " ++ fault.message
  | malformed fault => "config error: invalid config: " ++ fault.message
  | badIndent indent =>
    "config error: indent must be one or more spaces or tabs, found " ++ Text.quoted indent

/-- The indent is one or more spaces or tabs. -/
def isValid (settings : Settings) : Bool :=
  settings.indent != "" && settings.indent.toList.all fun c => c == ' ' || c == '\t'

/-- The settings, if they are valid. -/
def validate (settings : Settings) : Except Fault Settings :=
  if settings.isValid then .ok settings else .error (.badIndent settings.indent)

end Settings

end ParamClass

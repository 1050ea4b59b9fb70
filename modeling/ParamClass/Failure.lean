import ParamClass.Generation.Member
import ParamClass.Settings.Basic

/-!
# Failures

Everything that can keep the program from its result, with one wording for each.
-/

namespace ParamClass

/-- Why there is no result. -/
inductive Failure where
  /-- The manifest is malformed. -/
  | manifest (fault : Manifest.Fault)
  /-- A parameter gives no member. -/
  | parameter (rejection : Generation.Rejection)
  /-- The text was finished inside a block. -/
  | unbalanced (fault : Emission.Unbalanced)
  /-- The settings are refused. -/
  | settings (fault : Settings.Fault)
  /-- The manifest at this path cannot be read. -/
  | input (path : String) (fault : FileFault)
  /-- Another file cannot be read or written. -/
  | file (fault : FileFault)
  deriving Repr

/-- The wording of a failure. -/
def Failure.message : Failure → String
  | manifest fault => fault.message
  | parameter rejection => rejection.message
  | unbalanced fault => fault.message
  | settings fault => fault.message
  | input path fault => "io error: failed to read '" ++ path ++ "': " ++ fault.message
  | file fault => "io error: " ++ fault.message

end ParamClass

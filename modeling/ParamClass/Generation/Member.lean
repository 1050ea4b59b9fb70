import ParamClass.Identifier
import ParamClass.Manifest
import ParamClass.Text.Quoted

/-!
# Members of the class

Every parameter becomes one member of the generated class. The members need distinct identifiers,
different also from those that the class declares itself. The first parameter that breaks this is
reported with its position, which starts at one.
-/

namespace ParamClass.Generation

/-- A member of the class. -/
structure Member where
  /-- Its name. -/
  identifier : String
  /-- The description of its parameter, by which the script looks it up. -/
  description : String
  deriving DecidableEq, Repr

/-- The members that the class has without any parameter. -/
def builtInMembers : List String :=
  ["ScriptContext", "Engine", "GetScriptParam", "IsJsonArray"]

/-- Why a parameter gives no member. -/
inductive Reason where
  /-- It has no description. -/
  | missingDescription
  /-- This description gives no identifier. -/
  | noIdentifier (description : String)
  /-- The class has a member of this name. -/
  | builtIn (identifier : String)
  /-- The parameter at an earlier position has this identifier. -/
  | duplicate (identifier : String) (first : Nat)
  deriving DecidableEq, Repr

/-- The wording of a reason. -/
def Reason.message : Reason → String
  | missingDescription => "missing <Description> element"
  | noIdentifier description =>
    "description " ++ Text.quoted description ++ " does not yield an identifier"
  | builtIn identifier =>
    "identifier '" ++ identifier ++ "' collides with a built-in ScriptContext member"
  | duplicate identifier first =>
    "identifier '" ++ identifier ++ "' duplicates parameter #" ++ toString first

/-- A parameter that gives no member. -/
structure Rejection where
  /-- Its position among the parameters. -/
  position : Nat
  /-- Its `id`. -/
  id : Option String
  /-- Why it is rejected. -/
  reason : Reason
  deriving DecidableEq, Repr

/-- The wording of a rejection. -/
def Rejection.message (r : Rejection) : String :=
  "invalid parameter #" ++ toString r.position ++ " (id: " ++ r.id.getD "<none>" ++ "): " ++
    r.reason.message

/-- The member of a parameter after the members of all parameters before it. -/
def member (before : List Member) (parameter : Parameter) : Except Reason Member :=
  match parameter.description with
  | none => .error .missingDescription
  | some description =>
    match identifier? description with
    | none => .error (.noIdentifier description)
    | some identifier =>
      if identifier ∈ builtInMembers then .error (.builtIn identifier)
      else
        match before.findIdx? (·.identifier == identifier) with
        | some i => .error (.duplicate identifier (i + 1))
        | none => .ok ⟨identifier, description⟩

/-- The members of some parameters after the members `before` of all parameters before them. -/
def membersAfter (before : List Member) : List Parameter → Except Rejection (List Member)
  | [] => .ok before
  | p :: ps =>
    match member before p with
    | .error reason => .error ⟨before.length + 1, p.id, reason⟩
    | .ok m => membersAfter (before ++ [m]) ps

/-- The members of a list of parameters. -/
def members (parameters : List Parameter) : Except Rejection (List Member) :=
  membersAfter [] parameters

end ParamClass.Generation

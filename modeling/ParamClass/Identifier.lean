import ParamClass.Text.Blank
import ParamClass.Text.Uppercase

/-!
# Identifiers

A member is named after the description of its parameter: blanks are left out, a hyphen becomes an
underscore, and the first character is put in upper case. All other characters stay, also those
that no identifier may hold.
-/

namespace ParamClass

open Text

/-- `s` with its first character in upper case; `none` if there is no first character. -/
def upperFirst? (s : String) : Option String :=
  match s.toList with
  | [] => none
  | c :: rest => some (.ofList (upperCase c ++ rest))

/-- The characters of a description that its identifier is made of. -/
def identifierChars (description : List Char) : List Char :=
  (description.filter fun c => !isBlank c).map fun c => if c = '-' then '_' else c

/-- The identifier that a description gives; `none` if all its characters are blank. -/
def identifier? (description : String) : Option String :=
  upperFirst? (.ofList (identifierChars description.toList))

end ParamClass

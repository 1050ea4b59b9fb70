import ParamClass.Text.Alphabetic
import ParamClass.Text.Numeric
import ParamClass.Xml.Fault

/-!
# Names

A name starts with an alphabetic character, `_` or `:` and goes on with these, numeric characters,
`-` and `.`. A name with one colon inside, such as `p:name`, has a prefix; a name without a colon
has none; every other use of the colon is refused where the name is resolved.
-/

namespace ParamClass.Xml

open Text

/-- `c` may start a name. -/
def isNameStart (c : Char) : Bool :=
  isAlphabetic c || c == '_' || c == ':'

/-- `c` may stand in a name. -/
def isNameChar (c : Char) : Bool :=
  isNameStart c || isNumeric c || c == '-' || c == '.'

/-- Reads the longest name that the text starts with. -/
def readName (s : List Char) : Except Stop (String × List Char) :=
  match s with
  | [] => .error ⟨.expectedName, s⟩
  | c :: _ =>
    if isNameStart c then .ok (.ofList (s.takeWhile isNameChar), s.dropWhile isNameChar)
    else .error ⟨.expectedName, s⟩

/-- A name starts with a name character. -/
theorem isNameChar_of_isNameStart {c : Char} (h : isNameStart c = true) : isNameChar c = true := by
  simp [isNameChar, h]

/-- What follows a name is shorter than the text. -/
theorem readName_length {s rest : List Char} {name : String} (h : readName s = .ok (name, rest)) :
    rest.length < s.length := by
  unfold readName at h
  split at h
  · cases h
  · next c s =>
    split at h
    · next hc =>
      cases h
      rw [List.dropWhile_cons_of_pos (isNameChar_of_isNameStart hc)]
      exact Nat.lt_succ_of_le (List.dropWhile_suffix _).length_le
    · cases h

/-- A name split at its colon. -/
structure QName where
  /-- The part before the colon. -/
  pre : Option String
  /-- The part after the colon, or the whole name. -/
  base : String
  deriving DecidableEq, Repr

/-- Splits a name at its colon. There is no split when a part would be empty or a second colon
follows. -/
def QName.ofName? (name : String) : Option QName :=
  match name.toList.dropWhile (· != ':') with
  | [] => some ⟨none, name⟩
  | _ :: base =>
    let pre := name.toList.takeWhile (· != ':')
    if pre.isEmpty || base.isEmpty || base.contains ':' then none
    else some ⟨some (.ofList pre), .ofList base⟩

end ParamClass.Xml

import ParamClass.Xml.Markup
import ParamClass.Xml.Reference
import ParamClass.Xml.Scope
import ParamClass.Xml.Tree

/-!
# Tags

A start tag is read as it is written: a raw name and raw attributes in their order. Its namespaces
are resolved afterwards, in one step, because the declarations in a tag hold for the whole tag. A
fault of that step therefore stands after the tag.
-/

namespace ParamClass.Xml

open Text

/-- An attribute as a tag writes it, with its value decoded. -/
structure RawAttribute where
  /-- The name, with its prefix. -/
  name : String
  /-- The value. -/
  value : String
  deriving DecidableEq, Repr

/-- A start tag, or the tag of an element without content. -/
structure Tag where
  /-- The name, with its prefix. -/
  name : String
  /-- The attributes, declarations included, in their order. -/
  attributes : List RawAttribute
  /-- The tag ends in `/>`. -/
  isEmpty : Bool
  deriving DecidableEq, Repr

/-! ## Reading attributes -/

/-- Reads the rest of a value up to its closing quote. References are decoded, and a tab or a line
end becomes a space. -/
def readValue (quote : Char) (s : List Char) : Except Stop (List Char × List Char) :=
  match s with
  | [] => .error ⟨.unterminatedValue, []⟩
  | c :: r =>
    if c = quote then .ok ([], r)
    else if c = '<' then .error ⟨.lessThanInValue, s⟩
    else if c = '&' then
      match _ : readReference r with
      | .error stop => .error stop
      | .ok (d, rest) =>
        match readValue quote rest with
        | .error stop => .error stop
        | .ok (value, after) => .ok (d :: value, after)
    else
      match readValue quote r with
      | .error stop => .error stop
      | .ok (value, after) => .ok ((if c = '\t' ∨ c = '\n' then ' ' else c) :: value, after)
termination_by s.length
decreasing_by
  · have := readReference_length ‹_›
    simp only [List.length_cons]
    omega
  · simp

/-- What follows a value is shorter than what follows its opening quote. -/
theorem readValue_length {quote : Char} {s value rest : List Char}
    (h : readValue quote s = .ok (value, rest)) : rest.length < s.length := by
  fun_induction readValue quote s generalizing value with
  | case1 => cases h
  | case2 => cases h; simp
  | case3 => cases h
  | case4 => cases h
  | case5 => cases h
  | case6 r d after hr v t hv _ _ ih =>
    cases h
    have := readReference_length hr
    have := ih hv
    simp only [List.length_cons]
    omega
  | case7 => cases h
  | case8 c r _ _ _ v t hv ih =>
    cases h
    have := ih hv
    simp only [List.length_cons]
    omega

/-- Reads a quoted value. -/
def readQuoted (s : List Char) : Except Stop (List Char × List Char) :=
  match s with
  | [] => .error ⟨.expectedQuote, s⟩
  | c :: r => if c = '"' ∨ c = '\'' then readValue c r else .error ⟨.expectedQuote, s⟩

/-- Reads a name, an equals sign and a quoted value. -/
def readAttribute (s : List Char) : Except Stop (RawAttribute × List Char) :=
  match readName s with
  | .error stop => .error stop
  | .ok (name, r) =>
    match skipSpace r with
    | '=' :: r =>
      match readQuoted (skipSpace r) with
      | .error stop => .error stop
      | .ok (value, rest) => .ok (⟨name, .ofList value⟩, rest)
    | r => .error ⟨.expected '=', r⟩

/-- What follows a quoted value is shorter than the text. -/
theorem readQuoted_length {s value rest : List Char} (h : readQuoted s = .ok (value, rest)) :
    rest.length < s.length := by
  unfold readQuoted at h
  split at h
  · cases h
  · split at h
    · exact Nat.lt_succ_of_lt (readValue_length h)
    · cases h

/-- What follows an attribute is shorter than the text. -/
theorem readAttribute_length {s rest : List Char} {a : RawAttribute}
    (h : readAttribute s = .ok (a, rest)) : rest.length < s.length := by
  unfold readAttribute at h
  split at h
  · cases h
  · next name r hn =>
    split at h
    · next r' he =>
      split at h
      · cases h
      · next value after hq =>
        cases h
        have h1 := readName_length hn
        have h2 := skipSpace_length r
        have h3 := skipSpace_length r'
        have h4 := readQuoted_length hq
        rw [he, List.length_cons] at h2
        omega
    · cases h

/-! ## Reading tags -/

/-- Reads the rest of the start tag of `name`, which has the attributes `before` already. -/
def readAttributes (name : String) (before : List RawAttribute) (s : List Char) :
    Except Stop (Tag × List Char) :=
  match after? ['/', '>'] (skipSpace s) with
  | some rest => .ok (⟨name, before, true⟩, rest)
  | none =>
    match after? ['>'] (skipSpace s) with
    | some rest => .ok (⟨name, before, false⟩, rest)
    | none =>
      if skipSpace s = [] then .error ⟨.unterminatedTag name, []⟩
      -- Only another attribute needs a space before it.
      else if !startsWithSpace s then .error ⟨.missingSpace, s⟩
      else
        match _ : readAttribute (skipSpace s) with
        | .error stop => .error stop
        | .ok (a, rest) =>
          if before.any (·.name == a.name) then .error ⟨.duplicateAttribute a.name, skipSpace s⟩
          else readAttributes name (before ++ [a]) rest
termination_by s.length
decreasing_by
  have := readAttribute_length ‹_›
  have := skipSpace_length s
  omega

/-- Reads a start tag after its `<`. -/
def readTag (s : List Char) : Except Stop (Tag × List Char) :=
  match readName s with
  | .error stop => .error stop
  | .ok (name, rest) => readAttributes name [] rest

/-- What follows the attributes of a tag is shorter than the text from them on. -/
theorem readAttributes_length {name : String} {before : List RawAttribute} {s rest : List Char}
    {tag : Tag} (h : readAttributes name before s = .ok (tag, rest)) : rest.length < s.length := by
  fun_induction readAttributes name before s with
  | case1 before s r hr =>
    cases h
    have := after?_length hr
    have := skipSpace_length s
    simp only [List.length_cons, List.length_nil] at *
    omega
  | case2 before s _ r hr =>
    cases h
    have := after?_length hr
    have := skipSpace_length s
    simp only [List.length_cons, List.length_nil] at *
    omega
  | case3 => cases h
  | case4 => cases h
  | case5 => cases h
  | case6 => cases h
  | case7 before s _ _ _ _ a r hr _ ih =>
    have := ih h
    have := readAttribute_length hr
    have := skipSpace_length s
    omega

/-- What follows a start tag is shorter than what follows its `<`. -/
theorem readTag_length {s rest : List Char} {tag : Tag} (h : readTag s = .ok (tag, rest)) :
    rest.length < s.length := by
  unfold readTag at h
  split at h
  · cases h
  · next hn => exact Nat.lt_trans (readAttributes_length h) (readName_length hn)

/-- Reads the end tag of `name`, which starts at `start`, after its `</`. -/
def readEndTag (name : String) (start s : List Char) : Except Stop (List Char) :=
  match readName s with
  | .error stop => .error stop
  | .ok (found, r) =>
    if found = name then
      match skipSpace r with
      | '>' :: rest => .ok rest
      | r => .error ⟨.expected '>', r⟩
    else .error ⟨.mismatchedEnd name found, start⟩

/-- What follows an end tag is shorter than what follows its `</`. -/
theorem readEndTag_length {name : String} {start s rest : List Char}
    (h : readEndTag name start s = .ok rest) : rest.length < s.length := by
  unfold readEndTag at h
  split at h
  · cases h
  · next found r hn =>
    split at h
    · split at h
      · next r' he =>
        cases h
        have h1 := readName_length hn
        have h2 := skipSpace_length r
        rw [he, List.length_cons] at h2
        omega
      · cases h
    · cases h

/-! ## Resolving names -/

/-- The bindings that some attributes declare, in their order. -/
def declarations : List RawAttribute → Except Cause Scope
  | [] => .ok []
  | a :: as =>
    match bound? a.name with
    | none => declarations as
    | some pre =>
      match pre, a.value with
      | some p, "" => .error (.emptyBinding p)
      | _, uri =>
        match declarations as with
        | .error cause => .error cause
        | .ok scope => .ok (⟨pre, uri⟩ :: scope)

/-- An attribute with its name resolved. Without a prefix it is unqualified, whatever the default
namespace is. -/
def RawAttribute.resolve (scope : Scope) (a : RawAttribute) : Except Cause Attribute :=
  match QName.ofName? a.name with
  | none => .error (.badQName a.name)
  | some ⟨none, base⟩ => .ok ⟨base, none, a.value⟩
  | some ⟨some pre, base⟩ =>
    match scope.resolve (some pre) with
    | .error cause => .error cause
    | .ok uri => .ok ⟨base, uri, a.value⟩

/-- Some attributes with their names resolved; declarations are left out. -/
def resolveAttributes (scope : Scope) : List RawAttribute → Except Cause (List Attribute)
  | [] => .ok []
  | a :: as =>
    if (bound? a.name).isSome then resolveAttributes scope as
    else
      match a.resolve scope with
      | .error cause => .error cause
      | .ok resolved =>
        match resolveAttributes scope as with
        | .error cause => .error cause
        | .ok others => .ok (resolved :: others)

/-- The head of an element with this tag, and the scope of its content, inside a scope. -/
def Tag.resolve (tag : Tag) (outer : Scope) : Except Cause (Head × Scope) :=
  match declarations tag.attributes with
  | .error cause => .error cause
  | .ok inner =>
    -- The declarations of a tag hold for its own names already.
    let scope := inner ++ outer
    match QName.ofName? tag.name with
    | none => .error (.badQName tag.name)
    | some name =>
      match scope.resolve name.pre with
      | .error cause => .error cause
      | .ok uri =>
        match resolveAttributes scope tag.attributes with
        | .error cause => .error cause
        | .ok attributes => .ok (⟨name.base, uri, attributes⟩, scope)

end ParamClass.Xml

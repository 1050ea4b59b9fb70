import ParamClass.Xml.Content

/-!
# Documents

A document is one element, with spaces, comments and processing instructions around it. Before the
element there may be one document type declaration, and at the very start, after a byte order
mark, an XML declaration. Line ends are normalized before anything is read, so places in faults
count lines and columns of the normalized text.
-/

namespace ParamClass.Xml

open Text

/-- Skips spaces, comments and processing instructions that are no XML declaration. -/
def skipMisc (s : List Char) : Except Stop (List Char) :=
  match _ : after? commentMark (skipSpace s) with
  | some r =>
    match _ : readComment (skipSpace s) r with
    | .error stop => .error stop
    | .ok rest => skipMisc rest
  | none =>
    match _ : after? instructionMark (skipSpace s) with
    | some r =>
      match _ : readPlainInstruction (skipSpace s) r with
      | .error stop => .error stop
      | .ok rest => skipMisc rest
    | none => .ok (skipSpace s)
termination_by s.length
decreasing_by
  · have := after?_length ‹_›
    have := readComment_length ‹_›
    have := skipSpace_length s
    omega
  · have := after?_length ‹_›
    have := readPlainInstruction_length ‹_›
    have := skipSpace_length s
    omega

/-- Skips a byte order mark. -/
def skipMark (s : List Char) : List Char :=
  match s with
  | '\uFEFF' :: rest => rest
  | _ => s

/-- Skips an instruction at the very start, where it may be an XML declaration. -/
def skipDeclaration (s : List Char) : Except Stop (List Char) :=
  match after? instructionMark s with
  | none => .ok s
  | some r => (readInstruction s r).map (·.2)

/-- Skips a document type declaration and what may follow it. -/
def skipDoctypes (s : List Char) : Except Stop (List Char) :=
  match after? doctypeMark s with
  | none => .ok s
  | some r =>
    match readDoctype s r with
    | .error stop => .error stop
    | .ok r =>
      match skipMisc r with
      | .error stop => .error stop
      | .ok rest =>
        if (after? doctypeMark rest).isSome then .error ⟨.duplicateDoctype, rest⟩ else .ok rest

/-- Skips everything before the root element. -/
def skipProlog (s : List Char) : Except Stop (List Char) := do
  -- An instruction after any space or comment can no longer be the declaration.
  let s ← skipDeclaration (skipMark s)
  let s ← skipMisc s
  skipDoctypes s

/-- Reads the root element and everything around it. -/
def readDocument (s : List Char) : Except Stop Element := do
  let s ← skipProlog s
  match s with
  | [] => .error ⟨.missingRoot, []⟩
  | '<' :: r =>
    let (root, s) ← readElement s r
    let s ← skipMisc s
    if s = [] then .ok root else .error ⟨.contentAfterRoot, s⟩
  | _ => .error ⟨.textBeforeRoot, s⟩

/-- The root element of the document that a text writes. -/
def parse (text : String) : Except Fault Element :=
  let s := normalizeLines text.toList
  match readDocument s with
  | .ok root => .ok root
  | .error stop => .error (stop.fault s)

end ParamClass.Xml

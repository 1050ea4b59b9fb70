import ParamClass.Json.Reading
import ParamClass.Settings.Basic

/-!
# Settings as JSON

Settings are written as an object with some of the three fields, in any order, or as a list of the
first of them in their fixed order. A field that is missing keeps its default.
-/

namespace ParamClass.Settings

open Emission Json Text

/-- A field of the settings. -/
inductive Field where
  /-- The namespace of parameter declarations. -/
  | manifestNamespace
  /-- The indent of one block. -/
  | indent
  /-- What ends a line. -/
  | lineEnding
  deriving DecidableEq, Repr

namespace Field

/-- The key of a field. -/
def key : Field → String
  | manifestNamespace => "manifest_namespace"
  | indent => "indent"
  | lineEnding => "line_ending"

/-- The fields, in the order in which a list gives them. -/
def all : List Field := [manifestNamespace, indent, lineEnding]

/-- The field of a key. -/
def ofKey? (key : String) : Option Field := all.find? (·.key == key)

end Field

/-- The name of a line ending. -/
def lineEndingName : LineEnding → String
  | .lf => "lf"
  | .crlf => "crlf"

/-- The line ending of a name. -/
def lineEnding? (name : String) : Option LineEnding :=
  [LineEnding.lf, LineEnding.crlf].find? (lineEndingName · == name)

/-! ## Values -/

/-- Reads the name of a line ending, where `expected` is the name of what is wanted. -/
def readLineEndingName (expected : String) (s : List Char) :
    Except Stop (LineEnding × List Char) :=
  match readStringValue expected s with
  | .error stop => .error stop
  | .ok (name, rest) =>
    match lineEnding? name with
    | some lineEnding => .ok (lineEnding, rest)
    | none => .error (.before (.unknownVariant name ["lf", "crlf"]) rest)

/-- Reads the rest of an object that gives a line ending by its only key, with the value `null`. -/
def readLineEndingObject (s : List Char) : Except Stop (LineEnding × List Char) := do
  let (lineEnding, s) ← readLineEndingName "variant identifier" s
  let s ← readColon s
  let s ← readNull s
  match skipSpace s with
  | '}' :: rest => .ok (lineEnding, rest)
  | [] => .error (.before .endInObject [])
  | r => .error (.before .expectedValue r)

/-- Reads a line ending: its name, or an object with its name as the only key. -/
def readLineEnding (s : List Char) : Except Stop (LineEnding × List Char) :=
  match skipSpace s with
  | '"' :: r => readLineEndingName "a string" ('"' :: r)
  | '{' :: r => readLineEndingObject r
  | [] => .error (.upon .endInValue [])
  | r => .error (.upon .expectedValue r)

/-- What follows the name of a line ending is shorter than the text. -/
theorem readLineEndingName_length {expected : String} {s rest : List Char} {lineEnding : LineEnding}
    (h : readLineEndingName expected s = .ok (lineEnding, rest)) : rest.length < s.length := by
  unfold readLineEndingName at h
  split at h
  · cases h
  · next hr => split at h <;> cases h; exact readStringValue_length hr

/-- What follows an object that gives a line ending is shorter than what follows its brace. -/
theorem readLineEndingObject_length {s rest : List Char} {lineEnding : LineEnding}
    (h : readLineEndingObject s = .ok (lineEnding, rest)) : rest.length < s.length := by
  obtain ⟨⟨value, s1⟩, h1, h⟩ := bind_eq_ok.1 h
  obtain ⟨s2, h2, h⟩ := bind_eq_ok.1 h
  obtain ⟨s3, h3, h⟩ := bind_eq_ok.1 h
  have hlen := skipSpace_length s3
  have := readLineEndingName_length h1
  have := readColon_length h2
  have := readNull_length h3
  split at h
  · next hs => cases h; rw [hs, List.length_cons] at hlen; omega
  · cases h
  · cases h

/-- What follows a line ending is shorter than the text. -/
theorem readLineEnding_length {s rest : List Char} {lineEnding : LineEnding}
    (h : readLineEnding s = .ok (lineEnding, rest)) : rest.length < s.length := by
  have hlen := skipSpace_length s
  unfold readLineEnding at h
  split at h
  · next hs =>
    have := readLineEndingName_length h
    rw [hs] at hlen
    omega
  · next hs =>
    have := readLineEndingObject_length h
    rw [hs, List.length_cons] at hlen
    omega
  · cases h
  · cases h

/-- Reads the value of a field into the settings. -/
def readField (field : Field) (settings : Settings) (s : List Char) :
    Except Stop (Settings × List Char) :=
  match field with
  | .manifestNamespace =>
    (readStringValue "a string" s).map fun (value, rest) =>
      ({ settings with manifestNamespace := value }, rest)
  | .indent =>
    (readStringValue "a string" s).map fun (value, rest) => ({ settings with indent := value }, rest)
  | .lineEnding =>
    (readLineEnding s).map fun (value, rest) => ({ settings with lineEnding := value }, rest)

/-- What follows a field is shorter than the text. -/
theorem readField_length {field : Field} {settings settings' : Settings} {s rest : List Char}
    (h : readField field settings s = .ok (settings', rest)) : rest.length < s.length := by
  unfold readField at h
  split at h <;> obtain ⟨⟨value, r⟩, hr, heq⟩ := map_eq_ok.1 h <;> cases heq
  · exact readStringValue_length hr
  · exact readStringValue_length hr
  · exact readLineEnding_length hr

/-! ## Objects -/

/-- What follows in an object or in a list, with the text from there on. -/
inductive Next where
  /-- An entry follows, or an element. -/
  | entry (s : List Char)
  /-- The end has been read. -/
  | finish (rest : List Char)

/-- The text where a fault in a key is placed: after the spaces that follow the key, and after the
end of the object if that stands there. -/
def pastKey (s : List Char) : List Char :=
  match skipSpace s with
  | '}' :: rest => rest
  | r => r

/-- Reads the rest of an entry after the opening quote of its key. `seen` are the fields that have
been given. -/
def readEntry (seen : List Field) (settings : Settings) (s : List Char) :
    Except Stop (Field × Settings × List Char) := do
  let (content, s) ← readString s
  let key := String.ofList content
  match Field.ofKey? key with
  -- Faults of the key come before those of its colon and its value.
  | none => .error (.before (.unknownField key (Field.all.map Field.key)) (pastKey s))
  | some field =>
    if field ∈ seen then .error (.before (.duplicateField key) (pastKey s))
    else
      let s ← readColon s
      let (settings, s) ← readField field settings s
      .ok (field, settings, s)

/-- Finds the next entry of an object, after the opening quote of its key. -/
def nextEntry (isFirst : Bool) (s : List Char) : Except Stop Next :=
  match skipSpace s with
  | [] => .error (.upon .endInObject [])
  | '}' :: rest => .ok (.finish rest)
  | c :: r =>
    if isFirst then
      if c = '"' then .ok (.entry r) else .error (.upon .keyNotString (c :: r))
    else if c = ',' then
      match skipSpace r with
      | '"' :: rest => .ok (.entry rest)
      | '}' :: rest => .error (.upon .trailingComma ('}' :: rest))
      | [] => .error (.upon .endInValue [])
      | r => .error (.upon .keyNotString r)
    else .error (.upon .expectedCommaInObject (c :: r))

/-- What follows an entry is shorter than what follows the opening quote of its key. -/
theorem readEntry_length {seen : List Field} {settings settings' : Settings} {field : Field}
    {s rest : List Char} (h : readEntry seen settings s = .ok (field, settings', rest)) :
    rest.length < s.length := by
  obtain ⟨⟨content, s1⟩, h1, h⟩ := bind_eq_ok.1 h
  have := readString_length h1
  dsimp only at h
  split at h
  · cases h
  · split at h
    · cases h
    · obtain ⟨s2, h2, h⟩ := bind_eq_ok.1 h
      obtain ⟨⟨settings2, s3⟩, h3, h⟩ := bind_eq_ok.1 h
      cases h
      have := readColon_length h2
      exact Nat.lt_trans (readField_length h3) (by omega)

/-- The key of the next entry is shorter than the text. -/
theorem nextEntry_length {isFirst : Bool} {s r : List Char} (h : nextEntry isFirst s = .ok (.entry r)) :
    r.length < s.length := by
  have hlen := skipSpace_length s
  unfold nextEntry at h
  split at h
  · cases h
  · cases h
  · next c r' _ hs =>
    rw [hs, List.length_cons] at hlen
    split at h
    · split at h
      · cases h; omega
      · cases h
    · split at h
      · have hlen' := skipSpace_length r'
        split at h
        · next hs' => cases h; rw [hs', List.length_cons] at hlen'; omega
        · cases h
        · cases h
        · cases h
      · cases h

/-- Reads the rest of an object that gives settings. `seen` are the fields that have been given. -/
def readEntries (seen : List Field) (settings : Settings) (s : List Char) :
    Except Stop (Settings × List Char) :=
  match _ : nextEntry seen.isEmpty s with
  | .error stop => .error stop
  | .ok (.finish rest) => .ok (settings, rest)
  | .ok (.entry r) =>
    match _ : readEntry seen settings r with
    | .error stop => .error stop
    | .ok (field, settings, rest) => readEntries (field :: seen) settings rest
termination_by s.length
decreasing_by
  have := nextEntry_length ‹_›
  have := readEntry_length ‹_›
  omega

/-! ## Lists -/

/-- Finds the next element of a list. -/
def nextElement (isFirst : Bool) (s : List Char) : Except Stop Next :=
  match skipSpace s with
  | [] => .error (.upon .endInList [])
  | ']' :: rest => .ok (.finish rest)
  | c :: r =>
    if isFirst then .ok (.entry (c :: r))
    else if c = ',' then
      match skipSpace r with
      | ']' :: rest => .error (.upon .trailingComma (']' :: rest))
      | [] => .error (.upon .endInValue [])
      | r => .ok (.entry r)
    else .error (.upon .expectedCommaInList (c :: r))

/-- Reads the end of a list that has an element for every field. -/
def readListEnd (s : List Char) : Except Stop (List Char) :=
  match skipSpace s with
  | [] => .error (.upon .endInList [])
  | ']' :: rest => .ok rest
  | ',' :: r =>
    match skipSpace r with
    | ']' :: rest => .error (.upon .trailingComma (']' :: rest))
    | r => .error (.upon .trailingCharacters r)
  | r => .error (.upon .trailingCharacters r)

/-- Reads the rest of a list that gives the values of `fields`, or of the first of them. -/
def readElements (isFirst : Bool) (settings : Settings) (s : List Char) :
    List Field → Except Stop (Settings × List Char)
  | [] => (readListEnd s).map (settings, ·)
  | field :: fields =>
    match nextElement isFirst s with
    | .error stop => .error stop
    | .ok (.finish rest) => .ok (settings, rest)
    | .ok (.entry r) =>
      match readField field settings r with
      | .error stop => .error stop
      | .ok (settings, rest) => readElements false settings rest fields

/-! ## Whole texts -/

/-- Reads settings. -/
def readSettings (s : List Char) : Except Stop (Settings × List Char) :=
  match skipSpace s with
  | [] => .error (.upon .endInValue [])
  | '{' :: r => readEntries [] .default r
  | '[' :: r => readElements true .default r Field.all
  | r => .error (wrongType "struct GeneratorConfig" r)

/-- Reads a text that gives settings and nothing else. -/
def readText (s : List Char) : Except Stop Settings := do
  let (settings, rest) ← readSettings s
  readEnd rest
  .ok settings

/-- The valid settings that a text gives. -/
def ofJson (text : String) : Except Fault Settings :=
  match readText text.toList with
  | .error stop => .error (.malformed (stop.fault text))
  | .ok settings => settings.validate

/-- The valid settings that a file gives. -/
def ofFile (path : String) (content : FileContent) : Except Fault Settings :=
  match content.text with
  | .error fault => .error (.unreadable path fault)
  | .ok text => ofJson text

end ParamClass.Settings

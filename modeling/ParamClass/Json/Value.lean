import ParamClass.Json.Text

/-!
# Written JSON values

Values are written in two layouts: compact, without any space, and indented, with one line for each
element and each entry. An empty list or object has no lines in either.
-/

namespace ParamClass.Json

/-- A value without numbers and truth values. -/
inductive Value where
  /-- The value `null`. -/
  | null
  /-- A string. -/
  | string (content : String)
  /-- A list. -/
  | list (elements : List Value)
  /-- An object, with its entries in order. -/
  | object (entries : List (String × Value))
  deriving Repr

/-- A string, or `null` for none. -/
def Value.ofOption : Option String → Value
  | none => .null
  | some content => .string content

/-! ## Compact layout -/

mutual

/-- A value in the compact layout. -/
def Value.compact : Value → String
  | .null => "null"
  | .string content => writeString content
  | .list elements => "[" ++ compactElements elements ++ "]"
  | .object entries => "\x7b" ++ compactEntries entries ++ "\x7d"

/-- Elements in the compact layout. -/
def compactElements : List Value → String
  | [] => ""
  | [v] => v.compact
  | v :: vs => v.compact ++ "," ++ compactElements vs

/-- Entries in the compact layout. -/
def compactEntries : List (String × Value) → String
  | [] => ""
  | [(key, v)] => writeString key ++ ":" ++ v.compact
  | (key, v) :: es => writeString key ++ ":" ++ v.compact ++ "," ++ compactEntries es

end

/-! ## Indented layout -/

/-- The start of a line at a depth: two spaces for each level. -/
def newLine (depth : Nat) : String :=
  .ofList ('\n' :: List.replicate (2 * depth) ' ')

mutual

/-- A value in the indented layout, at a depth. -/
def Value.indented (depth : Nat) : Value → String
  | .null => "null"
  | .string content => writeString content
  | .list [] => "[]"
  | .list (v :: vs) => "[" ++ indentedElements (depth + 1) (v :: vs) ++ newLine depth ++ "]"
  | .object [] => "\x7b\x7d"
  | .object (e :: es) =>
    "\x7b" ++ indentedEntries (depth + 1) (e :: es) ++ newLine depth ++ "\x7d"

/-- Elements in the indented layout, each on its own line. -/
def indentedElements (depth : Nat) : List Value → String
  | [] => ""
  | [v] => newLine depth ++ v.indented depth
  | v :: vs => newLine depth ++ v.indented depth ++ "," ++ indentedElements depth vs

/-- Entries in the indented layout, each on its own line. -/
def indentedEntries (depth : Nat) : List (String × Value) → String
  | [] => ""
  | [(key, v)] => newLine depth ++ writeString key ++ ": " ++ v.indented depth
  | (key, v) :: es =>
    newLine depth ++ writeString key ++ ": " ++ v.indented depth ++ "," ++
      indentedEntries depth es

end

end ParamClass.Json

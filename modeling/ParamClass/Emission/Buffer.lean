/-!
# The emission buffer

Code is written line by line into a buffer that knows how deep it stands in nested blocks. A line
starts with one indent for each open block and ends in the line ending of the style.
-/

namespace ParamClass.Emission

/-- What ends a line. -/
inductive LineEnding where
  /-- A line feed. -/
  | lf
  /-- A carriage return and a line feed. -/
  | crlf
  deriving DecidableEq, Repr

/-- The characters of a line ending. -/
def LineEnding.text : LineEnding → String
  | lf => "\n"
  | crlf => "\r\n"

/-- How lines are written. -/
structure Style where
  /-- The indent of one block. -/
  indent : String
  /-- What ends a line. -/
  lineEnding : LineEnding
  deriving DecidableEq, Repr

/-- The indent of `depth` nested blocks. -/
def Style.margin (style : Style) (depth : Nat) : String :=
  String.join (List.replicate depth style.indent)

/-- A text with the depth at which the next line stands. -/
structure Buffer where
  /-- How lines are written. -/
  style : Style
  /-- The text so far. -/
  text : String
  /-- The number of open blocks. -/
  depth : Nat
  deriving DecidableEq, Repr

namespace Buffer

/-- The buffer before anything is written. -/
def empty (style : Style) : Buffer := ⟨style, "", 0⟩

/-- Writes `s` as it is. -/
def raw (b : Buffer) (s : String) : Buffer :=
  { b with text := b.text ++ s }

/-- Writes an indented `s` and leaves the line open. -/
def append (b : Buffer) (s : String) : Buffer :=
  b.raw (b.style.margin b.depth ++ s)

/-- Writes an empty line, without indent. -/
def blank (b : Buffer) : Buffer :=
  b.raw b.style.lineEnding.text

/-- Writes `s` as a line of its own. -/
def line (b : Buffer) (s : String) : Buffer :=
  b.append (s ++ b.style.lineEnding.text)

/-- Writes the opening brace of a block and goes inside. -/
def openBlock (b : Buffer) : Buffer :=
  { b.line "\x7b" with depth := b.depth + 1 }

/-- Goes out of a block and writes its closing brace. -/
def closeBlock (b : Buffer) : Buffer :=
  { b with depth := b.depth - 1 }.line "\x7d"

end Buffer

/-- Text was finished with this number of blocks still open. -/
structure Unbalanced where
  /-- The number of open blocks. -/
  depth : Nat
  deriving DecidableEq, Repr

/-- The wording of the fault. -/
def Unbalanced.message (fault : Unbalanced) : String :=
  "unbalanced block nesting: depth " ++ toString fault.depth ++ " at finalization"

/-- The text of a buffer, if every block is closed. -/
def Buffer.finish (b : Buffer) : Except Unbalanced String :=
  if b.depth = 0 then .ok b.text else .error ⟨b.depth⟩

end ParamClass.Emission

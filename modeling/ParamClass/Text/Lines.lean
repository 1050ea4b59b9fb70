/-!
# Lines of a text

A line may end in LF, CR LF or CR. Texts are read with every line end written as LF, and a place
in a text is the line and the column that the text before it reaches.
-/

namespace ParamClass.Text

/-- Writes every line end, CR LF or a CR alone, as one LF. -/
def normalizeLines : List Char → List Char
  | [] => []
  | '\r' :: '\n' :: s => '\n' :: normalizeLines s
  | '\r' :: s => '\n' :: normalizeLines s
  | c :: s => c :: normalizeLines s

/-- A place in a text. Lines and columns start at one, and a column counts characters. -/
structure Place where
  /-- The line. -/
  line : Nat
  /-- The column in the line. -/
  column : Nat
  deriving DecidableEq, Repr

/-- The place that reading `consumed` reaches. -/
def Place.after (consumed : List Char) : Place where
  line := consumed.count '\n' + 1
  column := (consumed.reverse.takeWhile (· != '\n')).length + 1

/-- The place of `rest`, the part of `whole` that is left to read. -/
def Place.within (whole rest : List Char) : Place :=
  .after (whole.take (whole.length - rest.length))

end ParamClass.Text

import ParamClass.Proofs.Emission.Balance

/-!
# Layout

A rendered template without a buffer: a list of lines, each with the depth at which it stands. A
block is its body one deeper between two lines with a brace, and a slot is the lines that are written
into it. Rendering writes the layout of these lines and nothing else, whatever the style is, as long
as each slot is filled with whole lines (`finish_render`).
-/

namespace ParamClass.Emission

/-- A line of code. -/
inductive Line where
  /-- An empty line. -/
  | blank
  /-- A text inside this number of nested blocks. -/
  | code (depth : Nat) (text : String)
  deriving DecidableEq, Repr

/-- What a line holds before its line ending. -/
def Line.body (style : Style) : Line → String
  | blank => ""
  | code depth text => style.margin depth ++ text

/-- The text of some lines, each with its line ending. -/
def layout (style : Style) (lines : List Line) : String :=
  String.join (lines.map fun line => line.body style ++ style.lineEnding.text)

mutual

/-- The lines of a fragment at a depth, when `slots` says what stands in each slot. -/
def Fragment.lines (slots : Slot → Nat → List Line) (depth : Nat) : Fragment → List Line
  | .line text => [.code depth text]
  | .blank => [.blank]
  | .block body => .code depth "\x7b" :: linesOf slots (depth + 1) body ++ [.code depth "\x7d"]
  | .slot slot => slots slot depth

/-- The lines of some fragments, in order. -/
def linesOf (slots : Slot → Nat → List Line) (depth : Nat) : List Fragment → List Line
  | [] => []
  | f :: fs => f.lines slots depth ++ linesOf slots depth fs

end

/-- Lines one after the other are laid out one after the other. -/
theorem layout_append (style : Style) (lines more : List Line) :
    layout style (lines ++ more) = layout style lines ++ layout style more := by
  rw [layout, List.map_append, String.join_append]
  rfl

/-- One line is laid out as what it holds and its line ending. -/
theorem layout_singleton (style : Style) (line : Line) :
    layout style [line] = line.body style ++ style.lineEnding.text := by
  rw [layout, List.map_singleton, String.join_cons, String.join_nil, String.append_empty]

/-! ## Writing lines into a buffer -/

namespace Buffer

/-- Writes whole lines. -/
def write (b : Buffer) (lines : List Line) : Buffer := b.raw (layout b.style lines)

/-- Writing lines leaves the depth as it is. -/
@[simp] theorem write_depth (b : Buffer) (lines : List Line) : (b.write lines).depth = b.depth := rfl

/-- Writing no lines changes nothing. -/
theorem write_nil (b : Buffer) : b.write [] = b := by
  rw [write, raw, layout, List.map_nil, String.join_nil, String.append_empty]

/-- Lines written in two steps are written in one. -/
theorem write_append (b : Buffer) (lines more : List Line) :
    b.write (lines ++ more) = (b.write lines).write more := by
  rw [write, layout_append, raw, ← String.append_assoc]
  rfl

/-- A line is written at the depth of the buffer. -/
theorem line_eq_write (b : Buffer) (s : String) : b.line s = b.write [.code b.depth s] := by
  rw [line, append, write, layout_singleton, Line.body, String.append_assoc]

/-- An empty line is written without margin. -/
theorem blank_eq_write (b : Buffer) : b.blank = b.write [.blank] := by
  rw [blank, write, layout_singleton, Line.body, String.empty_append]

/-- Inside a block, the brace that opens it has been written at the depth around it. -/
theorem openBlock_eq_write (b : Buffer) :
    b.openBlock = { b.write [.code b.depth "\x7b"] with depth := b.depth + 1 } := by
  rw [openBlock, line_eq_write]

/-- Lines inside a block that is closed after them stand between two braces. -/
theorem closeBlock_write_openBlock (b : Buffer) (lines : List Line) :
    (b.openBlock.write lines).closeBlock =
      b.write (.code b.depth "\x7b" :: lines ++ [.code b.depth "\x7d"]) := by
  rw [← List.singleton_append, write_append, write_append, closeBlock, line_eq_write, openBlock_eq_write]
  rfl

end Buffer

/-! ## Rendering -/

/-- Each slot is filled with whole lines, which may depend on the depth where it stands. -/
def FillsWith (fill : Slot → Buffer → Buffer) (slots : Slot → Nat → List Line) : Prop :=
  ∀ slot b, fill slot b = b.write (slots slot b.depth)

mutual

/-- Rendering a fragment writes its lines. -/
theorem Fragment.render_buffer {fill : Slot → Buffer → Buffer} {slots : Slot → Nat → List Line}
    (h : FillsWith fill slots) (r : Rendering) (f : Fragment) :
    (f.render fill r).buffer = r.buffer.write (f.lines slots r.buffer.depth) := by
  match f with
  | .line s => exact r.buffer.line_eq_write s
  | .blank => exact r.buffer.blank_eq_write
  | .block body =>
    rw [Fragment.render, Fragment.lines, renderAll_buffer h _ body]
    exact r.buffer.closeBlock_write_openBlock _
  | .slot slot => exact h slot r.buffer

/-- Rendering some fragments writes their lines. -/
theorem renderAll_buffer {fill : Slot → Buffer → Buffer} {slots : Slot → Nat → List Line}
    (h : FillsWith fill slots) (r : Rendering) (fs : List Fragment) :
    (renderAll fill r fs).buffer = r.buffer.write (linesOf slots r.buffer.depth fs) := by
  match fs with
  | [] => rw [renderAll, linesOf, Buffer.write_nil]
  | f :: fs =>
    rw [renderAll, linesOf, Buffer.write_append, renderAll_buffer h _ fs, Fragment.render_buffer h r f,
      Buffer.write_depth]

end

/-- The text of a rendered template is the layout of its lines. -/
theorem finish_render {fill : Slot → Buffer → Buffer} {slots : Slot → Nat → List Line}
    (h : FillsWith fill slots) (style : Style) (template : List Fragment) :
    (render fill style template).buffer.finish = .ok (layout style (linesOf slots 0 template)) := by
  rw [render, renderAll_buffer h, Buffer.finish_eq_ok_iff]
  refine ⟨rfl, ?_⟩
  rw [Buffer.write, Buffer.raw, Buffer.empty_depth]
  exact String.empty_append

end ParamClass.Emission

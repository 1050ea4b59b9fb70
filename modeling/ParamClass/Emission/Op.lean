import ParamClass.Emission.Buffer

/-!
# Running emission operations

A block is opened with a guard that is held until the block is closed, so that a run that stops
early still closes what it opened. An opened block may also be leaked: then no guard is held for
it, nothing ever closes it, and the text cannot be finished.
-/

namespace ParamClass.Emission

/-- An operation on a buffer. -/
inductive Op where
  /-- Writes a line. -/
  | line (text : String)
  /-- Writes an indented text and leaves the line open. -/
  | append (text : String)
  /-- Writes a text as it is. -/
  | raw (text : String)
  /-- Writes an empty line. -/
  | blank
  /-- Opens a block and holds its guard. -/
  | openBlock
  /-- Closes the innermost block whose guard is held. -/
  | closeBlock
  /-- Opens a block and holds no guard for it. -/
  | leak
  /-- Ends the run. -/
  | abort
  deriving DecidableEq, Repr

/-- The state of a run. -/
structure Run where
  /-- What has been written. -/
  buffer : Buffer
  /-- The number of guards held. -/
  held : Nat
  deriving DecidableEq, Repr

namespace Run

/-- The run before its first operation. -/
def start (buffer : Buffer) : Run := ⟨buffer, 0⟩

/-- The run after one operation; `none` if the operation has no effect. -/
def step? (run : Run) : Op → Option Run
  | .line text => some { run with buffer := run.buffer.line text }
  | .append text => some { run with buffer := run.buffer.append text }
  | .raw text => some { run with buffer := run.buffer.raw text }
  | .blank => some { run with buffer := run.buffer.blank }
  | .openBlock => some ⟨run.buffer.openBlock, run.held + 1⟩
  | .closeBlock =>
    match run.held with
    | 0 => none
    | held + 1 => some ⟨run.buffer.closeBlock, held⟩
  | .leak => some { run with buffer := run.buffer.openBlock }
  | .abort => none

/-- The run after some operations, up to an abort. -/
def after (run : Run) : List Op → Run
  | [] => run
  | .abort :: _ => run
  | op :: ops => ((run.step? op).getD run).after ops

/-- Closes `held` blocks, the innermost first. -/
def closeBlocks (buffer : Buffer) : Nat → Buffer
  | 0 => buffer
  | held + 1 => closeBlocks buffer.closeBlock held

/-- The buffer when the run ends: the guards still held close their blocks. -/
def release (run : Run) : Buffer := closeBlocks run.buffer run.held

end Run

/-- The buffer after a whole run of operations. -/
def runOps (ops : List Op) (buffer : Buffer) : Buffer :=
  ((Run.start buffer).after ops).release

end ParamClass.Emission

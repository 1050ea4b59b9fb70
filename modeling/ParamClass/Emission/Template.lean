import ParamClass.Emission.Buffer

/-!
# Templates

A template is a tree of lines and blocks with slots in it. Rendering writes the lines and lets
someone else write what belongs in each slot, at the depth where the slot stands.
-/

namespace ParamClass.Emission

/-- A place in a template that is filled for each parameter. -/
inductive Slot where
  /-- The assignments in the constructor. -/
  | constructorAssignments
  /-- The declarations of the properties. -/
  | parameterProperties
  deriving DecidableEq, Repr

/-- A piece of a template. -/
inductive Fragment where
  /-- A line. -/
  | line (text : String)
  /-- An empty line. -/
  | blank
  /-- A block in braces. -/
  | block (body : List Fragment)
  /-- A slot. -/
  | slot (slot : Slot)
  deriving Repr

/-- What has been rendered. -/
structure Rendering where
  /-- The text. -/
  buffer : Buffer
  /-- The slots filled so far, each with the depth at which it was filled. -/
  visits : List (Slot × Nat)
  deriving DecidableEq, Repr

mutual

/-- Renders a fragment after `r`, with its slots written by `fill`. -/
def Fragment.render (fill : Slot → Buffer → Buffer) (r : Rendering) : Fragment → Rendering
  | .line text => { r with buffer := r.buffer.line text }
  | .blank => { r with buffer := r.buffer.blank }
  | .block body =>
    let inner := renderAll fill { r with buffer := r.buffer.openBlock } body
    { inner with buffer := inner.buffer.closeBlock }
  | .slot slot => ⟨fill slot r.buffer, r.visits ++ [(slot, r.buffer.depth)]⟩

/-- Renders some fragments after `r`, in order. -/
def renderAll (fill : Slot → Buffer → Buffer) (r : Rendering) : List Fragment → Rendering
  | [] => r
  | f :: fs => renderAll fill (f.render fill r) fs

end

/-- Renders a template from nothing. -/
def render (fill : Slot → Buffer → Buffer) (style : Style) (template : List Fragment) :
    Rendering :=
  renderAll fill ⟨.empty style, []⟩ template

end ParamClass.Emission

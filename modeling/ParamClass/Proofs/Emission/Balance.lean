import ParamClass.Emission.Template

/-!
# Balance

Rendering a template ends at the depth where it started, for every block of the template is closed
where it ends. So a rendered text is always complete, as long as the slots are filled in balance.
-/

namespace ParamClass.Emission

/-! ## Depth of a buffer -/

namespace Buffer

/-- An empty buffer is outside of every block. -/
@[simp] theorem empty_depth (style : Style) : (empty style).depth = 0 := rfl

/-- An empty line leaves the depth as it is. -/
@[simp] theorem blank_depth (b : Buffer) : b.blank.depth = b.depth := rfl

/-- A line leaves the depth as it is. -/
@[simp] theorem line_depth (b : Buffer) (s : String) : (b.line s).depth = b.depth := rfl

/-- A block is one deeper than what is around it. -/
@[simp] theorem openBlock_depth (b : Buffer) : b.openBlock.depth = b.depth + 1 := rfl

/-- After a block the depth is one less. -/
@[simp] theorem closeBlock_depth (b : Buffer) : b.closeBlock.depth = b.depth - 1 := rfl

/-- A buffer is finished exactly when no block is open. -/
theorem finish_eq_ok_iff {b : Buffer} {text : String} :
    b.finish = .ok text ↔ b.depth = 0 ∧ b.text = text := by
  unfold finish
  split
  · next h => simp [h]
  · next h => simp [h]

end Buffer

/-! ## Depth of a rendering -/

/-- Slots are filled at the depth where they stand. -/
def Balanced (fill : Slot → Buffer → Buffer) : Prop :=
  ∀ slot b, (fill slot b).depth = b.depth

mutual

/-- Rendering a fragment ends at the depth where it started. -/
theorem Fragment.render_depth {fill : Slot → Buffer → Buffer} (h : Balanced fill) (r : Rendering)
    (f : Fragment) : (f.render fill r).buffer.depth = r.buffer.depth := by
  match f with
  | .line s => exact Buffer.line_depth r.buffer s
  | .blank => exact Buffer.blank_depth r.buffer
  | .block body =>
    rw [Fragment.render, Buffer.closeBlock_depth, renderAll_depth h _ body, Buffer.openBlock_depth,
      Nat.add_sub_cancel]
  | .slot slot => exact h slot r.buffer

/-- Rendering some fragments ends at the depth where it started. -/
theorem renderAll_depth {fill : Slot → Buffer → Buffer} (h : Balanced fill) (r : Rendering)
    (fs : List Fragment) : (renderAll fill r fs).buffer.depth = r.buffer.depth := by
  match fs with
  | [] => rfl
  | f :: fs => rw [renderAll, renderAll_depth h _ fs, Fragment.render_depth h r f]

end

/-- A rendered template is complete. -/
theorem exists_finish_render {fill : Slot → Buffer → Buffer} (h : Balanced fill) (style : Style)
    (template : List Fragment) : ∃ text, (render fill style template).buffer.finish = .ok text := by
  refine ⟨_, Buffer.finish_eq_ok_iff.2 ⟨?_, rfl⟩⟩
  rw [render, renderAll_depth h]
  exact Buffer.empty_depth style

end ParamClass.Emission

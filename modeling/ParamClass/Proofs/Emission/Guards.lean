import ParamClass.Proofs.Emission.Flattening

/-!
# Guards along a run

One counter counts the blocks whose guard is held and the blocks that were leaked, and a close takes
one off it without looking which they are. It never takes off too much: at every point of a run,
while its operations are carried out and while the guards that are left are dropped at its end, the
depth is the number of guards held and of blocks leaked so far (`Run.Passes.depth_eq`). So each
guard finds a block to close, and what is left open at the end are the leaked blocks
(`depth_of_run`).
-/

namespace ParamClass.Emission

/-! ## Points of a run -/

/-- A block is closed: the depth is one less, and the closing brace is written there. -/
structure Buffer.Closes (b next : Buffer) : Prop where
  /-- The depth before is not zero. -/
  depth : b.depth = next.depth + 1
  /-- The brace stands on a line of its own. -/
  text : next.text =
    b.text ++ (b.style.margin next.depth ++ "\x7d" ++ b.style.lineEnding.text)

namespace Run

/-- The run when `k` of the guards that it holds have been dropped. -/
def dropped (run : Run) (k : Nat) : Run := ⟨closeBlocks run.buffer k, run.held - k⟩

/-- A point of a run of some operations, with the number of blocks leaked before it. -/
inductive Passes (run : Run) (ops : List Op) : Nat → Run → Prop where
  /-- Some of the operations have been carried out. -/
  | along {done : List Op} (h : done <+: ops) : Passes run ops (leaks done) (run.after done)
  /-- All of them have, and some of the guards that are left have been dropped. -/
  | atEnd {k : Nat} (h : k ≤ (run.after ops).held) :
    Passes run ops (leaks ops) ((run.after ops).dropped k)

/-- Two points of a run of some operations, one after the other. -/
inductive Moves (run : Run) (ops : List Op) : Run → Run → Prop where
  /-- One more operation is carried out. -/
  | along {done : List Op} {op : Op} (h : done ++ [op] <+: ops) :
    Moves run ops (run.after done) (run.after (done ++ [op]))
  /-- One more guard is dropped. -/
  | atEnd {k : Nat} (h : k < (run.after ops).held) :
    Moves run ops ((run.after ops).dropped k) ((run.after ops).dropped (k + 1))

/-! ## One step -/

/-- The last of some operations has no effect, because of itself or of an abort before it, or it is
the step after the others. -/
theorem after_concat (run : Run) (done : List Op) (op : Op) :
    run.after (done ++ [op]) = run.after done ∨
      (run.after done).step? op = some (run.after (done ++ [op])) := by
  induction done generalizing run with
  | nil =>
    by_cases habort : op = .abort
    · subst habort
      exact .inl rfl
    rw [List.nil_append, after_cons habort]
    cases hstep : run.step? op with
    | none => exact .inl rfl
    | some next => exact .inr hstep
  | cons o done ih =>
    by_cases habort : o = .abort
    · subst habort
      exact .inl rfl
    rw [List.cons_append, after_cons habort, after_cons habort]
    exact ih _

/-- An operation keeps the style, writes behind the text, and gives back a guard only by closing a
block. -/
theorem step?_cases {run next : Run} {op : Op} (h : run.step? op = some next) :
    next.buffer.style = run.buffer.style ∧ (∃ s, next.buffer.text = run.buffer.text ++ s) ∧
      (run.held ≤ next.held ∨ run.held = next.held + 1 ∧ next.buffer = run.buffer.closeBlock) := by
  cases op with
  | line | append | raw | blank =>
    obtain rfl := Option.some.inj h
    exact ⟨rfl, ⟨_, rfl⟩, .inl (Nat.le_refl _)⟩
  | openBlock | leak =>
    obtain rfl := Option.some.inj h
    exact ⟨rfl, ⟨_, rfl⟩, .inl (by simp)⟩
  | closeBlock =>
    obtain ⟨b, _ | held⟩ := run
    · exact absurd h (by simp [step?])
    · obtain rfl := Option.some.inj h
      exact ⟨rfl, ⟨_, rfl⟩, .inr ⟨rfl, rfl⟩⟩
  | abort => exact absurd h (by simp [step?])

end Run

/-- Where a block is open, closing it takes one off the depth and writes its brace. -/
theorem Buffer.closes_closeBlock {b : Buffer} (h : b.depth ≠ 0) : b.Closes b.closeBlock where
  depth := (Nat.succ_pred h).symm
  text := by rw [String.append_assoc]; rfl

/-- One more block is closed after the others. -/
theorem closeBlocks_succ (b : Buffer) (k : Nat) :
    Run.closeBlocks b (k + 1) = (Run.closeBlocks b k).closeBlock := by
  induction k generalizing b with
  | zero => rfl
  | succ k ih => exact ih b.closeBlock

/-! ## The whole run -/

namespace Run

variable {start run next : Run} {ops : List Op} {leaked : Nat}

/-- At every point of a run, the depth is the number of guards held and of blocks leaked so far. -/
theorem Passes.depth_eq (h : start.Passes ops leaked run)
    (hstart : start.buffer.depth = start.held) : run.buffer.depth = run.held + leaked := by
  have hafter : ∀ ops, (start.after ops).buffer.depth = (start.after ops).held + leaks ops := by
    intro ops
    have hdepth := depth_after (hstart.trans (Nat.zero_add _).symm) ops
    omega
  cases h with
  | along _ => exact hafter _
  | @atEnd k h =>
    have hend := hafter ops
    show (closeBlocks (start.after ops).buffer k).depth = (start.after ops).held - k + leaks ops
    rw [closeBlocks_depth]
    omega

/-- From each point of a run to the next one the style stays as it is and the text is added to. -/
theorem Moves.exists_text (h : start.Moves ops run next) :
    next.buffer.style = run.buffer.style ∧ ∃ s, next.buffer.text = run.buffer.text ++ s := by
  cases h with
  | @along done op _ =>
    rcases after_concat start done op with heq | hstep
    · rw [heq]
      exact ⟨rfl, "", (String.append_empty).symm⟩
    · obtain ⟨hstyle, htext, -⟩ := step?_cases hstep
      exact ⟨hstyle, htext⟩
  | @atEnd k _ =>
    rw [dropped, dropped, closeBlocks_succ]
    exact ⟨rfl, _, rfl⟩

/-- From each point of a run to the next one at most one guard is given back, and its block is
closed. -/
theorem Moves.closes (h : start.Moves ops run next) (hstart : start.buffer.depth = start.held)
    (hheld : next.held < run.held) : run.held = next.held + 1 ∧ run.buffer.Closes next.buffer := by
  -- Whoever gives a guard back had it, so the depth was not zero.
  have hopen : ∀ leaked, start.Passes ops leaked run → run.buffer.depth ≠ 0 := by
    intro leaked hpasses
    have hdepth := hpasses.depth_eq hstart
    omega
  cases h with
  | @along done op h =>
    rcases after_concat start done op with heq | hstep
    · rw [heq] at hheld
      exact absurd hheld (Nat.lt_irrefl _)
    · obtain ⟨-, -, hle | ⟨hguard, hbuffer⟩⟩ := step?_cases hstep
      · omega
      · rw [hbuffer]
        exact ⟨hguard, Buffer.closes_closeBlock
          (hopen _ (.along ((List.prefix_append done [op]).trans h)))⟩
  | @atEnd k h =>
    refine ⟨?_, ?_⟩
    · show (start.after ops).held - k = (start.after ops).held - (k + 1) + 1
      omega
    · have hclose := Buffer.closes_closeBlock (hopen _ (.atEnd (Nat.le_of_lt h)))
      rwa [dropped, dropped, closeBlocks_succ]

/-- The style is the same at every point of a run. -/
theorem Passes.style_eq (h : start.Passes ops leaked run) :
    run.buffer.style = start.buffer.style := by
  have hafter : ∀ (ops : List Op) (start : Run), (start.after ops).buffer.style = start.buffer.style := by
    intro ops
    induction ops with
    | nil => exact fun _ => rfl
    | cons op ops ih =>
      intro start
      by_cases habort : op = .abort
      · subst habort
        rfl
      rw [after_cons habort, ih]
      cases hstep : start.step? op with
      | none => rfl
      | some next => exact (step?_cases hstep).1
  have hclose : ∀ (b : Buffer) (k : Nat), (closeBlocks b k).style = b.style := by
    intro b k
    induction k generalizing b with
    | zero => rfl
    | succ k ih => exact ih b.closeBlock
  cases h with
  | along _ => exact hafter _ start
  | atEnd _ => exact (hclose _ _).trans (hafter ops start)

end Run

/-- At every point of a run from an empty buffer, the depth is the number of guards held and of blocks
leaked so far. From each point to the next the text is only added to, and a guard that is given back
closes one block, at a depth that was not zero. At the last point no guard is held: the text is
finished there exactly when no block was leaked, and otherwise as many blocks are open as were
leaked. -/
theorem depth_of_run (style : Style) (ops : List Op) :
    let start := Run.start (.empty style)
    let final := runOps ops (.empty style)
    (∀ leaked run, start.Passes ops leaked run →
      run.buffer.style = style ∧ run.buffer.depth = run.held + leaked) ∧
    (∀ run next, start.Moves ops run next →
      run.buffer.text.toList <+: next.buffer.text.toList ∧
      (next.held < run.held → run.held = next.held + 1 ∧ run.buffer.Closes next.buffer)) ∧
    start.Passes ops (leaks ops) ⟨final, 0⟩ ∧
    final.finish = if leaks ops = 0 then .ok final.text else .error ⟨leaks ops⟩ := by
  intro start final
  have hstart : start.buffer.depth = start.held := rfl
  refine ⟨fun leaked run h => ⟨h.style_eq, h.depth_eq hstart⟩, fun run next h => ⟨?_, h.closes hstart⟩,
    ?_, ?_⟩
  · obtain ⟨-, s, htext⟩ := h.exists_text
    rw [htext, String.toList_append]
    exact List.prefix_append _ _
  · have hlast : start.Passes ops (leaks ops) ((start.after ops).dropped (start.after ops).held) :=
      .atEnd (Nat.le_refl _)
    rwa [Run.dropped, Nat.sub_self] at hlast
  · have hdepth : final.depth = 0 + leaks ops := runOps_depth ops (.empty style)
    rw [Buffer.finish, hdepth, Nat.zero_add]

example :
    (runOps [.openBlock, .leak, .line "a", .closeBlock, .closeBlock, .openBlock, .abort]
        (.empty ⟨"-", .lf⟩)) =
      ⟨⟨"-", .lf⟩, "\x7b\n-\x7b\n--a\n-\x7d\n-\x7b\n-\x7d\n", 1⟩ := by
  decide

end ParamClass.Emission

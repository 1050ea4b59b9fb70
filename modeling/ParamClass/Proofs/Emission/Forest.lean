import ParamClass.Proofs.Emission.Flattening

/-!
# Runs as forests

Operations that leak nothing denote a forest: a block for each opening, with what is written up to its
close inside it. The forest is read off the operations alone, from the back to the front, with no
buffer and no count of guards (`forest`). A run of the operations writes the layout of the forest and nothing
else (`finish_runOps_eq_textOf`).
-/

namespace ParamClass.Emission

/-! ## Forests -/

/-- What operations write. -/
inductive Tree where
  /-- A line. -/
  | line (text : String)
  /-- An indented text with no end of the line. -/
  | append (text : String)
  /-- A text as it is. -/
  | raw (text : String)
  /-- An empty line. -/
  | blank
  /-- A block. -/
  | block (body : List Tree)
  deriving Repr

mutual

/-- The layout of a tree inside `depth` blocks. -/
def Tree.text (style : Style) (depth : Nat) : Tree → String
  | .line s => style.margin depth ++ (s ++ style.lineEnding.text)
  | .append s => style.margin depth ++ s
  | .raw s => s
  | .blank => style.lineEnding.text
  | .block body =>
    style.margin depth ++ "\x7b" ++ style.lineEnding.text ++ textOf style (depth + 1) body ++
      style.margin depth ++ "\x7d" ++ style.lineEnding.text

/-- The layout of a forest inside `depth` blocks. -/
def textOf (style : Style) (depth : Nat) : List Tree → String
  | [] => ""
  | t :: ts => t.text style depth ++ textOf style depth ts

end

/-- What operations denote among others: some trees where they start, and more trees after each close
that finds no block opened by them. -/
structure Levels where
  /-- The trees before the first such close. -/
  here : List Tree
  /-- The trees after each such close, up to the next one. -/
  outside : List (List Tree)
  deriving Repr

/-- One more tree in front. -/
def Levels.cons (t : Tree) (levels : Levels) : Levels :=
  { levels with here := t :: levels.here }

/-- An opening in front: its block holds the first trees and is closed by the first close that has
found no block so far. Without such a close it holds all there is. -/
def Levels.enclose (levels : Levels) : Levels :=
  match levels.outside with
  | [] => ⟨[.block levels.here], []⟩
  | next :: later => ⟨.block levels.here :: next, later⟩

/-- What operations denote among others. After an abort there are none. -/
def levels : List Op → Levels
  | [] => ⟨[], []⟩
  | .abort :: _ => ⟨[], []⟩
  | .line s :: ops => (levels ops).cons (.line s)
  | .append s :: ops => (levels ops).cons (.append s)
  | .raw s :: ops => (levels ops).cons (.raw s)
  | .blank :: ops => (levels ops).cons .blank
  | .openBlock :: ops => (levels ops).enclose
  | .closeBlock :: ops => ⟨[], (levels ops).here :: (levels ops).outside⟩
  | .leak :: ops => levels ops

/-- The forest that operations denote by themselves: a close that finds no block is dropped. -/
def forest (ops : List Op) : List Tree := (levels ops).here ++ (levels ops).outside.flatten

/-- Forests side by side are laid out one after the other. -/
theorem textOf_append (style : Style) (depth : Nat) (ts us : List Tree) :
    textOf style depth (ts ++ us) = textOf style depth ts ++ textOf style depth us := by
  induction ts with
  | nil => exact (String.empty_append).symm
  | cons t ts ih => rw [List.cons_append, textOf, textOf, ih, String.append_assoc]

/-! ## Writing forests into a buffer -/

namespace Buffer

/-- Writes a forest. -/
def put (b : Buffer) (ts : List Tree) : Buffer := b.raw (textOf b.style b.depth ts)

/-- Writing no trees changes nothing. -/
theorem put_nil (b : Buffer) : b.put [] = b := by
  rw [put, textOf, raw, String.append_empty]

/-- A forest written in two parts is written as one. -/
theorem put_append (b : Buffer) (ts us : List Tree) : b.put (ts ++ us) = (b.put ts).put us := by
  rw [put, textOf_append, raw, ← String.append_assoc]
  rfl

/-- A single tree is written as its layout. -/
theorem put_singleton (b : Buffer) (t : Tree) : b.put [t] = b.raw (t.text b.style b.depth) := by
  rw [put, textOf, textOf, String.append_empty]

/-- A forest inside a block that is closed after it is a tree. -/
theorem closeBlock_put_openBlock (b : Buffer) (body : List Tree) :
    (b.openBlock.put body).closeBlock = b.put [.block body] := by
  rw [put_singleton]
  simp only [closeBlock, openBlock, put, line, append, raw, Tree.text, Nat.add_sub_cancel,
    String.append_assoc]

/-- Writes levels while `held` guards are held. A close takes a guard if there is one, and the guards
that are left at the end are dropped. -/
def putLevels (b : Buffer) : Nat → List Tree → List (List Tree) → Buffer
  | held, here, [] => Run.closeBlocks (b.put here) held
  | 0, here, next :: later => (b.put here).putLevels 0 next later
  | held + 1, here, next :: later => (b.put here).closeBlock.putLevels held next later

/-- The first tree is written first. -/
theorem putLevels_cons (b : Buffer) (held : Nat) (t : Tree) (here : List Tree)
    (outside : List (List Tree)) :
    b.putLevels held (t :: here) outside = (b.put [t]).putLevels held here outside := by
  have hput : b.put (t :: here) = (b.put [t]).put here := b.put_append [t] here
  cases outside with
  | nil => rw [putLevels, putLevels, hput]
  | cons next later =>
    cases held with
    | zero => rw [putLevels, putLevels, hput]
    | succ held => rw [putLevels, putLevels, hput]

/-- Levels behind an opening are written with one more guard, which closes their block. -/
theorem putLevels_openBlock (b : Buffer) (held : Nat) (levels : Levels) :
    b.openBlock.putLevels (held + 1) levels.here levels.outside =
      b.putLevels held levels.enclose.here levels.enclose.outside := by
  obtain ⟨body, _ | ⟨next, later⟩⟩ := levels
  · show Run.closeBlocks (b.openBlock.put body).closeBlock held = _
    rw [closeBlock_put_openBlock]
    rfl
  · show (b.openBlock.put body).closeBlock.putLevels held next later = _
    rw [closeBlock_put_openBlock, ← putLevels_cons]
    rfl

/-- Without guards, all levels are written one after the other. -/
theorem putLevels_zero (b : Buffer) (here : List Tree) (outside : List (List Tree)) :
    b.putLevels 0 here outside = b.put (here ++ outside.flatten) := by
  induction outside generalizing b here with
  | nil => rw [List.flatten_nil, List.append_nil]; rfl
  | cons next later ih => rw [putLevels, ih, List.flatten_cons, put_append b here]

end Buffer

/-! ## Runs -/

/-- Operations that leak nothing write their levels, whatever guards are held before them. -/
theorem Run.release_after (b : Buffer) (held : Nat) {ops : List Op} (h : leaks ops = 0) :
    ((⟨b, held⟩ : Run).after ops).release =
      b.putLevels held (levels ops).here (levels ops).outside := by
  have hstop : ∀ (b : Buffer) held, Run.closeBlocks b held = b.putLevels held [] [] := by
    intro b held
    rw [Buffer.putLevels, Buffer.put_nil]
  induction ops generalizing b held with
  | nil => exact hstop b held
  | cons op ops ih =>
    -- What an operation writes is the first tree, and the others write theirs behind it.
    have hleaf : ∀ t, leaks ops = 0 → ((⟨b.put [t], held⟩ : Run).after ops).release =
        b.putLevels held ((levels ops).cons t).here ((levels ops).cons t).outside := by
      intro t hops
      rw [ih _ _ hops]
      exact (b.putLevels_cons held t _ _).symm
    cases op with
    | line | append | raw | blank =>
      rw [levels, ← hleaf _ h, Buffer.put_singleton]
      rfl
    | openBlock =>
      rw [levels, ← Buffer.putLevels_openBlock]
      exact ih b.openBlock (held + 1) h
    | closeBlock =>
      cases held with
      | zero =>
        rw [levels, Buffer.putLevels, Buffer.put_nil]
        exact ih b 0 h
      | succ held =>
        rw [levels, Buffer.putLevels, Buffer.put_nil]
        exact ih b.closeBlock held h
    | leak => exact absurd h (Nat.succ_ne_zero _)
    | abort => exact hstop b held

/-- A run of operations that leak nothing, from an empty buffer, is finished with the layout of the
forest that they denote. -/
theorem finish_runOps_eq_textOf {ops : List Op} (h : leaks ops = 0) (style : Style) :
    (runOps ops (.empty style)).finish = .ok (textOf style 0 (forest ops)) := by
  have hrun : runOps ops (.empty style) = (Buffer.empty style).put (forest ops) := by
    rw [runOps, Run.start, Run.release_after _ _ h, Buffer.putLevels_zero]
    rfl
  rw [hrun, Buffer.finish_eq_ok_iff]
  exact ⟨rfl, String.empty_append⟩

/-- A close before every opening, two blocks inside each other, a close too many, and a block that is
open at an abort. -/
theorem finish_runOps_of_stray :
    let ops : List Op := [.closeBlock, .line "a", .openBlock, .append "b", .raw ";\n", .openBlock, .blank,
      .closeBlock, .closeBlock, .closeBlock, .line "c", .openBlock, .line "d", .abort, .line "e"]
    leaks ops = 0 ∧
      forest ops = [.line "a", .block [.append "b", .raw ";\n", .block [.blank]], .line "c",
        .block [.line "d"]] ∧
      (runOps ops (.empty ⟨"-", .lf⟩)).finish =
        .ok "a\n\x7b\n-b;\n-\x7b\n\n-\x7d\n\x7d\nc\n\x7b\n-d\n\x7d\n" := by
  intro ops
  refine ⟨rfl, rfl, ?_⟩
  rw [finish_runOps_eq_textOf rfl, Except.ok.injEq]
  decide

end ParamClass.Emission

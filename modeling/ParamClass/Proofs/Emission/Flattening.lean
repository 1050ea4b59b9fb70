import ParamClass.Emission.Op
import ParamClass.Proofs.Emission.Balance

/-!
# Templates as flat runs

When each slot of a template is filled by a run of operations, rendering is one run of a flat list of
operations: a block becomes an opening, its body and a close, and a slot becomes its own run with all
of its guards settled (`render_eq_runOps`). A slot may leak blocks. Then everything after it stands
deeper, but the guards around it are still held, so each block is closed by its own guard
(`Releases`), and the depth is the number of blocks around plus the number of leaks so far
(`Run.depth_after`).
-/

namespace ParamClass.Emission

/-! ## Operations of a template -/

/-- The operations of a run that holds `held` guards, made to stand among other operations: none
after an abort, no close that would find no guard, and at the end a close for each guard that is
left. -/
def settle (held : Nat) : List Op → List Op
  | [] => List.replicate held .closeBlock
  | .abort :: _ => List.replicate held .closeBlock
  | .openBlock :: ops => .openBlock :: settle (held + 1) ops
  | .closeBlock :: ops =>
    match held with
    | 0 => settle 0 ops
    | held + 1 => .closeBlock :: settle held ops
  | op :: ops => op :: settle held ops

mutual

/-- The operations of a fragment, when `slots` says what is run in each slot. -/
def Fragment.ops (slots : Slot → List Op) : Fragment → List Op
  | .line text => [.line text]
  | .blank => [.blank]
  | .block body => .openBlock :: (opsOf slots body ++ [.closeBlock])
  | .slot slot => settle 0 (slots slot)

/-- The operations of some fragments, in order. -/
def opsOf (slots : Slot → List Op) : List Fragment → List Op
  | [] => []
  | f :: fs => f.ops slots ++ opsOf slots fs

end

/-- The number of blocks that a run leaks, up to an abort. -/
def leaks : List Op → Nat
  | [] => 0
  | .abort :: _ => 0
  | .leak :: ops => leaks ops + 1
  | _ :: ops => leaks ops

mutual

/-- The slots of a fragment that stands in `depth` blocks, in the order in which they are written
down, each with the number of blocks around it. -/
def Fragment.slots (depth : Nat) : Fragment → List (Slot × Nat)
  | .line _ => []
  | .blank => []
  | .block body => slotsOf (depth + 1) body
  | .slot slot => [(slot, depth)]

/-- The slots of some fragments that stand in `depth` blocks. -/
def slotsOf (depth : Nat) : List Fragment → List (Slot × Nat)
  | [] => []
  | f :: fs => f.slots depth ++ slotsOf depth fs

end

/-- The number of blocks that are leaked in some slots. -/
def leaksIn (slots : Slot → List Op) : List (Slot × Nat) → Nat
  | [] => 0
  | v :: visits => leaks (slots v.1) + leaksIn slots visits

/-- Operations that give back `held` of the guards that are held before them, and leave all others
alone: those are held all along, and nothing else is held at the end. -/
structure Releases (held : Nat) (ops : List Op) : Prop where
  /-- They do not end the run. -/
  abort : .abort ∉ ops
  /-- The other guards are held all along. -/
  along : ∀ (run : Run) outer, run.held = outer + held →
    ∀ p, p <+: ops → outer ≤ (run.after p).held
  /-- At the end only the other guards are held. -/
  atEnd : ∀ (run : Run) outer, run.held = outer + held → (run.after ops).held = outer

/-! ## Runs -/

namespace Run

/-- An operation that does not end the run is followed by the others. -/
theorem after_cons {op : Op} (h : op ≠ .abort) (run : Run) (ops : List Op) :
    run.after (op :: ops) = ((run.step? op).getD run).after ops := by
  cases op with
  | abort => exact absurd rfl h
  | _ => rfl

/-- Operations that do not end the run are followed by more. -/
theorem after_append {ops : List Op} (h : .abort ∉ ops) (run : Run) (more : List Op) :
    run.after (ops ++ more) = (run.after ops).after more := by
  induction ops generalizing run with
  | nil => rfl
  | cons op ops ih =>
    rw [List.mem_cons, not_or] at h
    rw [List.cons_append, after_cons (Ne.symm h.1), after_cons (Ne.symm h.1), ih h.2]

/-- The depth after one operation, from a run whose depth is `base` and the guards held: a leak adds
to `base`, and nothing else does. -/
theorem depth_step {run next : Run} {op : Op} {base : Nat}
    (h : run.buffer.depth = base + run.held) (hstep : run.step? op = some next) :
    next.buffer.depth = base + leaks [op] + next.held := by
  cases op with
  | line | append | raw | blank =>
    obtain rfl := Option.some.inj hstep
    exact h
  | openBlock | leak =>
    obtain rfl := Option.some.inj hstep
    simp only [Buffer.openBlock_depth, leaks]
    omega
  | closeBlock =>
    obtain ⟨b, _ | held⟩ := run
    · exact absurd hstep (by simp [step?])
    · obtain rfl := Option.some.inj hstep
      simp only [Buffer.closeBlock_depth, leaks] at h ⊢
      omega
  | abort => exact absurd hstep (by simp [step?])

/-- All along a run, the depth is what it was before the run, the leaks so far and the guards
held. -/
theorem depth_after {run : Run} {base : Nat} (h : run.buffer.depth = base + run.held)
    (ops : List Op) : (run.after ops).buffer.depth = base + leaks ops + (run.after ops).held := by
  induction ops generalizing run base with
  | nil => exact h
  | cons op ops ih =>
    by_cases habort : op = .abort
    · subst habort
      exact h
    have hleaks : leaks (op :: ops) = leaks [op] + leaks ops := by
      cases op with
      | abort => exact absurd rfl habort
      | leak => exact Nat.add_comm _ _
      | _ => exact (Nat.zero_add _).symm
    rw [after_cons habort, hleaks, ← Nat.add_assoc]
    cases hstep : run.step? op with
    | some next => exact ih (depth_step h hstep)
    | none =>
      -- A leak is never without effect.
      have hnone : leaks [op] = 0 := by
        cases op with
        | leak => exact absurd hstep (by simp [step?])
        | _ => rfl
      rw [hnone]
      exact ih h

end Run

/-- Closing blocks takes as much off the depth. -/
theorem closeBlocks_depth (b : Buffer) (held : Nat) :
    (Run.closeBlocks b held).depth = b.depth - held := by
  induction held generalizing b with
  | zero => rfl
  | succ held ih => rw [Run.closeBlocks, ih, Buffer.closeBlock_depth, Nat.sub_sub, Nat.add_comm 1]

/-- A whole run ends as much deeper as it leaks blocks. -/
theorem runOps_depth (ops : List Op) (b : Buffer) :
    (runOps ops b).depth = b.depth + leaks ops := by
  have hstart : (Run.start b).buffer.depth = b.depth + (Run.start b).held := rfl
  have hdepth := Run.depth_after hstart ops
  rw [runOps, Run.release, closeBlocks_depth, hdepth, Nat.add_sub_cancel]

/-! ## Guards -/

/-- No operations give back nothing. -/
theorem releases_nil : Releases 0 [] where
  abort := List.not_mem_nil
  along run outer h p hp := by
    rw [List.prefix_nil.1 hp]
    exact Nat.le_of_eq h.symm
  atEnd _ _ h := h

/-- An operation that turns `held` guards into `k`, before operations that give back `k`. -/
theorem Releases.cons {op : Op} {held k : Nat} {ops : List Op} (h : Releases k ops)
    (hop : op ≠ .abort) (hstep : ∀ (run : Run) outer, run.held = outer + held →
      ((run.step? op).getD run).held = outer + k) : Releases held (op :: ops) where
  abort := by
    rw [List.mem_cons, not_or]
    exact ⟨hop.symm, h.abort⟩
  along run outer hrun p hp := by
    rcases List.prefix_cons_iff.1 hp with rfl | ⟨q, rfl, hq⟩
    · show outer ≤ run.held
      omega
    · rw [Run.after_cons hop]
      exact h.along _ outer (hstep run outer hrun) q hq
  atEnd run outer hrun := by
    rw [Run.after_cons hop]
    exact h.atEnd _ outer (hstep run outer hrun)

/-- Operations that leave all guards alone, before operations that give back some. -/
theorem Releases.append {held : Nat} {ops more : List Op} (h : Releases 0 ops)
    (h' : Releases held more) : Releases held (ops ++ more) where
  abort := by
    rw [List.mem_append, not_or]
    exact ⟨h.abort, h'.abort⟩
  along run outer hrun p hp := by
    rcases List.prefix_or_prefix_of_prefix hp (List.prefix_append ops more) with hp | ⟨q, rfl⟩
    · have := h.along run run.held rfl p hp
      omega
    · rw [Run.after_append h.abort]
      exact h'.along _ outer ((h.atEnd run run.held rfl).trans hrun) q
        ((List.prefix_append_right_inj ops).1 hp)
  atEnd run outer hrun := by
    rw [Run.after_append h.abort]
    exact h'.atEnd _ outer ((h.atEnd run run.held rfl).trans hrun)

/-- Opening a block takes a guard. -/
theorem Releases.openBlock {held : Nat} {ops : List Op} (h : Releases (held + 1) ops) :
    Releases held (.openBlock :: ops) :=
  h.cons (by decide) fun run outer hrun => by
    show run.held + 1 = outer + (held + 1)
    omega

/-- Closing a block gives its guard back. -/
theorem Releases.closeBlock {held : Nat} {ops : List Op} (h : Releases held ops) :
    Releases (held + 1) (.closeBlock :: ops) :=
  h.cons (by decide) fun run outer hrun => by
    obtain ⟨b, n⟩ := run
    obtain rfl : n = outer + held + 1 := hrun
    rfl

/-- A run with its guards settled gives back those that it held, and leaves all others alone. -/
theorem releases_settle (held : Nat) (ops : List Op) : Releases held (settle held ops) := by
  -- At the end, and at an abort, the guards that are left are given back one by one.
  have hrest : ∀ held, Releases held (List.replicate held .closeBlock) := by
    intro held
    induction held with
    | zero => exact releases_nil
    | succ held ih => exact ih.closeBlock
  induction ops generalizing held with
  | nil => exact hrest held
  | cons op ops ih =>
    cases op with
    | abort => exact hrest held
    | openBlock => exact (ih (held + 1)).openBlock
    | closeBlock =>
      cases held with
      | zero => exact ih 0
      | succ held => exact (ih held).closeBlock
    | line | append | raw | blank | leak => exact (ih held).cons (by simp) fun _ _ h => h

mutual

/-- The operations of a fragment leave the guards around it alone. -/
theorem Fragment.releases_ops (slots : Slot → List Op) (f : Fragment) : Releases 0 (f.ops slots) := by
  match f with
  | .line s => exact releases_nil.cons (by simp) fun _ _ h => h
  | .blank => exact releases_nil.cons (by simp) fun _ _ h => h
  | .block body => exact ((releases_opsOf slots body).append releases_nil.closeBlock).openBlock
  | .slot slot => exact releases_settle 0 (slots slot)

/-- The operations of some fragments leave the guards around them alone. -/
theorem releases_opsOf (slots : Slot → List Op) (fs : List Fragment) :
    Releases 0 (opsOf slots fs) := by
  match fs with
  | [] => exact releases_nil
  | f :: fs => exact (f.releases_ops slots).append (releases_opsOf slots fs)

end

/-! ## Rendering as a run -/

/-- A run with its guards settled does among other guards what it does alone, and gives its own
guards back. -/
theorem Run.after_settle (b : Buffer) (outer held : Nat) (ops : List Op) :
    (⟨b, outer + held⟩ : Run).after (settle held ops) =
      ⟨((⟨b, held⟩ : Run).after ops).release, outer⟩ := by
  have hrest : ∀ b held, (⟨b, outer + held⟩ : Run).after (List.replicate held .closeBlock) =
      ⟨closeBlocks b held, outer⟩ := by
    intro b held
    induction held generalizing b with
    | zero => rfl
    | succ held ih => exact ih b.closeBlock
  induction ops generalizing b held with
  | nil => exact hrest b held
  | cons op ops ih =>
    cases op with
    | abort => exact hrest b held
    | openBlock => exact ih b.openBlock (held + 1)
    | closeBlock =>
      cases held with
      | zero => exact ih b 0
      | succ held => exact ih b.closeBlock held
    | line | append | raw | blank | leak => exact ih _ held

section

variable (slots : Slot → List Op)

mutual

/-- Rendering a fragment runs its operations, among whatever guards are held. -/
theorem Fragment.after_ops (r : Rendering) (held : Nat) (f : Fragment) :
    (⟨r.buffer, held⟩ : Run).after (f.ops slots) =
      ⟨(f.render (fun slot => runOps (slots slot)) r).buffer, held⟩ := by
  match f with
  | .line s => rfl
  | .blank => rfl
  | .block body =>
    -- The guard of the block is held all along its body, so the close finds it.
    show (⟨r.buffer.openBlock, held + 1⟩ : Run).after (opsOf slots body ++ [.closeBlock]) = _
    rw [Run.after_append (releases_opsOf slots body).abort,
      after_opsOf { r with buffer := r.buffer.openBlock } (held + 1) body]
    rfl
  | .slot slot => exact Run.after_settle r.buffer held 0 (slots slot)

/-- Rendering some fragments runs their operations. -/
theorem after_opsOf (r : Rendering) (held : Nat) (fs : List Fragment) :
    (⟨r.buffer, held⟩ : Run).after (opsOf slots fs) =
      ⟨(renderAll (fun slot => runOps (slots slot)) r fs).buffer, held⟩ := by
  match fs with
  | [] => rfl
  | f :: fs =>
    rw [opsOf, Run.after_append (f.releases_ops slots).abort, f.after_ops r held, renderAll]
    exact after_opsOf _ held fs

end

/-! ## Visits -/

/-- The slots that are filled one after the other, each with the depth that is seen there: the number
of blocks around it, and the leaks in the slots before, the first of them after `leaked` others. -/
def seen (leaked : Nat) : List (Slot × Nat) → List (Slot × Nat)
  | [] => []
  | v :: visits => (v.1, v.2 + leaked) :: seen (leaked + leaks (slots v.1)) visits

/-- Slots before others add their leaks to what the others see. -/
theorem seen_append (leaked : Nat) (visits more : List (Slot × Nat)) :
    seen slots leaked (visits ++ more) =
      seen slots leaked visits ++ seen slots (leaked + leaksIn slots visits) more := by
  induction visits generalizing leaked with
  | nil => rfl
  | cons v visits ih =>
    rw [List.cons_append, seen, seen, ih, leaksIn, Nat.add_assoc]
    rfl

/-- What is seen in a slot adds up the leaks in all slots before it. -/
theorem getElem?_seen (leaked : Nat) (visits : List (Slot × Nat)) (i : Nat) :
    (seen slots leaked visits)[i]? =
      visits[i]?.map fun v => (v.1, v.2 + (leaked + leaksIn slots (visits.take i))) := by
  induction visits generalizing leaked i with
  | nil => rfl
  | cons v visits ih =>
    cases i with
    | zero => rfl
    | succ i =>
      rw [seen, List.getElem?_cons_succ, ih, List.getElem?_cons_succ, List.take_succ_cons]
      simp only [leaksIn, Nat.add_assoc]

/-- The leaks in slots and in those after them add up. -/
theorem leaksIn_append (visits more : List (Slot × Nat)) :
    leaksIn slots (visits ++ more) = leaksIn slots visits + leaksIn slots more := by
  induction visits with
  | nil => exact (Nat.zero_add _).symm
  | cons v visits ih => rw [List.cons_append, leaksIn, leaksIn, ih, Nat.add_assoc]

mutual

/-- Rendering a fragment in `depth` blocks, after `leaked` leaks, fills its slots in order and leaves
the buffer deeper by the leaks in them. -/
theorem Fragment.render_visits {r : Rendering} {depth leaked : Nat}
    (h : r.buffer.depth = depth + leaked) (f : Fragment) :
    (f.render (fun slot => runOps (slots slot)) r).visits =
        r.visits ++ seen slots leaked (f.slots depth) ∧
      (f.render (fun slot => runOps (slots slot)) r).buffer.depth =
        depth + (leaked + leaksIn slots (f.slots depth)) := by
  match f with
  | .line s => exact ⟨(List.append_nil _).symm, h⟩
  | .blank => exact ⟨(List.append_nil _).symm, h⟩
  | .block body =>
    have hopen : ({ r with buffer := r.buffer.openBlock } : Rendering).buffer.depth =
        depth + 1 + leaked := by
      rw [Buffer.openBlock_depth]
      omega
    obtain ⟨hvisits, hdepth⟩ := renderAll_visits hopen body
    refine ⟨hvisits, ?_⟩
    rw [Fragment.render, Buffer.closeBlock_depth, hdepth, Fragment.slots]
    omega
  | .slot slot =>
    refine ⟨?_, ?_⟩
    · rw [Fragment.render, h]
      rfl
    · rw [Fragment.render, runOps_depth, h, Nat.add_assoc]
      rfl

/-- Rendering some fragments fills their slots in order. -/
theorem renderAll_visits {r : Rendering} {depth leaked : Nat}
    (h : r.buffer.depth = depth + leaked) (fs : List Fragment) :
    (renderAll (fun slot => runOps (slots slot)) r fs).visits =
        r.visits ++ seen slots leaked (slotsOf depth fs) ∧
      (renderAll (fun slot => runOps (slots slot)) r fs).buffer.depth =
        depth + (leaked + leaksIn slots (slotsOf depth fs)) := by
  match fs with
  | [] => exact ⟨(List.append_nil _).symm, h⟩
  | f :: fs =>
    obtain ⟨hvisits, hdepth⟩ := f.render_visits h
    obtain ⟨hvisits', hdepth'⟩ := renderAll_visits hdepth fs
    rw [renderAll, hvisits', hdepth', hvisits, slotsOf, seen_append, List.append_assoc]
    refine ⟨rfl, ?_⟩
    rw [leaksIn_append, Nat.add_assoc leaked]

end

/-! ## The whole template -/

/-- A template whose slots are filled by runs is rendered as the flat run of its operations, in which
each block is closed by its own guard. Its slots are filled in the order in which they are written
down, each once, and see the blocks around them and the blocks leaked before. So the text is finished
exactly when no slot leaks a block, and otherwise as many blocks are left open as the slots leak. -/
theorem render_eq_runOps (style : Style) (template : List Fragment) :
    let rendering := render (fun slot => runOps (slots slot)) style template
    let visits := slotsOf 0 template
    rendering.buffer = runOps (opsOf slots template) (.empty style) ∧
    (∀ fs, Releases 0 (opsOf slots fs)) ∧
    (∀ i, rendering.visits[i]? =
      visits[i]?.map fun v => (v.1, v.2 + leaksIn slots (visits.take i))) ∧
    rendering.buffer.depth = leaksIn slots visits ∧
    rendering.buffer.finish =
      if leaksIn slots visits = 0 then .ok rendering.buffer.text
      else .error ⟨leaksIn slots visits⟩ := by
  intro rendering visits
  have hrun := after_opsOf slots ⟨.empty style, []⟩ 0 template
  have hempty : (⟨.empty style, []⟩ : Rendering).buffer.depth = 0 + 0 := rfl
  obtain ⟨hvisits, hdepth⟩ := renderAll_visits slots hempty template
  replace hdepth : rendering.buffer.depth = leaksIn slots visits := by
    rw [Nat.zero_add, Nat.zero_add] at hdepth
    exact hdepth
  refine ⟨?_, releases_opsOf slots, ?_, hdepth, ?_⟩
  · rw [runOps, Run.start, hrun]
    rfl
  · intro i
    have hseen : rendering.visits = seen slots 0 visits := hvisits
    rw [hseen, getElem?_seen]
    simp only [Nat.zero_add]
  · rw [Buffer.finish, hdepth]

end

end ParamClass.Emission

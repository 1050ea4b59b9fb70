import Mathlib.Data.List.Basic
import ParamClass.Proofs.Trim

/-!
# Balanced braces

Lines that open and close blocks. `BracesBalanced` says it by counting in every prefix; walking
through the lines with the number of open braces decides it, line by line
(`bracesBalanced_iff_openAfter`).
-/

namespace ParamClass.Emission

/-- The line that opens a block. -/
def openingBrace : List Char := ['\x7b']

/-- The line that closes a block. -/
def closingBrace : List Char := ['\x7d']

/-- From `depth` open blocks on, no line closes a block that is not open, and as many lines open a
block as close one. -/
structure BracesBalanced (depth : Nat) (lines : List (List Char)) : Prop where
  /-- No prefix closes more blocks than are open. -/
  closes_le : ∀ p, p <+: lines → p.count closingBrace ≤ depth + p.count openingBrace
  /-- The totals are equal. -/
  total : lines.count closingBrace = lines.count openingBrace

/-- The number of open blocks after a line; `none` if it closes a block that is not open. -/
def braceStep (depth : Nat) (line : List Char) : Option Nat :=
  if line = openingBrace then some (depth + 1)
  else if line = closingBrace then if depth = 0 then none else some (depth - 1)
  else some depth

/-- The number of open blocks after some lines; `none` if one closes a block that is not open. -/
def openAfter (depth : Nat) (lines : List (List Char)) : Option Nat := lines.foldlM braceStep depth

/-- The two lines are different. -/
theorem openingBrace_ne : openingBrace ≠ closingBrace := by decide

/-- Other lines open and close nothing. -/
theorem braceStep_of_ne {line : List Char} (ho : line ≠ openingBrace) (hc : line ≠ closingBrace)
    (depth : Nat) : braceStep depth line = some depth := by
  rw [braceStep, if_neg ho, if_neg hc]

/-- After no lines the same blocks are open. -/
theorem openAfter_nil (depth : Nat) : openAfter depth [] = some depth := rfl

/-- The lines are walked through one after the other. -/
theorem openAfter_cons (depth : Nat) (line : List Char) (lines : List (List Char)) :
    openAfter depth (line :: lines) = (braceStep depth line).bind (openAfter · lines) := rfl

/-- Lines can be walked through in two parts. -/
theorem openAfter_append (depth : Nat) (lines more : List (List Char)) :
    openAfter depth (lines ++ more) = (openAfter depth lines).bind (openAfter · more) := by
  rw [openAfter, List.foldlM_append]
  rfl

/-- Groups of lines that do the same to every depth do so together. -/
theorem openAfter_flatMap_congr {α : Type} {f g : α → List (List Char)} {xs : List α}
    (h : ∀ x ∈ xs, ∀ depth, openAfter depth (f x) = openAfter depth (g x)) (depth : Nat) :
    openAfter depth (xs.flatMap f) = openAfter depth (xs.flatMap g) := by
  induction xs generalizing depth with
  | nil => rfl
  | cons x xs ih =>
    rw [List.forall_mem_cons] at h
    rw [List.flatMap_cons, List.flatMap_cons, openAfter_append, openAfter_append, h.1]
    exact Option.bind_congr fun depth' _ => ih h.2 depth'

/-- What holds of all prefixes of a list with a first element. -/
theorem forall_prefix_cons {α : Type} {x : α} {xs : List α} {P : List α → Prop} :
    (∀ p, p <+: x :: xs → P p) ↔ P [] ∧ ∀ p, p <+: xs → P (x :: p) := by
  constructor
  · intro h
    exact ⟨h [] List.nil_prefix, fun p hp => h (x :: p) ((List.prefix_cons_inj x).2 hp)⟩
  · rintro ⟨hnil, hcons⟩ p hp
    rcases List.prefix_cons_iff.1 hp with rfl | ⟨t, rfl, ht⟩
    · exact hnil
    · exact hcons t ht

/-- The walk ends with `after` open blocks exactly when no prefix closes more blocks than are open
and the totals leave `after` blocks open. -/
theorem openAfter_eq_some_iff {depth after : Nat} {lines : List (List Char)} :
    openAfter depth lines = some after ↔
      (∀ p, p <+: lines → p.count closingBrace ≤ depth + p.count openingBrace) ∧
        after + lines.count closingBrace = depth + lines.count openingBrace := by
  -- The first line moves the depth from which the prefixes of the rest are counted, and in each case
  -- it is counted in all of them but the empty one.
  induction lines generalizing depth with
  | nil => simp [openAfter_nil, eq_comm]
  | cons line lines ih =>
    rw [openAfter_cons, forall_prefix_cons]
    by_cases ho : line = openingBrace
    · subst ho
      rw [braceStep, if_pos rfl, Option.bind_some, ih]
      simp only [List.count_nil, List.count_cons_self, List.count_cons_of_ne openingBrace_ne,
        Nat.zero_le, true_and]
      refine and_congr (forall₂_congr fun p _ => ?_) ?_
      · omega
      · omega
    · by_cases hc : line = closingBrace
      · subst hc
        rw [braceStep, if_neg ho, if_pos rfl]
        rcases depth with _ | depth
        · -- The line itself closes a block that is not open.
          refine iff_of_false (by simp) fun h => ?_
          have hfirst := h.1.2 [] List.nil_prefix
          simp [List.count_cons_of_ne openingBrace_ne.symm] at hfirst
        · rw [if_neg (Nat.succ_ne_zero depth), Option.bind_some, Nat.add_sub_cancel, ih]
          simp only [List.count_nil, List.count_cons_self,
            List.count_cons_of_ne openingBrace_ne.symm, Nat.zero_le, true_and]
          refine and_congr (forall₂_congr fun p _ => ?_) ?_
          · omega
          · omega
      · rw [braceStep_of_ne ho hc, Option.bind_some, ih]
        simp only [List.count_nil, List.count_cons_of_ne ho, List.count_cons_of_ne hc, Nat.zero_le,
          true_and]

/-- Braces are balanced exactly when the walk ends where it starts. -/
theorem bracesBalanced_iff_openAfter {depth : Nat} {lines : List (List Char)} :
    BracesBalanced depth lines ↔ openAfter depth lines = some depth := by
  rw [openAfter_eq_some_iff, Nat.add_right_inj]
  exact ⟨fun h => ⟨h.closes_le, h.total⟩, fun h => ⟨h.1, h.2⟩⟩

instance (depth : Nat) (lines : List (List Char)) : Decidable (BracesBalanced depth lines) :=
  decidable_of_iff _ bracesBalanced_iff_openAfter.symm

/-- The same lines lead to the same number of open blocks from one number only. -/
theorem openAfter_inj {depth depth' after : Nat} {lines : List (List Char)}
    (h : openAfter depth lines = some after) (h' : openAfter depth' lines = some after) :
    depth = depth' := by
  have htotal := (openAfter_eq_some_iff.1 h).2
  have htotal' := (openAfter_eq_some_iff.1 h').2
  omega

end ParamClass.Emission

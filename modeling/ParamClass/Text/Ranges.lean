/-!
# Sets of characters as ranges

A Unicode property is kept as a list of closed ranges of code points.
-/

namespace ParamClass.Text

/-- `c` lies in one of the closed ranges. -/
def inRanges (ranges : List (Nat × Nat)) (c : Char) : Bool :=
  ranges.any fun r => r.1 ≤ c.toNat && c.toNat ≤ r.2

/-- `c` lies in one of the ranges exactly when some range has it between its ends. -/
theorem inRanges_iff {ranges : List (Nat × Nat)} {c : Char} :
    inRanges ranges c = true ↔ ∃ r ∈ ranges, r.1 ≤ c.toNat ∧ c.toNat ≤ r.2 := by
  simp [inRanges]

end ParamClass.Text

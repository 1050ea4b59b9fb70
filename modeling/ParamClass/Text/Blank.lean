import ParamClass.Text.Ranges

/-!
# Blank characters

The Unicode property White_Space: 25 characters, among them the no-break space, the line and
paragraph separators and the ideographic space. Identifiers are made by leaving them out.
-/

namespace ParamClass.Text

/-- The blank code points, as closed ranges in increasing order. -/
def blankRanges : List (Nat × Nat) := [
  (0x9, 0xD), (0x20, 0x20), (0x85, 0x85), (0xA0, 0xA0), (0x1680, 0x1680), (0x2000, 0x200A),
  (0x2028, 0x2029), (0x202F, 0x202F), (0x205F, 0x205F), (0x3000, 0x3000)]

/-- `c` has the property White_Space. -/
def isBlank (c : Char) : Bool :=
  inRanges blankRanges c

end ParamClass.Text

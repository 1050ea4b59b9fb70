/-!
# Digits

The digits of numbers in bases up to sixteen.
-/

namespace ParamClass.Text

/-- The value of a digit, in either case. -/
def digitValue? (c : Char) : Option Nat :=
  if '0' ≤ c ∧ c ≤ '9' then some (c.toNat - '0'.toNat)
  else if 'a' ≤ c ∧ c ≤ 'f' then some (c.toNat - 'a'.toNat + 10)
  else if 'A' ≤ c ∧ c ≤ 'F' then some (c.toNat - 'A'.toNat + 10)
  else none

/-- A digit is worth less than sixteen. -/
theorem digitValue?_lt {c : Char} {d : Nat} (h : digitValue? c = some d) : d < 16 := by
  unfold digitValue? at h
  split at h
  · next hc =>
    have : c.toNat ≤ 57 := hc.2
    cases h
    change c.toNat - 48 < 16
    omega
  · split at h
    · next hc =>
      have : c.toNat ≤ 102 := hc.2
      cases h
      change c.toNat - 97 + 10 < 16
      omega
    · split at h
      · next hc =>
        have : c.toNat ≤ 70 := hc.2
        cases h
        change c.toNat - 65 + 10 < 16
        omega
      · cases h

/-- The lower-case digit of a number below sixteen has that number as its value. -/
theorem digitValue?_digitChar {d : Nat} (h : d < 16) : digitValue? d.digitChar = some d := by
  revert d
  decide

end ParamClass.Text

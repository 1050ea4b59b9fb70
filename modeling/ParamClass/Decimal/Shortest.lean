/-!
# Shortest decimals

A binary floating-point number stands for all reals that round to it, and is written with the
fewest decimal digits that fall among them. For each number of digits there are two candidates,
the neighbours of the number on the grid of decimals with so many digits; the first grid with a
candidate inside wins, and of two candidates the nearer.
-/

namespace ParamClass.Decimal

/-- The positive number `mantissa * 2 ^ exponent` and the reals that round to it. -/
structure Binary where
  /-- The mantissa. -/
  mantissa : Nat
  /-- The binary exponent. -/
  exponent : Int
  /-- The next number below is only half as far away as the next one above. -/
  isNarrowBelow : Bool
  deriving DecidableEq, Repr

/-- The bit above the 52 stored bits of a mantissa, which is set for all but the smallest numbers. -/
def implicitBit : Nat := 0x10000000000000

/-- The magnitude of a finite number, from its bits. -/
def Binary.ofFloat (x : Float) : Binary :=
  let bits := x.toBits.toNat
  let field := bits / implicitBit % 0x800
  let fraction := bits % implicitBit
  if field = 0 then ⟨fraction, -1074, false⟩
  else ⟨fraction + implicitBit, (field : Int) - 1075, fraction = 0 ∧ field ≠ 1⟩

/-- The decimal `digits * 10 ^ exponent`. -/
structure Digits where
  /-- The digits, read as one number. -/
  digits : Nat
  /-- The decimal exponent. -/
  exponent : Int
  deriving DecidableEq, Repr

namespace Binary

/-- A quarter of the number's last place, as a fraction with this numerator and denominator. -/
def quarter (b : Binary) : Nat × Nat :=
  (Nat.pow 2 (b.exponent - 2).toNat, Nat.pow 2 (2 - b.exponent).toNat)

/-- The decimal exponent of the number's first digit. -/
def firstPlace (b : Binary) : Int :=
  let num := 4 * b.mantissa * b.quarter.1
  let den := b.quarter.2
  if den ≤ num then (Nat.toDigits 10 (num / den)).length - 1
  else
    -- A number below one has as many zeros before its first digit as its reciprocal, rounded up and
    -- lowered by one, has digits.
    let above := (den - 1) / num
    if above = 0 then 0 else -(Nat.toDigits 10 above).length

/-- The better of the number's neighbours among the multiples of `10 ^ place`, if one of them rounds
to the number. -/
def candidate? (b : Binary) (place : Int) : Option Digits :=
  -- The number and the ends of its interval are multiples of `scale`, a quarter of its last place.
  let scale := b.quarter.1 * Nat.pow 10 (-place).toNat
  let unit := b.quarter.2 * Nat.pow 10 place.toNat
  let value := 4 * b.mantissa * scale
  let low := value - (if b.isNarrowBelow then scale else 2 * scale)
  let high := value + 2 * scale
  -- The ends round to the number exactly when its mantissa is even.
  let isInside (n : Nat) : Bool :=
    if b.mantissa % 2 = 0 then low ≤ n * unit && n * unit ≤ high
    else low < n * unit && n * unit < high
  let below := value / unit
  let above := below + 1
  match isInside below, isInside above with
  | false, false => none
  | true, false => some ⟨below, place⟩
  | false, true => some ⟨above, place⟩
  | true, true =>
    let toBelow := value - below * unit
    let toAbove := above * unit - value
    if toBelow < toAbove ∨ toBelow = toAbove ∧ below % 2 = 0 then some ⟨below, place⟩
    else some ⟨above, place⟩

/-- The shortest decimal that rounds to the number. Seventeen digits always suffice. -/
def shortest (b : Binary) : Digits :=
  let places := (List.range 17).map fun n => b.firstPlace - (n : Nat)
  (places.findSome? b.candidate?).getD ⟨b.mantissa, 0⟩

end Binary

end ParamClass.Decimal

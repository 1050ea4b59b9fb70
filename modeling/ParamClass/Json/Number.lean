import ParamClass.Json.Fault

/-!
# Numbers in a JSON text

A whole number that fits 64 bits is kept exactly. Every other number becomes a floating-point
number, from its first digits that fit 64 bits and a power of ten. Digits of the whole part beyond
those only count towards the power; digits after the point beyond those are dropped.
-/

namespace ParamClass.Json

/-- The value of a decimal digit. -/
def decimalValue (c : Char) : Nat := c.toNat - '0'.toNat

/-- Appends digits to a significand for as long as it stays below `2 ^ 64`. Gives the significand
and the number of digits that went in. -/
def absorb (significand : Nat) : List Char → Nat × Nat
  | [] => (significand, 0)
  | c :: digits =>
    let longer := significand * 10 + decimalValue c
    if longer < UInt64.size then
      let (all, count) := absorb longer digits
      (all, count + 1)
    else (significand, 0)

/-- Reads the digits of an exponent after `value`, while it stays below `2 ^ 31`; `none` and the
text after the digit that took it beyond, if one does. -/
def readExponentDigits (value : Nat) : List Char → Option Nat × List Char
  | [] => (some value, [])
  | c :: s =>
    if c.isDigit then
      let longer := value * 10 + decimalValue c
      if longer < 0x80000000 then readExponentDigits longer s else (none, s)
    else (some value, c :: s)

/-- `10 ^ n` as a floating-point number, for `n` up to 308. -/
def powerOfTen (n : Nat) : Float := .ofScientific 1 false n

/-- `x` divided by `10 ^ n`, in steps of at most `10 ^ 308`. -/
def divideByPower (x : Float) (n : Nat) : Float :=
  if n ≤ 308 then x / powerOfTen n
  else if x == 0 then x
  else divideByPower (x / powerOfTen 308) (n - 308)
termination_by n
decreasing_by omega

/-- A significand times a power of ten, with a sign; `none` if it is too large. -/
def scaled? (isNegative : Bool) (significand : Nat) (exponent : Int) : Option Float :=
  let x := significand.toUInt64.toFloat
  let magnitude? :=
    if exponent < 0 then some (divideByPower x exponent.natAbs)
    else if 308 < exponent then if x == 0 then some x else none
    else
      let y := x * powerOfTen exponent.natAbs
      if y.isInf then none else some y
  magnitude?.map fun y => if isNegative then -y else y

/-- The number with this significand and power of ten, which `rest` follows. -/
def scaledNumber (isNegative : Bool) (significand : Nat) (exponent : Int) (rest : List Char) :
    Except Stop (Number × List Char) :=
  match scaled? isNegative significand exponent with
  | some x => .ok (.float x, rest)
  | none => .error (.before .numberOutOfRange rest)

/-- Reads the exponent of a number after its `e`. -/
def readExponent (isNegative : Bool) (significand : Nat) (exponent : Int) (s : List Char) :
    Except Stop (Number × List Char) :=
  let (isDown, s) :=
    match s with
    | '+' :: r => (false, r)
    | '-' :: r => (true, r)
    | _ => (false, s)
  match s with
  | [] => .error (.before .endInValue [])
  | c :: _ =>
    if c.isDigit then
      match readExponentDigits 0 s with
      | (some value, rest) =>
        let shift : Int := if isDown then -value else value
        scaledNumber isNegative significand (exponent + shift) rest
      | (none, rest) =>
        -- So large an exponent makes the number too large, or zero.
        if significand ≠ 0 ∧ !isDown then .error (.before .numberOutOfRange rest)
        else scaledNumber isNegative 0 0 (rest.dropWhile Char.isDigit)
    else .error (.upon .invalidNumber s)

/-- Reads what may follow the digits of a floating-point number: an exponent or nothing. -/
def readScale (isNegative : Bool) (significand : Nat) (exponent : Int) (s : List Char) :
    Except Stop (Number × List Char) :=
  match s with
  | 'e' :: r => readExponent isNegative significand exponent r
  | 'E' :: r => readExponent isNegative significand exponent r
  | _ => scaledNumber isNegative significand exponent s

/-- A whole number below `2 ^ 64`. A negative one that does not fit 64 bits with its sign, and zero
with a sign, are floating-point numbers. -/
def wholeNumber (isNegative : Bool) (significand : Nat) : Number :=
  if !isNegative then .integer significand
  else if significand = 0 ∨ 0x8000000000000000 < significand then .float (-significand.toUInt64.toFloat)
  else .integer (-significand)

/-- Reads what may follow the digits `whole` of a number: a point with digits, an exponent, or
nothing. -/
def readFraction (isNegative : Bool) (whole s : List Char) : Except Stop (Number × List Char) :=
  -- Whole digits that do not fit count towards the power of ten.
  let (significand, count) := absorb 0 whole
  let dropped := whole.length - count
  match s with
  | '.' :: r =>
    let digits := r.takeWhile Char.isDigit
    let rest := r.dropWhile Char.isDigit
    if digits = [] then
      .error (.upon (if rest = [] then .endInValue else .invalidNumber) rest)
    else
      let (significand, count) := absorb significand digits
      readScale isNegative significand ((dropped : Int) - count) rest
  | c :: _ =>
    if c = 'e' ∨ c = 'E' ∨ dropped ≠ 0 then readScale isNegative significand dropped s
    else .ok (wholeNumber isNegative significand, s)
  | [] =>
    if dropped ≠ 0 then readScale isNegative significand dropped s
    else .ok (wholeNumber isNegative significand, s)

/-- Reads a number after its sign. -/
def readMagnitude (isNegative : Bool) (s : List Char) : Except Stop (Number × List Char) :=
  match s with
  | [] => .error (.before .endInValue [])
  | '0' :: r =>
    if (r.head?.any Char.isDigit) then .error (.upon .invalidNumber r)
    else readFraction isNegative ['0'] r
  | c :: _ =>
    if c.isDigit then
      readFraction isNegative (s.takeWhile Char.isDigit) (s.dropWhile Char.isDigit)
    else .error (.upon .invalidNumber s)

/-- Reads a number. -/
def readNumber (s : List Char) : Except Stop (Number × List Char) :=
  match s with
  | '-' :: r => readMagnitude true r
  | _ => readMagnitude false s

end ParamClass.Json

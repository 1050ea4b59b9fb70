import ParamClass.Text.Cut
import ParamClass.Text.Digit
import ParamClass.Xml.Fault

/-!
# References

A reference stands for one character, by the name of one of five entities or by its code point in
decimal or hexadecimal digits. A sign `+` may stand before the digits.
-/

namespace ParamClass.Xml

open Text

/-- The number that digits write after `value`, each a digit of the base. -/
def digitsValue? (base : Nat) (value : Nat) : List Char → Option Nat
  | [] => some value
  | c :: s =>
    match digitValue? c with
    | some d => if d < base then digitsValue? base (value * base + d) s else none
    | none => none

/-- The number that `s` writes: at least one digit, and a sign `+` before them or none. -/
def number? (base : Nat) (s : List Char) : Option Nat :=
  match s with
  | [] => none
  | ['+'] => none
  | '+' :: digits => digitsValue? base 0 digits
  | digits => digitsValue? base 0 digits

/-- The character with this code point. -/
def character? (code : Nat) : Option Char :=
  if code.isValidChar then some (.ofNat code) else none

/-- The character of a named entity. -/
def entity? (name : List Char) : Option Char :=
  if name = ['l', 't'] then some '<'
  else if name = ['g', 't'] then some '>'
  else if name = ['a', 'm', 'p'] then some '&'
  else if name = ['q', 'u', 'o', 't'] then some '"'
  else if name = ['a', 'p', 'o', 's'] then some '\''
  else none

/-- The character that a reference stands for, given what is between its `&` and its `;`. -/
def decodeReference (name : List Char) : Except Cause Char :=
  match entity? name with
  | some c => .ok c
  | none =>
    match after? ['#'] name with
    | none => .error (.unknownEntity (.ofList name))
    | some number =>
      let code? :=
        match after? ['x'] number with
        | some hex => number? 16 hex
        | none => number? 10 number
      match code?.bind character? with
      | some c => .ok c
      | none => .error (.badCharacter (.ofList name))

/-- Reads a reference; `rest` follows its `&`. -/
def readReference (rest : List Char) : Except Stop (Char × List Char) :=
  match cut? [';'] rest with
  | none => .error ⟨.unterminatedReference, '&' :: rest⟩
  | some (name, after) =>
    match decodeReference name with
    | .ok c => .ok (c, after)
    | .error cause => .error ⟨cause, '&' :: rest⟩

/-- What follows a reference is shorter than what follows its `&`. -/
theorem readReference_length {rest after : List Char} {c : Char}
    (h : readReference rest = .ok (c, after)) : after.length < rest.length := by
  unfold readReference at h
  split at h
  · cases h
  · next name r hc =>
    split at h
    · cases h; exact Nat.lt_of_succ_le (by simpa [Nat.add_comm] using cut?_length hc)
    · cases h

end ParamClass.Xml

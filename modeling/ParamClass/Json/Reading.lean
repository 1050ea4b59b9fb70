import ParamClass.Except
import ParamClass.Json.Number
import ParamClass.Json.Text
import ParamClass.Text.Space

/-!
# Reading JSON step by step

The pieces from which a reader for one kind of value is made. A reader knows which kind it wants;
where another value stands, `wrongType` reads so much of it as the message shows.
-/

namespace ParamClass.Json

open Text

/-- Reads the letters of a word. -/
def readWord : List Char → List Char → Except Stop (List Char)
  | [], s => .ok s
  | _ :: _, [] => .error (.before .endInValue [])
  | w :: word, c :: s => if c = w then readWord word s else .error (.upon .expectedWord (c :: s))

/-- What follows a word is no longer than the text. -/
theorem readWord_length {word s rest : List Char} (h : readWord word s = .ok rest) :
    rest.length ≤ s.length := by
  induction word generalizing s with
  | nil => cases h; exact Nat.le_refl _
  | cons w word ih =>
    cases s with
    | nil => cases h
    | cons c s =>
      simp only [readWord] at h
      split at h
      · exact Nat.le_succ_of_le (ih h)
      · cases h

/-- Reads the colon between a key and its value. -/
def readColon (s : List Char) : Except Stop (List Char) :=
  match skipSpace s with
  | [] => .error (.upon .endInObject [])
  | ':' :: rest => .ok rest
  | r => .error (.upon .expectedColon r)

/-- Reads a value as far as a message about its kind needs it. -/
def readFound (s : List Char) : Except Stop (Found × List Char) :=
  match s with
  | 'n' :: r => (readWord ['u', 'l', 'l'] r).map (.null, ·)
  | 't' :: r => (readWord ['r', 'u', 'e'] r).map (.bool true, ·)
  | 'f' :: r => (readWord ['a', 'l', 's', 'e'] r).map (.bool false, ·)
  | '"' :: r => (readString r).map fun (content, rest) => (.string (.ofList content), rest)
  | '[' :: _ => .ok (.list, s)
  | '{' :: _ => .ok (.object, s)
  | c :: _ =>
    if c = '-' ∨ c.isDigit then (readNumber s).map fun (n, rest) => (.number n, rest)
    else .error (.upon .expectedValue s)
  | [] => .error (.upon .endInValue [])

/-- The stop of a reader that wants something else than what stands here. -/
def wrongType (expected : String) (s : List Char) : Stop :=
  match readFound s with
  | .error stop => stop
  | .ok (found, rest) => .before (.wrongType found expected) rest

/-- Reads a string, where `expected` is the name of what is wanted. -/
def readStringValue (expected : String) (s : List Char) : Except Stop (String × List Char) :=
  match skipSpace s with
  | '"' :: r => (readString r).map fun (content, rest) => (.ofList content, rest)
  | r => .error (wrongType expected r)

/-- What follows a colon is shorter than the text. -/
theorem readColon_length {s rest : List Char} (h : readColon s = .ok rest) :
    rest.length < s.length := by
  have hlen := skipSpace_length s
  unfold readColon at h
  split at h
  · cases h
  · next hs => cases h; rw [hs, List.length_cons] at hlen; omega
  · cases h

/-- What follows a string is shorter than the text. -/
theorem readStringValue_length {expected value : String} {s rest : List Char}
    (h : readStringValue expected s = .ok (value, rest)) : rest.length < s.length := by
  have hlen := skipSpace_length s
  unfold readStringValue at h
  split at h
  · next hs =>
    obtain ⟨⟨content, r⟩, hr, heq⟩ := map_eq_ok.1 h
    cases heq
    have := readString_length hr
    rw [hs, List.length_cons] at hlen
    omega
  · cases h

/-- Reads the value `null`. -/
def readNull (s : List Char) : Except Stop (List Char) :=
  match skipSpace s with
  | 'n' :: r => readWord ['u', 'l', 'l'] r
  | r => .error (wrongType "unit" r)

/-- What follows `null` is shorter than the text. -/
theorem readNull_length {s rest : List Char} (h : readNull s = .ok rest) :
    rest.length < s.length := by
  have hlen := skipSpace_length s
  unfold readNull at h
  split at h
  · next hs =>
    have := readWord_length h
    rw [hs, List.length_cons] at hlen
    omega
  · cases h

/-- Skips the spaces after the last value of a text, which nothing may follow. -/
def readEnd (s : List Char) : Except Stop Unit :=
  match skipSpace s with
  | [] => .ok ()
  | r => .error (.upon .trailingCharacters r)

end ParamClass.Json

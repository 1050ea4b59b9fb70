import ParamClass.Json.Fault
import ParamClass.Text.Digit

/-!
# Strings in a JSON text

A string stands between double quotes. The quote, the backslash and control characters have to be
escaped, any other character may be, by a letter or by its UTF-16 code units in hexadecimal.
-/

namespace ParamClass.Json

open Text

/-! ## Writing -/

/-- The two lower-case hexadecimal digits of a number below 256. -/
def hexPair (n : Nat) : List Char :=
  [Nat.digitChar (n / 16), Nat.digitChar (n % 16)]

/-- One character of a written string. -/
def writeChar (c : Char) : List Char :=
  if c = '"' then ['\\', '"']
  else if c = '\\' then ['\\', '\\']
  else if c = '\x08' then ['\\', 'b']
  else if c = '\x0c' then ['\\', 'f']
  else if c = '\n' then ['\\', 'n']
  else if c = '\r' then ['\\', 'r']
  else if c = '\t' then ['\\', 't']
  else if c.toNat < 0x20 then ['\\', 'u', '0', '0'] ++ hexPair c.toNat
  else [c]

/-- A string as it is written: only what has to be escaped is. -/
def writeString (s : String) : String :=
  .ofList ('"' :: s.toList.flatMap writeChar ++ ['"'])

/-! ## Reading -/

/-- Reads the four hexadecimal digits of a code unit. Fewer than four bytes are the end of the
text, whatever they are. -/
def readUnit (s : List Char) : Except Stop (Nat × List Char) :=
  if byteSize (s.take 4) < 4 then .error (.before .endInString [])
  else
    match s with
    | a :: b :: c :: d :: rest =>
      match digitValue? a, digitValue? b, digitValue? c, digitValue? d with
      | some a, some b, some c, some d => .ok (((a * 16 + b) * 16 + c) * 16 + d, rest)
      | _, _, _, _ => .error ⟨.invalidEscape, s, 4⟩
    | _ => .error ⟨.invalidEscape, s, 4⟩

/-- Reads a fixed character between the halves of a surrogate pair. -/
def readPairMark (mark : Char) (s : List Char) : Except Stop (List Char) :=
  match s with
  | [] => .error (.before .endInString [])
  | c :: rest => if c = mark then .ok rest else .error (.upon .unexpectedEndOfEscape s)

/-- `unit` is the first half of a surrogate pair. -/
def isLeading (unit : Nat) : Bool := 0xD800 ≤ unit && unit < 0xDC00

/-- `unit` is the second half of a surrogate pair. -/
def isTrailing (unit : Nat) : Bool := 0xDC00 ≤ unit && unit < 0xE000

/-- The character of a surrogate pair. -/
def pairChar (leading trailing : Nat) : Char :=
  .ofNat (0x10000 + (leading - 0xD800) * 0x400 + (trailing - 0xDC00))

/-- Reads a character by its code units, after the `u` that announces the first. -/
def readCoded (s : List Char) : Except Stop (Char × List Char) := do
  let (leading, s) ← readUnit s
  if isTrailing leading then .error (.before .loneSurrogate s)
  else if isLeading leading then
    -- The second half has to follow as another escape.
    let s ← readPairMark '\\' s
    let s ← readPairMark 'u' s
    let (trailing, s) ← readUnit s
    if isTrailing trailing then .ok (pairChar leading trailing, s)
    else .error (.before .loneSurrogate s)
  else .ok (.ofNat leading, s)

/-- Reads an escaped character after its backslash. -/
def readEscape (s : List Char) : Except Stop (Char × List Char) :=
  match s with
  | [] => .error (.before .endInString [])
  | '"' :: rest => .ok ('"', rest)
  | '\\' :: rest => .ok ('\\', rest)
  | '/' :: rest => .ok ('/', rest)
  | 'b' :: rest => .ok ('\x08', rest)
  | 'f' :: rest => .ok ('\x0c', rest)
  | 'n' :: rest => .ok ('\n', rest)
  | 'r' :: rest => .ok ('\r', rest)
  | 't' :: rest => .ok ('\t', rest)
  | 'u' :: rest => readCoded rest
  | _ => .error (.upon .invalidEscape s)

/-- What follows a code unit is shorter than the text. -/
theorem readUnit_length {s rest : List Char} {unit : Nat} (h : readUnit s = .ok (unit, rest)) :
    rest.length < s.length := by
  unfold readUnit at h
  split at h
  · cases h
  · split at h
    · split at h
      · cases h; simp only [List.length_cons]; omega
      · cases h
    · cases h

/-- What follows a mark in a surrogate pair is shorter than the text. -/
theorem readPairMark_length {mark : Char} {s rest : List Char}
    (h : readPairMark mark s = .ok rest) : rest.length < s.length := by
  unfold readPairMark at h
  split at h
  · cases h
  · split at h
    · cases h; simp
    · cases h

/-- What follows a coded character is shorter than the text. -/
theorem readCoded_length {s rest : List Char} {c : Char} (h : readCoded s = .ok (c, rest)) :
    rest.length < s.length := by
  simp only [readCoded, bind, Except.bind] at h
  split at h
  · cases h
  · next first hf =>
    have := readUnit_length hf
    split at h
    · cases h
    · split at h
      · split at h
        · cases h
        · next s1 h1 =>
          have := readPairMark_length h1
          split at h
          · cases h
          · next s2 h2 =>
            have := readPairMark_length h2
            split at h
            · cases h
            · next second hs =>
              have := readUnit_length hs
              split at h
              · simp only [Except.ok.injEq, Prod.mk.injEq] at h
                obtain ⟨-, rfl⟩ := h
                omega
              · cases h
      · cases h; assumption

/-- What follows an escaped character is shorter than what follows its backslash. -/
theorem readEscape_length {s rest : List Char} {c : Char} (h : readEscape s = .ok (c, rest)) :
    rest.length < s.length := by
  unfold readEscape at h
  split at h
  · cases h
  · cases h; simp
  · cases h; simp
  · cases h; simp
  · cases h; simp
  · cases h; simp
  · cases h; simp
  · cases h; simp
  · cases h; simp
  · exact Nat.lt_succ_of_lt (readCoded_length h)
  · cases h

/-- Reads the rest of a string after its opening quote. -/
def readString (s : List Char) : Except Stop (List Char × List Char) :=
  match s with
  | [] => .error (.before .endInString [])
  | c :: r =>
    if c = '"' then .ok ([], r)
    else if c = '\\' then
      match _ : readEscape r with
      | .error stop => .error stop
      | .ok (d, r') =>
        match readString r' with
        | .error stop => .error stop
        | .ok (content, rest) => .ok (d :: content, rest)
    else if c.toNat < 0x20 then .error (.upon .controlCharacter s)
    else
      match readString r with
      | .error stop => .error stop
      | .ok (content, rest) => .ok (c :: content, rest)
termination_by s.length
decreasing_by
  · have := readEscape_length ‹_›
    simp only [List.length_cons]
    omega
  · simp

/-- What follows a string is shorter than what follows its opening quote. -/
theorem readString_length {s content rest : List Char}
    (h : readString s = .ok (content, rest)) : rest.length < s.length := by
  fun_induction readString s generalizing content with
  | case1 => cases h
  | case2 => cases h; simp
  | case3 => cases h
  | case4 => cases h
  | case5 r d r' hd t t' ht _ ih =>
    cases h
    have := readEscape_length hd
    have := ih ht
    simp only [List.length_cons]
    omega
  | case6 => cases h
  | case7 => cases h
  | case8 c r _ _ _ t t' ht ih =>
    cases h
    have := ih ht
    simp only [List.length_cons]
    omega

end ParamClass.Json

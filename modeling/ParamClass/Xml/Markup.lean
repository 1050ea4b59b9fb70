import ParamClass.Text.Cut
import ParamClass.Text.Space
import ParamClass.Xml.Name

/-!
# Markup that leaves nothing behind

Comments, processing instructions and the document type declaration are checked and skipped. A
fault in one of them stands where it begins, so each reader takes the text from its first
character on as `start` and the text after its opening mark as `s`.
-/

namespace ParamClass.Xml

open Text

/-- The mark before a comment. -/
def commentMark : List Char := ['<', '!', '-', '-']

/-- The mark before a processing instruction. -/
def instructionMark : List Char := ['<', '?']

/-- The mark before a document type declaration. -/
def doctypeMark : List Char := ['<', '!', 'D', 'O', 'C', 'T', 'Y', 'P', 'E']

/-! ## Comments -/

/-- Skips a comment: its end mark `-->` is also the first place with two hyphens. -/
def readComment (start s : List Char) : Except Stop (List Char) :=
  match cut? ['-', '-'] s with
  | none => .error ⟨.unterminatedComment, start⟩
  | some (_, '>' :: rest) => .ok rest
  | some _ => .error ⟨.hyphensInComment, start⟩

/-- What follows a comment is shorter than what follows its opening mark. -/
theorem readComment_length {start s rest : List Char} (h : readComment start s = .ok rest) :
    rest.length < s.length := by
  unfold readComment at h
  split at h
  · cases h
  · next _ r hc =>
    cases h
    have := cut?_length hc
    simp only [List.length_cons, List.length_nil] at this
    omega
  · cases h

/-! ## Processing instructions -/

/-- Skips a processing instruction, which has a name and ends with the first `?>`. -/
def readInstruction (start s : List Char) : Except Stop (String × List Char) :=
  match readName s with
  | .error stop => .error stop
  | .ok (target, data) =>
    match cut? ['?', '>'] data with
    | none => .error ⟨.unterminatedInstruction, start⟩
    | some (_, rest) => .ok (target, rest)

/-- The name is `xml` in any case: the instruction is an XML declaration. -/
def isDeclaration (target : String) : Bool :=
  target.toList.map Char.toLower == ['x', 'm', 'l']

/-- Skips a processing instruction where no XML declaration may stand. -/
def readPlainInstruction (start s : List Char) : Except Stop (List Char) :=
  match readInstruction start s with
  | .error stop => .error stop
  | .ok (target, rest) =>
    if isDeclaration target then .error ⟨.misplacedDeclaration, start⟩ else .ok rest

/-- What follows an instruction is shorter than what follows its opening mark. -/
theorem readInstruction_length {start s rest : List Char} {target : String}
    (h : readInstruction start s = .ok (target, rest)) : rest.length < s.length := by
  unfold readInstruction at h
  split at h
  · cases h
  · next t data hn =>
    split at h
    · cases h
    · next _ r hc =>
      cases h
      have := cut?_length hc
      have := readName_length hn
      omega

/-- What follows a plain instruction is shorter than what follows its opening mark. -/
theorem readPlainInstruction_length {start s rest : List Char}
    (h : readPlainInstruction start s = .ok rest) : rest.length < s.length := by
  unfold readPlainInstruction at h
  split at h
  · cases h
  · next t r hr =>
    split at h
    · cases h
    · cases h; exact readInstruction_length hr

/-! ## The document type declaration -/

/-- Skips the rest of a document type declaration, inside `depth` square brackets and, if `quote`
is a character, inside a literal that it closes. The declaration ends with the first `>` outside
brackets and literals. -/
def skipDoctype (depth : Nat) (quote : Option Char) : List Char → Option (List Char)
  | [] => none
  | c :: s =>
    match quote with
    | some q => skipDoctype depth (if c = q then none else some q) s
    | none =>
      if c = '"' ∨ c = '\'' then skipDoctype depth (some c) s
      else if c = '[' then skipDoctype (depth + 1) none s
      else if c = ']' then skipDoctype (depth - 1) none s
      else if c = '>' ∧ depth = 0 then some s
      else skipDoctype depth none s

/-- Skips a document type declaration. -/
def readDoctype (start s : List Char) : Except Stop (List Char) :=
  match skipDoctype 0 none s with
  | none => .error ⟨.unterminatedDoctype, start⟩
  | some rest => .ok rest

end ParamClass.Xml

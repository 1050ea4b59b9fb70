import ParamClass.Proofs.Offsets.Text
import ParamClass.Xml.Document

/-!
# Reading by offsets

A document may be read with the whole text in hand and the offset of the place that has been reached,
instead of the characters that are left. Here is a reader that works like this. It finds what is
left by cutting the text at its offset, moves on by numbers of bytes, and keeps the offset at which a
piece of markup began, to report a fault there.

Every move and every cut is checked. One that does not end at an offset of the text, because it is
past the end or inside a character, ends the reading with `offText`. Nothing makes sure beforehand that
a loop comes to an end either: one that goes round more often than the text has characters ends the
reading with `endless`. A reader of documents knows neither.
-/

namespace ParamClass.Xml.Offsets

open Text

/-- Why reading by offsets ends without a result. -/
inductive Halt where
  /-- The text has a fault. -/
  | fault (fault : Fault)
  /-- A number of bytes is no offset of the text that it is counted in. -/
  | offText
  /-- A loop has gone round more often than the text has characters. -/
  | endless
  deriving DecidableEq, Repr

/-- A reader of the text that it is given, from the offset on that it is at. -/
abbrev Reader := ReaderT (List Char) (StateT Nat (Except Halt))

/-- How reading the text `whole` from an offset on ends: with a value and the offset that is reached,
or without. -/
def Reader.runAt {α : Type} (reader : Reader α) (whole : List Char) (offset : Nat) :
    Except Halt (α × Nat) :=
  reader whole offset

/-! ## Moves and cuts -/

/-- The offset that has been reached. -/
def offset : Reader Nat := get

/-- Cuts a text after its first `n` bytes. -/
def cutAt (n : Nat) (s : List Char) : Reader (List Char × List Char) :=
  match splitBytes? n s with
  | some parts => return parts
  | none => throw .offText

/-- The text that is left. -/
def rest : Reader (List Char) := do
  let (_, left) ← cutAt (← offset) (← read)
  return left

/-- The text that is left starts with `mark`. -/
def startsWith (mark : List Char) : Reader Bool := do
  return (after? mark (← rest)).isSome

/-- Moves on by `n` bytes, to another offset of the text. -/
def advance (n : Nat) : Reader Unit := do
  let next := (← offset) + n
  let _ ← cutAt next (← read)
  set next

/-- The number of rounds that a loop may go. -/
def rounds : Reader Nat := do
  return (← read).length + 1

/-- Reports a fault at an offset, which is a line and a column of the text before it. -/
def failAt {α : Type} (start : Nat) (cause : Cause) : Reader α := do
  let (before, _) ← cutAt start (← read)
  throw (.fault ⟨cause, .after before⟩)

/-- Reports a fault at the offset that has been reached. -/
def fail {α : Type} (cause : Cause) : Reader α := do
  failAt (← offset) cause

/-- Skips a character that has to be next. -/
def expect (mark : Char) : Reader Unit := do
  if ← startsWith [mark] then advance mark.utf8Size else fail (.expected mark)

/-- Skips spaces, which are counted as bytes; tells whether there are any. -/
def skipSpaces : Reader Bool := do
  let skipped := ((utf8 (← rest)).takeWhile isSpaceByte).length
  advance skipped
  return 0 < skipped

/-! ## Names and references -/

/-- Reads the longest name. -/
def name : Reader String := do
  let left ← rest
  match left with
  | [] => fail .expectedName
  | c :: _ =>
    if isNameStart c then
      let size := String.utf8Len (left.takeWhile isNameChar)
      advance size
      let (found, _) ← cutAt size left
      return .ofList found
    else fail .expectedName

/-- Reads a reference, from its `&` on. -/
def reference : Reader Char := do
  let start ← offset
  expect '&'
  let left ← rest
  match indexOf? [';'] left with
  | none => failAt start .unterminatedReference
  | some size =>
    let (found, _) ← cutAt size left
    match decodeReference found with
    | .error cause => failAt start cause
    | .ok c =>
      advance (size + 1)
      return c

/-! ## Markup that leaves nothing behind -/

/-- Skips a comment, from its mark on. -/
def comment : Reader Unit := do
  let start ← offset
  advance 4
  let left ← rest
  match indexOf? ['-', '-'] left with
  | none => failAt start .unterminatedComment
  | some size =>
    let (_, ending) ← cutAt size left
    if (after? ['-', '-', '>'] ending).isSome then advance (size + 3)
    else failAt start .hyphensInComment

/-- Skips a processing instruction, from its mark on. -/
def instruction : Reader String := do
  let start ← offset
  advance 2
  let target ← name
  match indexOf? ['?', '>'] (← rest) with
  | none => failAt start .unterminatedInstruction
  | some size =>
    advance (size + 2)
    return target

/-- Skips a processing instruction, which may be an XML declaration at the offset `first` only. -/
def checkedInstruction (first : Option Nat) : Reader Unit := do
  let start ← offset
  let target ← instruction
  if isDeclaration target && some start != first then failAt start .misplacedDeclaration
  else return ()

/-- Skips a processing instruction where no XML declaration may stand. -/
def plainInstruction : Reader Unit :=
  checkedInstruction none

/-- Skips the rest of a document type declaration that began at `start`, inside `depth` square
brackets and, if `quote` is a character, inside a literal that it closes. -/
def doctypeEnd (start : Nat) : Nat → Nat → Option Char → Reader Unit
  | 0, _, _ => throw .endless
  | n + 1, depth, quote => do
    match ← rest with
    | [] => failAt start .unterminatedDoctype
    | c :: _ =>
      advance c.utf8Size
      match quote with
      | some q => doctypeEnd start n depth (if c = q then none else some q)
      | none =>
        if c = '"' ∨ c = '\'' then doctypeEnd start n depth (some c)
        else if c = '[' then doctypeEnd start n (depth + 1) none
        else if c = ']' then doctypeEnd start n (depth - 1) none
        else if c = '>' ∧ depth = 0 then return ()
        else doctypeEnd start n depth none

/-- Skips a document type declaration, from its mark on. -/
def doctype : Reader Unit := do
  let start ← offset
  advance 9
  doctypeEnd start (← rounds) 0 none

/-! ## Tags -/

/-- Reads the rest of a value up to its closing quote. -/
def value (quote : Char) : Nat → Reader (List Char)
  | 0 => throw .endless
  | n + 1 => do
    match ← rest with
    | [] => fail .unterminatedValue
    | c :: _ =>
      if c = quote then
        advance 1
        return []
      else if c = '<' then fail .lessThanInValue
      else if c = '&' then
        let d ← reference
        let others ← value quote n
        return d :: others
      else
        advance c.utf8Size
        let others ← value quote n
        return (if c = '\t' ∨ c = '\n' then ' ' else c) :: others

/-- Reads a quoted value. -/
def quoted : Reader (List Char) := do
  match ← rest with
  | [] => fail .expectedQuote
  | c :: _ =>
    if c = '"' ∨ c = '\'' then
      advance 1
      value c (← rounds)
    else fail .expectedQuote

/-- Reads an attribute. -/
def rawAttribute : Reader RawAttribute := do
  let found ← name
  let _ ← skipSpaces
  expect '='
  let _ ← skipSpaces
  return ⟨found, .ofList (← quoted)⟩

/-- Reads another attribute of the start tag of `opened`, which has the attributes `before` already;
`spaced` tells whether there was a space before it. -/
def nextAttribute (opened : String) (before : List RawAttribute) (spaced : Bool) :
    Reader RawAttribute := do
  if (← rest).isEmpty then fail (.unterminatedTag opened)
  else if !spaced then fail .missingSpace
  else
    let start ← offset
    let a ← rawAttribute
    if before.any (·.name == a.name) then failAt start (.duplicateAttribute a.name) else return a

/-- Reads the rest of the start tag of `opened`, which has the attributes `before` already. -/
def rawAttributes (opened : String) : Nat → List RawAttribute → Reader Tag
  | 0, _ => throw .endless
  | n + 1, before => do
    let spaced ← skipSpaces
    if ← startsWith ['/', '>'] then
      advance 2
      return ⟨opened, before, true⟩
    else if ← startsWith ['>'] then
      advance 1
      return ⟨opened, before, false⟩
    else
      let a ← nextAttribute opened before spaced
      rawAttributes opened n (before ++ [a])

/-- Reads a start tag, from its name on. -/
def startTag : Reader Tag := do
  let opened ← name
  rawAttributes opened (← rounds) []

/-- Reads the end tag of `opened`, from its mark on. -/
def endTag (opened : String) : Reader Unit := do
  let start ← offset
  advance 2
  let found ← name
  if found = opened then
    let _ ← skipSpaces
    expect '>'
  else failAt start (.mismatchedEnd opened found)

/-! ## Elements -/

/-- Reads an element inside `depth` others, from the `<` of its start tag on; `content` reads on inside it
up to its end tag. -/
def elementWith (content : Frame → Reader Element) (depth : Nat) (scope : Scope) : Reader Element := do
  if maxDepth ≤ depth then fail .tooDeep
  else
    expect '<'
    let tag ← startTag
    match tag.resolve scope with
    | .error cause => fail cause
    | .ok (head, inner) =>
      if tag.isEmpty then return ⟨head, []⟩ else content ⟨tag.name, head, inner, []⟩

/-- Reads a character data section, from its mark on. -/
def cdata : Reader (List Char) := do
  advance 9
  let left ← rest
  match indexOf? [']', ']', '>'] left with
  | none => fail .unterminatedCData
  | some size =>
    let (text, _) ← cutAt size left
    advance (size + 3)
    return text

/-- Reads on inside an element where a mark is next; `inner` reads an element there, `again` reads on
after the markup. -/
def markup (inner : Reader Element) (again : Frame → Reader Element) (frame : Frame) :
    Lead → Reader Element
  | .endTag => do
    endTag frame.tagName
    return frame.close
  | .comment => do
    comment
    again frame
  | .cdata => do
    let text ← cdata
    again (frame.withText text)
  | .instruction => do
    plainInstruction
    again frame
  | .declaration => fail .declarationInElement
  | .startTag => do
    let e ← inner
    again (frame.withElement e)
  | .reference => do
    let c ← reference
    again (frame.withText [c])
  | .cdataEnd => fail .cdataEndInText

/-- Reads on inside an element up to its end tag. -/
def content : Nat → Nat → Frame → Reader Element
  | 0, _, _ => throw .endless
  | n + 1, depth, frame => do
    let left ← rest
    match Lead.of? left with
    | some (lead, _) =>
      markup (elementWith (content n (depth + 1)) (depth + 1) frame.scope) (content n depth) frame lead
    | none =>
      match left with
      | [] => fail .unexpectedEnd
      | c :: _ =>
        advance c.utf8Size
        content n depth (frame.withText [c])

/-- Reads an element inside `depth` others, from the `<` of its start tag on. -/
def element (depth : Nat) (scope : Scope) : Reader Element := do
  elementWith (content (← rounds) depth) depth scope

/-! ## Documents -/

/-- Skips spaces, comments and processing instructions that are no XML declaration. -/
def misc : Nat → Reader Unit
  | 0 => throw .endless
  | n + 1 => do
    let _ ← skipSpaces
    if ← startsWith commentMark then
      comment
      misc n
    else if ← startsWith instructionMark then
      plainInstruction
      misc n
    else return ()

/-- Skips a byte order mark. -/
def byteOrderMark : Reader Unit := do
  if ← startsWith ['\uFEFF'] then advance 3 else return ()

/-- Skips what may stand before a root element, when an XML declaration may stand at the offset
`first` only. -/
def prolog (first : Nat) : Bool → Nat → Reader Unit
  | _, 0 => throw .endless
  | seenDoctype, n + 1 => do
    let _ ← skipSpaces
    if ← startsWith commentMark then
      comment
      prolog first seenDoctype n
    else if ← startsWith instructionMark then
      checkedInstruction (some first)
      prolog first seenDoctype n
    else if ← startsWith doctypeMark then
      if seenDoctype then fail .duplicateDoctype
      else
        doctype
        prolog first true n
    else return ()

/-- Skips everything before the root element. -/
def preamble : Reader Unit := do
  byteOrderMark
  prolog (← offset) false (← rounds)

/-- Reads a document. -/
def document : Reader Element := do
  preamble
  match ← rest with
  | [] => fail .missingRoot
  | '<' :: _ =>
    let root ← element 0 []
    misc (← rounds)
    if (← rest).isEmpty then return root else fail .contentAfterRoot
  | _ => fail .textBeforeRoot

end ParamClass.Xml.Offsets

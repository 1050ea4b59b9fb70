import ParamClass.Text.Lines

/-!
# Faults in a document

A reader that meets a fault stops with its cause and the text from the fault on. Only the whole
text tells the place, so a stop becomes a fault with a place where the document is read as a whole.
-/

namespace ParamClass.Xml

open Text

/-- The greatest number of elements that may be open at one place. -/
def maxDepth : Nat := 256

/-- Why a text is not a well-formed document. -/
inductive Cause where
  /-- An instruction named `xml`, in any case, stands where no declaration may. -/
  | misplacedDeclaration
  /-- A second document type declaration. -/
  | duplicateDoctype
  /-- A document type declaration without its end. -/
  | unterminatedDoctype
  /-- The text ends before its root element. -/
  | missingRoot
  /-- The root element is preceded by text. -/
  | textBeforeRoot
  /-- The root element is followed by more than spaces, comments and instructions. -/
  | contentAfterRoot
  /-- An element inside `maxDepth` others. -/
  | tooDeep
  /-- A fixed character is missing. -/
  | expected (mark : Char)
  /-- A name is missing. -/
  | expectedName
  /-- The text ends in the start tag of this name. -/
  | unterminatedTag (name : String)
  /-- An attribute follows without a space before it. -/
  | missingSpace
  /-- The tag has an earlier attribute of this name. -/
  | duplicateAttribute (name : String)
  /-- The value of an attribute is not quoted. -/
  | expectedQuote
  /-- The text ends in the value of an attribute. -/
  | unterminatedValue
  /-- A `<` in the value of an attribute. -/
  | lessThanInValue
  /-- A declaration binds this prefix to nothing. -/
  | emptyBinding (pre : String)
  /-- The colons of this name do not split it in two parts. -/
  | badQName (name : String)
  /-- No declaration in scope binds this prefix. -/
  | unboundPrefix (pre : String)
  /-- An end tag has another name than the start tag it should match. -/
  | mismatchedEnd (opened found : String)
  /-- The text ends inside an element. -/
  | unexpectedEnd
  /-- A markup declaration inside an element. -/
  | declarationInElement
  /-- A character data section without its end. -/
  | unterminatedCData
  /-- The end mark of a character data section in text. -/
  | cdataEndInText
  /-- A reference without its semicolon. -/
  | unterminatedReference
  /-- A reference to an entity that is not one of the five. -/
  | unknownEntity (name : String)
  /-- A character reference that is no number or no character. -/
  | badCharacter (name : String)
  /-- A comment without its end. -/
  | unterminatedComment
  /-- Two hyphens inside a comment. -/
  | hyphensInComment
  /-- A processing instruction without its end. -/
  | unterminatedInstruction
  deriving DecidableEq, Repr

/-- The wording of a cause. -/
def Cause.message : Cause → String
  | misplacedDeclaration => "XML declaration is only allowed at the start of the document"
  | duplicateDoctype => "duplicate DOCTYPE declaration"
  | unterminatedDoctype => "unterminated DOCTYPE declaration"
  | missingRoot => "document has no root element"
  | textBeforeRoot => "unexpected text before root element"
  | contentAfterRoot => "unexpected content after root element"
  | tooDeep => "maximum element nesting depth exceeded (" ++ toString maxDepth ++ ")"
  | expected mark => "expected '" ++ mark.toString ++ "'"
  | expectedName => "expected a name"
  | unterminatedTag name => "unterminated start tag <" ++ name ++ ">"
  | missingSpace => "expected whitespace before attribute"
  | duplicateAttribute name => "duplicate attribute '" ++ name ++ "'"
  | expectedQuote => "expected quoted attribute value"
  | unterminatedValue => "unterminated attribute value"
  | lessThanInValue => "'<' is not allowed in attribute values"
  | emptyBinding pre => "namespace prefix '" ++ pre ++ "' cannot be bound to an empty URI"
  | badQName name => "invalid qualified name '" ++ name ++ "'"
  | unboundPrefix pre => "unbound namespace prefix '" ++ pre ++ "'"
  | mismatchedEnd opened found =>
    "mismatched end tag: expected </" ++ opened ++ ">, found </" ++ found ++ ">"
  | unexpectedEnd => "unexpected end of input inside element"
  | declarationInElement => "unexpected markup declaration inside element"
  | unterminatedCData => "unterminated CDATA section"
  | cdataEndInText => "']]>' is not allowed in text content"
  | unterminatedReference => "unterminated entity reference"
  | unknownEntity name => "unknown entity '&" ++ name ++ ";'"
  | badCharacter name => "invalid character reference '&" ++ name ++ ";'"
  | unterminatedComment => "unterminated comment"
  | hyphensInComment => "'--' is not permitted inside a comment"
  | unterminatedInstruction => "unterminated processing instruction"

/-- Where and why a reader stopped. -/
structure Stop where
  /-- Why. -/
  cause : Cause
  /-- The text from the fault on. -/
  rest : List Char
  deriving DecidableEq, Repr

/-- A fault in a text: its cause and its place. -/
structure Fault where
  /-- The cause. -/
  cause : Cause
  /-- The place, in the text with its line ends normalized. -/
  place : Place
  deriving DecidableEq, Repr

/-- The fault of a reader that stopped in `whole`. -/
def Stop.fault (whole : List Char) (stop : Stop) : Fault :=
  ⟨stop.cause, .within whole stop.rest⟩

/-- The wording of a fault. -/
def Fault.message (fault : Fault) : String :=
  fault.cause.message ++ " at line " ++ toString fault.place.line ++ ", column " ++
    toString fault.place.column

end ParamClass.Xml

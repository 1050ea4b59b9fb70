import ParamClass.Decimal.Shortest
import ParamClass.Text.Lines
import ParamClass.Text.Quoted

/-!
# Faults in a JSON text

A reader that meets a fault stops with its cause, the text that is left, and how many bytes of
that text the fault has already taken in. Columns count bytes, so a place may lie inside a
character.
-/

namespace ParamClass.Json

/-! ## What was found instead -/

/-- A number in a JSON text. -/
inductive Number where
  /-- A whole number of at most 64 bits. -/
  | integer (value : Int)
  /-- Any other number. -/
  | float (value : Float)
  deriving Repr

/-- A value that should have been another one; lists and objects are only named. -/
inductive Found where
  /-- The value `null`. -/
  | null
  /-- A truth value. -/
  | bool (value : Bool)
  /-- A number. -/
  | number (value : Number)
  /-- A string. -/
  | string (value : String)
  /-- A list. -/
  | list
  /-- An object. -/
  | object
  deriving Repr

/-- A decimal with digits `ds`, the first of which stands at the decimal exponent `first`.
Exponents from -5 to 15 are written positionally, with at least one digit after the point; others
with an exponent that has a sign. -/
def layout (ds : List Char) (first : Int) : List Char :=
  if -5 ≤ first ∧ first < 0 then
    ['0', '.'] ++ List.replicate (-first - 1).toNat '0' ++ ds
  else if 0 ≤ first ∧ first < 16 then
    let whole := ds.take (first.toNat + 1)
    let part := ds.drop (first.toNat + 1)
    whole ++ List.replicate (first.toNat + 1 - whole.length) '0' ++
      '.' :: (if part = [] then ['0'] else part)
  else
    let point := if ds.length ≤ 1 then [] else '.' :: ds.drop 1
    let sign := if first < 0 then '-' else '+'
    ds.take 1 ++ point ++ 'e' :: sign :: Nat.toDigits 10 first.natAbs

/-- The text of a floating-point number: its shortest decimal. -/
def floatText (x : Float) : String :=
  let sign := if x.toBits.toNat < 0x8000000000000000 then [] else ['-']
  let b := Decimal.Binary.ofFloat x
  if b.mantissa = 0 then .ofList (sign ++ ['0', '.', '0'])
  else
    let d := b.shortest
    let ds := Nat.toDigits 10 d.digits
    let significant := (ds.reverse.dropWhile (· == '0')).reverse
    .ofList (sign ++ layout significant (d.exponent + ds.length - 1))

/-- How a message names what was found. -/
def Found.text : Found → String
  | null => "null"
  | bool value => "boolean `" ++ toString value ++ "`"
  | number (.integer value) => "integer `" ++ toString value ++ "`"
  | number (.float value) => "floating point `" ++ floatText value ++ "`"
  | string value => "string " ++ Text.quoted value
  | list => "sequence"
  | object => "map"

/-! ## Faults -/

/-- Why a JSON text is refused. -/
inductive Cause where
  /-- The text ends where a value should stand. -/
  | endInValue
  /-- The text ends in a string. -/
  | endInString
  /-- The text ends in a list. -/
  | endInList
  /-- The text ends in an object. -/
  | endInObject
  /-- No value starts here. -/
  | expectedValue
  /-- A word is misspelled. -/
  | expectedWord
  /-- A colon is missing. -/
  | expectedColon
  /-- A comma or the end of the list is missing. -/
  | expectedCommaInList
  /-- A comma or the end of the object is missing. -/
  | expectedCommaInObject
  /-- A key is not a string. -/
  | keyNotString
  /-- A comma has nothing after it. -/
  | trailingComma
  /-- More text follows the value. -/
  | trailingCharacters
  /-- A control character in a string. -/
  | controlCharacter
  /-- A backslash with something that it does not escape. -/
  | invalidEscape
  /-- The first half of a surrogate pair without a second. -/
  | unexpectedEndOfEscape
  /-- Half of a surrogate pair that has no other half. -/
  | loneSurrogate
  /-- A number with a missing or superfluous digit. -/
  | invalidNumber
  /-- A number too large for a floating-point number. -/
  | numberOutOfRange
  /-- A value of the wrong kind. -/
  | wrongType (found : Found) (expected : String)
  /-- A key that is none of the known ones. -/
  | unknownField (key : String) (known : List String)
  /-- A key that occurs twice. -/
  | duplicateField (key : String)
  /-- A string that is none of the known ones. -/
  | unknownVariant (value : String) (known : List String)
  deriving Repr

/-- The alternatives in a message, each between backticks. -/
def alternatives : List String → String
  | [a, b] => "`" ++ a ++ "` or `" ++ b ++ "`"
  | names => "one of " ++ String.intercalate ", " (names.map fun name => "`" ++ name ++ "`")

/-- The wording of a cause. -/
def Cause.message : Cause → String
  | endInValue => "EOF while parsing a value"
  | endInString => "EOF while parsing a string"
  | endInList => "EOF while parsing a list"
  | endInObject => "EOF while parsing an object"
  | expectedValue => "expected value"
  | expectedWord => "expected ident"
  | expectedColon => "expected `:`"
  | expectedCommaInList => "expected `,` or `]`"
  | expectedCommaInObject => "expected `,` or `\x7d`"
  | keyNotString => "key must be a string"
  | trailingComma => "trailing comma"
  | trailingCharacters => "trailing characters"
  | controlCharacter => "control character (\\u0000-\\u001F) found while parsing a string"
  | invalidEscape => "invalid escape"
  | unexpectedEndOfEscape => "unexpected end of hex escape"
  | loneSurrogate => "lone leading surrogate in hex escape"
  | invalidNumber => "invalid number"
  | numberOutOfRange => "number out of range"
  | wrongType found expected => "invalid type: " ++ found.text ++ ", expected " ++ expected
  | unknownField key known => "unknown field `" ++ key ++ "`, expected " ++ alternatives known
  | duplicateField key => "duplicate field `" ++ key ++ "`"
  | unknownVariant value known =>
    "unknown variant `" ++ value ++ "`, expected " ++ alternatives known

/-- Where and why a reader stopped. -/
structure Stop where
  /-- Why. -/
  cause : Cause
  /-- The text that is left. -/
  rest : List Char
  /-- How many bytes of it the fault takes in. -/
  past : Nat
  deriving Repr

/-- A stop before the text that is left. -/
def Stop.before (cause : Cause) (rest : List Char) : Stop := ⟨cause, rest, 0⟩

/-- A stop that takes in the first byte of the text that is left, if there is one. -/
def Stop.upon (cause : Cause) (rest : List Char) : Stop :=
  ⟨cause, rest, if rest = [] then 0 else 1⟩

/-- The number of bytes that a text takes in UTF-8. -/
def byteSize (s : List Char) : Nat := (String.ofList s).utf8ByteSize

/-- A fault in a text: its cause and its place. -/
structure Fault where
  /-- The cause. -/
  cause : Cause
  /-- The line, which starts at one. -/
  line : Nat
  /-- The number of bytes in the line up to the fault. -/
  column : Nat
  deriving Repr

/-- The fault of a reader that stopped in `whole`. -/
def Stop.fault (whole : String) (stop : Stop) : Fault :=
  let size := whole.utf8ByteSize - byteSize stop.rest + stop.past
  let taken := whole.toByteArray.toList.take size
  ⟨stop.cause, taken.count 10 + 1, (taken.reverse.takeWhile (· != 10)).length⟩

/-- The wording of a fault. -/
def Fault.message (fault : Fault) : String :=
  fault.cause.message ++ " at line " ++ toString fault.line ++ " column " ++
    toString fault.column

end ParamClass.Json

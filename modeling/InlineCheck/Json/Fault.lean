import InlineCheck.Json.Printer
import InlineCheck.Text.Quoted

/-!
# Why a JSON text was refused

A `Cause` says what is wrong and a `Fault` also where.  While a character is looked at, the
place is given as a `Refusal`: how many bytes of that character count as read.  Once the text
is known, `Position.of` turns the number of bytes read into a line and a column, and
`Fault.message` puts the whole message together.
-/

namespace InlineCheck.Json

/-- What is wrong with a JSON text. -/
inductive Cause
  | endInValue
  | endInList
  | endInObject
  | endInString
  | expectedValue
  | expectedWord
  | expectedColon
  | expectedCommaOrBracket
  | expectedCommaOrBrace
  | trailingComma
  | trailingText
  | keyNotString
  | invalidNumber
  | numberOutOfRange
  | invalidEscape
  | loneSurrogate
  | surrogateNotFollowed
  | controlCharacter
  | tooDeep
  /-- A value of another type than the expected one; of a container only its type counts. -/
  | wrongType (found : Value) (expected : String)
  /-- Fewer items than the record has fields that must be present. -/
  | wrongLength (length : Nat) (expected : String) (fields : Nat)
  | missingField (name : String)
  | duplicateField (name : String)

/-- A value as a message about its type names it. -/
def Value.describe : Value → String
  | .null => "null"
  | .bool true => "boolean `true`"
  | .bool false => "boolean `false`"
  | .number (.whole n) => "integer `" ++ (Number.whole n).write ++ "`"
  | .number (.float x) => "floating point `" ++ (Number.float x).write ++ "`"
  | .string text => "string " ++ Text.quoted text
  | .array _ => "sequence"
  | .object _ => "map"

/-- The wording of a cause. -/
def Cause.message : Cause → String
  | .endInValue => "EOF while parsing a value"
  | .endInList => "EOF while parsing a list"
  | .endInObject => "EOF while parsing an object"
  | .endInString => "EOF while parsing a string"
  | .expectedValue => "expected value"
  | .expectedWord => "expected ident"
  | .expectedColon => "expected `:`"
  | .expectedCommaOrBracket => "expected `,` or `]`"
  | .expectedCommaOrBrace => "expected `,` or `\x7d`"
  | .trailingComma => "trailing comma"
  | .trailingText => "trailing characters"
  | .keyNotString => "key must be a string"
  | .invalidNumber => "invalid number"
  | .numberOutOfRange => "number out of range"
  | .invalidEscape => "invalid escape"
  | .loneSurrogate => "lone leading surrogate in hex escape"
  | .surrogateNotFollowed => "unexpected end of hex escape"
  | .controlCharacter =>
    "control character (\\u0000-\\u001F) found while parsing a string"
  | .tooDeep => "recursion limit exceeded"
  | .wrongType found expected => "invalid type: " ++ found.describe ++ ", expected " ++ expected
  | .wrongLength length expected fields =>
    s!"invalid length {length}, expected {expected} with {fields} " ++
      (if fields = 1 then "element" else "elements")
  | .missingField name => s!"missing field `{name}`"
  | .duplicateField name => s!"duplicate field `{name}`"

/-- A cause met while a character was looked at, and how many bytes of the character count as
read. -/
structure Refusal where
  cause : Cause
  bytes : Nat

/-- The refusal in front of the character. -/
def Refusal.before (cause : Cause) : Refusal := ⟨cause, 0⟩

/-- The refusal behind the first byte of the character. -/
def Refusal.after (cause : Cause) : Refusal := ⟨cause, 1⟩

/-- A cause and the number of bytes of the text that count as read. -/
structure Fault where
  cause : Cause
  offset : Nat

/-- A place in a text: its line, from 1, and how many bytes of the line come before it. -/
structure Position where
  line : Nat
  column : Nat
deriving DecidableEq, Repr

/-- The place `count` bytes further on, when `p` is the place in front of the text. -/
def Position.advance (p : Position) (count : Nat) : List Char → Position
  | [] => p
  | c :: cs =>
    if count = 0 then p
    else if c = '\n' then Position.advance ⟨p.line + 1, 0⟩ (count - 1) cs
    else if count ≤ c.utf8Size then ⟨p.line, p.column + count⟩
    else Position.advance ⟨p.line, p.column + c.utf8Size⟩ (count - c.utf8Size) cs

/-- The place behind the first `offset` bytes of the text. -/
def Position.of (text : List Char) (offset : Nat) : Position :=
  Position.advance ⟨1, 0⟩ offset text

/-- The message about a text that was refused. -/
def Fault.message (fault : Fault) (text : List Char) : String :=
  let place := Position.of text fault.offset
  s!"{fault.cause.message} at line {place.line} column {place.column}"

end InlineCheck.Json

import EnvelopeLog.Bytes
import EnvelopeLog.Text.Quoted

/-!
# Faults of JSON texts

A fault is a problem and the place at which it was noticed. Places are lines and columns, counted in bytes from the last
line end.
-/

namespace EnvelopeLog.Json

/-- What was found where something else was expected. -/
inductive Found where
  | null
  | boolean (value : Bool)
  | integer (value : Int)
  /-- A number with a fraction, an exponent or too many digits, by its shortest text. -/
  | fraction (shown : String)
  | text (value : String)
  | list
  | object
deriving DecidableEq, Repr

/-- The words for what was found. -/
def Found.message : Found → String
  | .null => "null"
  | .boolean value => s!"boolean `{value}`"
  | .integer value => s!"integer `{value}`"
  | .fraction shown => s!"floating point `{shown}`"
  | .text value => "string " ++ Text.quoted value
  | .list => "sequence"
  | .object => "map"

/-- What is wrong with a text. -/
inductive Problem where
  | endInList
  | endInObject
  | endInText
  | endInValue
  | expectedColon
  | expectedCommaInList
  | expectedCommaInObject
  | expectedWord
  | expectedValue
  | invalidEscape
  | invalidNumber
  | numberOutOfRange
  | controlCharacter
  | keyNotText
  | loneSurrogate
  | halfSurrogate
  | trailingComma
  | trailingCharacters
  /-- A value of the wrong kind. -/
  | wrongType (found : Found) (expected : String)
  /-- A number outside the range of its field. -/
  | wrongValue (found : Found) (expected : String)
  | missingField (name : String)
  | duplicateField (name : String)
  /-- A list that ends before the last mandatory field. -/
  | tooShort (length : Nat) (expected : String)
deriving DecidableEq, Repr

/-- The words for a problem. -/
def Problem.message : Problem → String
  | .endInList => "EOF while parsing a list"
  | .endInObject => "EOF while parsing an object"
  | .endInText => "EOF while parsing a string"
  | .endInValue => "EOF while parsing a value"
  | .expectedColon => "expected `:`"
  | .expectedCommaInList => "expected `,` or `]`"
  | .expectedCommaInObject => "expected `,` or `\x7d`"
  | .expectedWord => "expected ident"
  | .expectedValue => "expected value"
  | .invalidEscape => "invalid escape"
  | .invalidNumber => "invalid number"
  | .numberOutOfRange => "number out of range"
  | .controlCharacter => "control character (\\u0000-\\u001F) found while parsing a string"
  | .keyNotText => "key must be a string"
  | .loneSurrogate => "lone leading surrogate in hex escape"
  | .halfSurrogate => "unexpected end of hex escape"
  | .trailingComma => "trailing comma"
  | .trailingCharacters => "trailing characters"
  | .wrongType found expected => s!"invalid type: {found.message}, expected {expected}"
  | .wrongValue found expected => s!"invalid value: {found.message}, expected {expected}"
  | .missingField name => s!"missing field `{name}`"
  | .duplicateField name => s!"duplicate field `{name}`"
  | .tooShort length expected => s!"invalid length {length}, expected {expected}"

/-- A problem and its place. -/
structure Fault where
  problem : Problem
  line : Nat
  column : Nat
deriving DecidableEq, Repr

/-- The words for a fault. -/
def Fault.message (f : Fault) : String := s!"{f.problem.message} at line {f.line} column {f.column}"

/-- A problem met by a reader: what was left of the text, and how many bytes further on the problem is reported. -/
structure Failure where
  problem : Problem
  rest : List Char
  ahead : Nat := 1
deriving DecidableEq, Repr

/-- How many bytes characters take in UTF-8. -/
def byteCount (cs : List Char) : Nat := cs.foldr (·.utf8Size + ·) 0

/-- The fault that a failure is in a whole text. -/
def Failure.place (f : Failure) (text : List Char) : Fault :=
  let reached := (Bytes.ofText (String.ofList text)).take (byteCount text - byteCount f.rest + f.ahead)
  { problem := f.problem
    line := 1 + reached.count 10
    column := (reached.reverse.takeWhile (· ≠ 10)).length }

end EnvelopeLog.Json

import EnvelopeLog.Json.Record

/-!
# Printing records

A record is printed as an object with its members in order, either on one line or with a line for each member. Reading the
printed form gives the members back.
-/

namespace EnvelopeLog.Json

/-- A hexadecimal digit below 16. -/
def hexDigit (n : Nat) : Char := if n < 10 then Char.ofNat (48 + n) else Char.ofNat (87 + n)

/-- A character as it stands between the quotes of a printed text. -/
def printedChar (c : Char) : List Char :=
  if c = '"' then ['\\', '"']
  else if c = '\\' then ['\\', '\\']
  else if c = '\x08' then ['\\', 'b']
  else if c = '\x0c' then ['\\', 'f']
  else if c = '\n' then ['\\', 'n']
  else if c = '\r' then ['\\', 'r']
  else if c = '\t' then ['\\', 't']
  else if c < ' ' then ['\\', 'u', '0', '0', hexDigit (c.toNat / 16), hexDigit (c.toNat % 16)]
  else [c]

/-- A text with its quotes. -/
def printedText (s : String) : List Char := '"' :: s.toList.flatMap printedChar ++ ['"']

/-- The value of a field. -/
def printedDatum : Datum → List Char
  | .null => ['n', 'u', 'l', 'l']
  | .text s => printedText s
  | .natural n => Nat.toDigits 10 n

/-- A member, with what separates the colon from the value. -/
def printedMember (space : List Char) (member : String × Datum) : List Char :=
  printedText member.1 ++ ':' :: space ++ printedDatum member.2

/-- A record on one line without blanks. -/
def compact (members : Members) : String :=
  String.ofList ('\x7b' :: [','].intercalate (members.map (printedMember [])) ++ ['\x7d'])

/-- A record with each member on a line of its own, indented by two spaces. -/
def pretty (members : Members) : String :=
  if members = [] then "\x7b\x7d"
  else
    let lines := [',', '\n', ' ', ' '].intercalate (members.map (printedMember [' ']))
    String.ofList ('\x7b' :: '\n' :: ' ' :: ' ' :: lines ++ ['\n', '\x7d'])

end EnvelopeLog.Json

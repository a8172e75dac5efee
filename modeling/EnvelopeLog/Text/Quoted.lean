import EnvelopeLog.Text.Hidden

/-!
# Quoted text

A text as it is shown in a message: between double quotes, with a backslash before quotes and backslashes, the usual
letters for line ends, tabs and the null character, and every other hidden character by its code point in braces.
-/

namespace EnvelopeLog.Text

/-- A character as it stands in a quoted text. -/
def quotedChar (c : Char) : List Char :=
  if c = '\x00' then ['\\', '0']
  else if c = '\t' then ['\\', 't']
  else if c = '\n' then ['\\', 'n']
  else if c = '\r' then ['\\', 'r']
  else if c = '"' then ['\\', '"']
  else if c = '\\' then ['\\', '\\']
  else if isHidden c then ['\\', 'u', '\x7b'] ++ Nat.toDigits 16 c.toNat ++ ['\x7d']
  else [c]

/-- A text between double quotes. -/
def quoted (s : String) : String := String.ofList ('"' :: s.toList.flatMap quotedChar ++ ['"'])

end EnvelopeLog.Text

import EnvelopeLog.Fault
import EnvelopeLog.Json.Printer

/-!
# Settings

The three numbers that users may choose, their defaults, their text form and the limits that are checked when settings are
loaded. A text may leave any of them out and may hold other members; a number that does not fit its field is a fault.
-/

namespace EnvelopeLog

/-- The numbers that users may choose. -/
structure Settings where
  /-- The size of the modulus of new keys. -/
  keyBits : UInt64 := 2048
  /-- The longest wrapped key or cipher text that is read. -/
  maxFieldLength : UInt32 := 67108864
  /-- How many bytes a writer sets aside for its buffer. -/
  bufferCapacity : UInt64 := 8192
deriving DecidableEq, Repr, Inhabited

namespace Settings

/-- The least size of a new modulus in bits. -/
def minKeyBits : Nat := 1024

/-- The greatest size of a modulus in bits, for new keys and for public keys that are read. -/
def maxKeyBits : Nat := 4096

/-- The fields of the text form. -/
def schema : Json.Schema where
  name := "CryptoConfig"
  fields := [
    { name := "rsa_key_bits", kind := .natural "usize" 0xffffffffffffffff },
    { name := "max_field_len", kind := .natural "u32" 0xffffffff },
    { name := "initial_buffer_capacity", kind := .natural "usize" 0xffffffffffffffff }]

/-- The number of a member, if the member is there. -/
def number? (members : Json.Members) (name : String) : Option Nat :=
  match members.lookup name with
  | some (.natural n) => some n
  | _ => none

/-- The settings with the given members, and the defaults for the others. -/
def ofMembers (members : Json.Members) : Settings :=
  let default : Settings := {}
  { keyBits := ((number? members "rsa_key_bits").map UInt64.ofNat).getD default.keyBits
    maxFieldLength := ((number? members "max_field_len").map UInt32.ofNat).getD default.maxFieldLength
    bufferCapacity := ((number? members "initial_buffer_capacity").map UInt64.ofNat).getD default.bufferCapacity }

/-- The members of the text form. -/
def members (s : Settings) : Json.Members := [
  ("rsa_key_bits", .natural s.keyBits.toNat),
  ("max_field_len", .natural s.maxFieldLength.toNat),
  ("initial_buffer_capacity", .natural s.bufferCapacity.toNat)]

/-- The settings that a text holds, whether or not they are within the limits. -/
def parse (text : String) : Except Json.Fault Settings := (Json.parseRecord schema text).map ofMembers

/-- The text form on one line. -/
def render (s : Settings) : String := Json.compact s.members

/-- The settings as they are shown to developers. -/
def inspect (s : Settings) : String :=
  let shown := [
    s!"rsa_key_bits: {s.keyBits}",
    s!"max_field_len: {s.maxFieldLength}",
    s!"initial_buffer_capacity: {s.bufferCapacity}"]
  "CryptoConfig \x7b " ++ ", ".intercalate shown ++ " \x7d"

/-- Whether a modulus of the given size may be generated. -/
def checkKeyBits (bits : Nat) : Except SettingsFault Unit :=
  if bits < minKeyBits ∨ maxKeyBits < bits then .error (.keyBitsOutOfRange bits)
  else if bits % 8 ≠ 0 then .error (.keyBitsNotBytes bits)
  else .ok ()

/-- Whether the settings are within the limits. -/
def check (s : Settings) : Except SettingsFault Unit :=
  match checkKeyBits s.keyBits.toNat with
  | .error e => .error e
  | .ok () => if s.maxFieldLength = 0 then .error .zeroFieldLimit else .ok ()

/-- The settings that a text holds, if they are within the limits. -/
def parseChecked (text : String) : Except Fault Settings :=
  match parse text with
  | .error e => .error (.json e)
  | .ok s =>
    match s.check with
    | .error e => .error (.settings (.cause e))
    | .ok () => .ok s

end Settings

end EnvelopeLog

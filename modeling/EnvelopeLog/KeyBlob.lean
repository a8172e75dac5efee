import EnvelopeLog.Rsa.Oaep
import EnvelopeLog.Settings
import EnvelopeLog.Text.Blank

/-!
# Key blobs

A key blob is the text form of a key: an object whose members are natural numbers, each written as its shortest big-endian
bytes in base 64. A public blob holds the modulus and the exponent; a private one also the primes, the private exponent and
the numbers derived from them. Derived numbers may be missing, but those present must be right.
-/

namespace EnvelopeLog

/-- The members of a key blob as texts. -/
structure KeyBlob where
  modulus : String
  exponent : String
  p : Option String := none
  q : Option String := none
  dp : Option String := none
  dq : Option String := none
  inverseQ : Option String := none
  d : Option String := none
deriving DecidableEq, Repr, Inhabited

namespace KeyBlob

/-! ## Text form -/

/-- The fields of the text form. -/
def schema : Json.Schema where
  name := "RsaKeyParameters"
  fields := [
    { name := "Modulus", kind := .text, mandatory := true },
    { name := "Exponent", kind := .text, mandatory := true },
    { name := "P", kind := .optionalText },
    { name := "Q", kind := .optionalText },
    { name := "DP", kind := .optionalText },
    { name := "DQ", kind := .optionalText },
    { name := "InverseQ", kind := .optionalText },
    { name := "D", kind := .optionalText }]

/-- The text of a member, if the member is there and holds one. -/
def text? (members : Json.Members) (name : String) : Option String :=
  match members.lookup name with
  | some (.text s) => some s
  | _ => none

/-- The blob with the given members; the mandatory ones are among them when they were read by the schema. -/
def ofMembers (members : Json.Members) : KeyBlob where
  modulus := (text? members "Modulus").getD ""
  exponent := (text? members "Exponent").getD ""
  p := text? members "P"
  q := text? members "Q"
  dp := text? members "DP"
  dq := text? members "DQ"
  inverseQ := text? members "InverseQ"
  d := text? members "D"

/-- A member that may be missing. -/
def optional (name : String) (value : Option String) : Json.Members :=
  match value with
  | some s => [(name, .text s)]
  | none => []

/-- The members that a blob has. -/
def members (b : KeyBlob) : Json.Members :=
  [("Modulus", .text b.modulus), ("Exponent", .text b.exponent)] ++ optional "P" b.p ++ optional "Q" b.q ++
    optional "DP" b.dp ++ optional "DQ" b.dq ++ optional "InverseQ" b.inverseQ ++ optional "D" b.d

/-- The blob that a text holds. -/
def parse (text : String) : Except Json.Fault KeyBlob := (Json.parseRecord schema text).map ofMembers

/-- The text of a blob, a line for each member that is there. -/
def render (b : KeyBlob) : String := Json.pretty b.members

/-- Whether a blob holds anything that only a private key has. -/
def hasPrivateParts (b : KeyBlob) : Bool :=
  b.d.isSome || b.p.isSome || b.q.isSome || b.dp.isSome || b.dq.isSome || b.inverseQ.isSome

/-- A blob as it is shown to developers, without its private parts. -/
def inspect (b : KeyBlob) : String :=
  let shown := [
    "modulus: " ++ Text.quoted b.modulus,
    "exponent: " ++ Text.quoted b.exponent,
    s!"has_private_parts: {b.hasPrivateParts}"]
  "RsaKeyParameters \x7b " ++ ", ".intercalate shown ++ " \x7d"

/-! ## Numbers -/

/-- The text of a number. -/
def writeNumber (n : Nat) : String :=
  String.ofList ((Base64.encode (Bytes.minimal n)).map fun b => Char.ofNat b.toNat)

/-- The number that a text holds, with white space around it or without. -/
def readNumber (field value : String) : Except KeyDefect Nat :=
  match Base64.decode (Bytes.ofText (String.ofList (Text.trim value.toList))) with
  | .error e => .error (.base64 field e)
  | .ok [] => .error (.empty field)
  | .ok bytes => .ok (Bytes.fromBigEndian bytes)

/-- The number of a field that must be there. -/
def requireNumber (field : String) (value : Option String) : Except KeyDefect Nat :=
  match value with
  | some s => readNumber field s
  | none => .error (.missing field)

/-- Whether a field, if it is there, holds the derived number. -/
def checkDerived (field : String) (value : Option String) (derived : Nat) : Except KeyDefect Unit :=
  match value with
  | none => .ok ()
  | some s =>
    match readNumber field s with
    | .error e => .error e
    | .ok n => if n = derived then .ok () else .error (.inconsistent field)

/-! ## Keys -/

/-- The blob of a public key. -/
def ofPublicKey (k : Rsa.PublicKey) : KeyBlob where
  modulus := writeNumber k.modulus
  exponent := writeNumber k.exponent

/-- The blob of a private key with two primes. -/
def ofPrivateKey (k : Rsa.PrivateKey) : Except KeyDefect KeyBlob :=
  match k.primes with
  | [_, _] =>
    match k.shortcut? with
    | none => .error (.noShortcut .invalidPrime)
    | some s => .ok {
        modulus := writeNumber k.modulus
        exponent := writeNumber k.exponent
        p := some (writeNumber s.p)
        q := some (writeNumber s.q)
        dp := some (writeNumber s.dp)
        dq := some (writeNumber s.dq)
        inverseQ := some (writeNumber s.qInverse)
        d := some (writeNumber k.privateExponent) }
  | _ => .error .notTwoPrimes

/-- The public key of a blob, whether or not the blob has private parts. -/
def toPublicKey (b : KeyBlob) : Except KeyDefect Rsa.PublicKey := do
  let modulus ← readNumber "Modulus" b.modulus
  let exponent ← readNumber "Exponent" b.exponent
  let k : Rsa.PublicKey := { modulus, exponent }
  match k.check (some Settings.maxKeyBits) with
  | .error e => .error (.publicRefused e)
  | .ok () => .ok k

/-- The private key of a blob whose derived numbers, as far as they are there, are right. -/
def toPrivateKey (b : KeyBlob) : Except KeyDefect Rsa.PrivateKey := do
  let n ← readNumber "Modulus" b.modulus
  let e ← readNumber "Exponent" b.exponent
  let d ← requireNumber "D" b.d
  let p ← requireNumber "P" b.p
  let q ← requireNumber "Q" b.q
  match Rsa.PrivateKey.ofComponents n e d [p, q] with
  | .error e => .error (.privateRefused e)
  | .ok k =>
    match k.shortcut? with
    | none => .error (.noShortcut .invalidPrime)
    | some s =>
      checkDerived "DP" b.dp s.dp
      checkDerived "DQ" b.dq s.dq
      checkDerived "InverseQ" b.inverseQ s.qInverse
      .ok k

end KeyBlob

/-! ## Keys as texts -/

/-- The text of a public key. -/
def Rsa.PublicKey.toText (k : Rsa.PublicKey) : String := (KeyBlob.ofPublicKey k).render

/-- The text of a private key. -/
def Rsa.PrivateKey.toText (k : Rsa.PrivateKey) : Except KeyFault String :=
  match KeyBlob.ofPrivateKey k with
  | .error e => .error (.invalid (.cause e))
  | .ok b => .ok b.render

/-- The public key that a text holds. -/
def Rsa.PublicKey.ofText (text : String) : Except KeyFault Rsa.PublicKey :=
  match KeyBlob.parse text with
  | .error e => .error (.form e)
  | .ok b =>
    match b.toPublicKey with
    | .error e => .error (.invalid (.cause e))
    | .ok k => .ok k

/-- The private key that a blob holds; a blob without private exponent holds none. -/
def Rsa.PrivateKey.ofBlob (b : KeyBlob) : Except KeyFault Rsa.PrivateKey :=
  if b.d = none then .error (.invalid (.cause .publicOnly))
  else
    match b.toPrivateKey with
    | .error e => .error (.invalid (.cause e))
    | .ok k => .ok k

/-- The private key that a text holds. -/
def Rsa.PrivateKey.ofText (text : String) : Except KeyFault Rsa.PrivateKey :=
  match KeyBlob.parse text with
  | .error e => .error (.form e)
  | .ok b => ofBlob b

end EnvelopeLog

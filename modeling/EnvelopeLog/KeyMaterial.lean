import EnvelopeLog.Cipher.Gcm
import EnvelopeLog.Entropy
import EnvelopeLog.Fault

/-!
# Key material

The key and the nonce that seal the payload of one frame and are never used for another.
-/

namespace EnvelopeLog

/-- A key and a nonce for one payload. -/
structure KeyMaterial where
  key : Bytes
  nonce : Bytes
deriving DecidableEq, Repr

namespace KeyMaterial

/-- The length of a key. -/
def keySize : Nat := 32

/-- The length of a nonce. -/
def nonceSize : Nat := 12

/-- Fresh key material. -/
def draw (entropy : Entropy) : KeyMaterial × Entropy :=
  let (key, entropy) := entropy.draw keySize
  let (nonce, entropy) := entropy.draw nonceSize
  ({ key, nonce }, entropy)

/-- Whether the key and the nonce have the lengths that the cipher needs. -/
def check (m : KeyMaterial) : Except CipherFault Unit :=
  if m.key.length ≠ keySize then .error (.keySize keySize m.key.length)
  else if m.nonce.length ≠ nonceSize then .error (.nonceSize nonceSize m.nonce.length)
  else .ok ()

/-- The cipher text of a payload. -/
def encrypt (m : KeyMaterial) (payload : Bytes) : Except CipherFault Bytes :=
  match m.check with
  | .error e => .error e
  | .ok () => .ok (Gcm.encrypt m.key m.nonce payload)

/-- The payload of a cipher text. -/
def decrypt (m : KeyMaterial) (cipherText : Bytes) : Except CipherFault Bytes :=
  if cipherText.length < Gcm.tagSize then .error (.malformed (.cause cipherText.length))
  else
    match m.check with
    | .error e => .error e
    | .ok () =>
      match Gcm.decrypt? m.key m.nonce cipherText with
      | some payload => .ok payload
      | none => .error .decryption

/-- Secret bytes as they are shown to developers: only how many there are. -/
def inspectSecret (secret : Bytes) : String := s!"ZeroizingVec([REDACTED; {secret.length}])"

/-- Key material as it is shown to developers, without the key. -/
def inspect (m : KeyMaterial) : String :=
  let nonce := ", ".intercalate (m.nonce.map fun b => s!"{b}")
  "SymmetricKeyMaterial \x7b key: " ++ inspectSecret m.key ++ ", nonce: [" ++ nonce ++ "] \x7d"

end KeyMaterial

end EnvelopeLog

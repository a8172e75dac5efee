import EnvelopeLog.Frame
import EnvelopeLog.KeyMaterial
import EnvelopeLog.Rsa.Oaep

/-!
# Envelopes

A payload is sealed for a recipient: fresh key material encrypts the payload, and the recipient's public key wraps the key.
What is needed to open the frame again is the private key alone. A seal draws 32 bytes of key, 12 bytes of nonce and, if the
recipient's modulus leaves room for the key, 32 bytes of seed, in that order; opening draws nothing.
-/

namespace EnvelopeLog

/-- The ciphertext of a short message for the owner of a public key; a message that does not fit draws no seed. -/
def Rsa.PublicKey.wrap (k : Rsa.PublicKey) (message : Bytes) (entropy : Entropy) : Except KeyFault Bytes × Entropy :=
  if k.Fits message.length then
    let (seed, entropy) := entropy.draw Rsa.Oaep.seedSize
    (.ok (k.encrypt seed message), entropy)
  else (.error (.encryption .messageTooLong), entropy)

/-- The message of a ciphertext. -/
def Rsa.PrivateKey.unwrap (k : Rsa.PrivateKey) (cipherText : Bytes) : Except KeyFault Bytes :=
  (k.decrypt cipherText).mapError .decryption

/-- The frame that holds a payload for a recipient. -/
def sealFrame (recipient : Rsa.PublicKey) (payload : Bytes) (entropy : Entropy) : Except Fault Frame × Entropy :=
  let (material, entropy) := KeyMaterial.draw entropy
  match material.encrypt payload with
  | .error e => (.error (.cipher e), entropy)
  | .ok cipherText =>
    match recipient.wrap material.key entropy with
    | (.error e, entropy) => (.error (.rsa e), entropy)
    | (.ok wrappedKey, entropy) => (.ok { wrappedKey, nonce := material.nonce, cipherText }, entropy)

/-- The payload of a frame. Whatever is wrong with the wrapped key is a key mismatch, and whatever is wrong with the rest a
failed authentication. -/
def openFrame (k : Rsa.PrivateKey) (f : Frame) : Except Fault Bytes :=
  match k.unwrap f.wrappedKey with
  | .error e => .error (.keyMismatch (.cause (.refused e)))
  | .ok key =>
    if key.length ≠ KeyMaterial.keySize then
      .error (.keyMismatch (.cause (.length key.length KeyMaterial.keySize)))
    else
      let material : KeyMaterial := { key, nonce := f.nonce }
      match material.decrypt f.cipherText with
      | .error _ => .error .payloadAuthentication
      | .ok payload => .ok payload

end EnvelopeLog

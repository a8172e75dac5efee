import EnvelopeLog.Digest.Sha256
import EnvelopeLog.Rsa.Key

/-!
# Encryption with optimal asymmetric padding

A message is padded to the size of the modulus: a zero byte, a masked seed of 32 bytes and a masked block that holds the
digest of the empty label, zeros, a one byte and the message. The masks are SHA-256 digests of the other part. So a message
fits a key if it leaves 66 bytes, and a ciphertext has always the size of the modulus.
-/

namespace EnvelopeLog.Rsa

namespace Oaep

/-- The length of the seed and of a digest. -/
def seedSize : Nat := 32

/-- The bytes that padding takes at least: a zero byte, the seed, the digest of the label and a one byte. -/
def overhead : Nat := 66

/-- The digest of the empty label. -/
def labelDigest : Bytes := Sha256.hash []

/-- The first `length` bytes of the digests of the seed followed by a counter of four bytes. -/
def maskOf (seed : Bytes) (length : Nat) : Bytes :=
  ((List.range ((length + 31) / 32)).flatMap fun i => Sha256.hash (seed ++ Bytes.bigEndian 4 i)).take length

/-- A message padded to `size` bytes with a seed. -/
def pad (size : Nat) (seed message : Bytes) : Bytes :=
  let block := labelDigest ++ List.replicate (size - message.length - overhead) 0 ++ 1 :: message
  let masked := Bytes.mask block (maskOf seed block.length)
  0 :: Bytes.mask seed (maskOf masked seedSize) ++ masked

/-- What follows the zeros and the one byte that separate a message from the digest. -/
def afterSeparator? : Bytes → Option Bytes
  | [] => none
  | b :: rest => if b = 0 then afterSeparator? rest else if b = 1 then some rest else none

/-- The message of a padded string of at least 66 bytes, if the padding is whole. -/
def unpad? (padded : Bytes) : Option Bytes :=
  match padded with
  | [] => none
  | first :: rest =>
    if padded.length < overhead then none
    else
      let masked := rest.drop seedSize
      let seed := Bytes.mask (rest.take seedSize) (maskOf masked seedSize)
      let block := Bytes.mask masked (maskOf seed masked.length)
      if first = 0 ∧ block.take seedSize = labelDigest then afterSeparator? (block.drop seedSize) else none

end Oaep

/-- Whether a message of the given length can be encrypted under the key. -/
def PublicKey.Fits (k : PublicKey) (length : Nat) : Prop := length + Oaep.overhead ≤ k.size

instance (k : PublicKey) (length : Nat) : Decidable (k.Fits length) := inferInstanceAs (Decidable (_ ≤ _))

/-- The number `m ^ e` modulo the modulus. -/
def PublicKey.raise (k : PublicKey) (m : Nat) : Nat := power m k.exponent k.modulus

/-- The ciphertext of a message under a key and a seed. -/
def PublicKey.encrypt (k : PublicKey) (seed message : Bytes) : Bytes :=
  Bytes.bigEndian k.size (k.raise (Bytes.fromBigEndian (Oaep.pad k.size seed message)))

/-- The number `c ^ d` modulo the modulus, computed modulo each prime where the key allows it. -/
def PrivateKey.lower (k : PrivateKey) (c : Nat) : Nat :=
  match k.shortcut? with
  | some s =>
    let m₁ := power c s.dp s.p
    let m₂ := power c s.dq s.q
    m₂ + (((m₁ : Int) - m₂) * s.qInverse % s.p).toNat * s.q
  | none => power c k.privateExponent k.modulus

/-- The message of a ciphertext. The ciphertext must have the size of the modulus and stay below it, the number found must
encrypt to it again, and the padding must be whole. -/
def PrivateKey.decrypt (k : PrivateKey) (cipherText : Bytes) : Except Refusal Bytes :=
  let c := Bytes.fromBigEndian cipherText
  if cipherText.length ≠ k.size ∨ k.modulus ≤ c then .error .undecipherable
  else
    let m := k.lower c
    if k.raise m ≠ c then .error .inconsistent
    else
      match Oaep.unpad? (Bytes.bigEndian k.size m) with
      | some message => .ok message
      | none => .error .undecipherable

end EnvelopeLog.Rsa

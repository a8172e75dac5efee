import EnvelopeLog.Cipher.Aes

/-!
# Galois counter mode

A plaintext is masked with a keystream, the encryption of successive counter blocks, and followed by a tag of sixteen
bytes. The tag is a polynomial over the field of `2 ^ 128` elements whose coefficients are the blocks of the ciphertext and
its length, evaluated at a secret point and masked with one more keystream block. Opening recomputes the tag and returns a
plaintext only if it agrees.
-/

namespace EnvelopeLog.Gcm

/-- The length of a tag in bytes. -/
def tagSize : Nat := 16

/-! ## The field -/

/-- An element of the field of `2 ^ 128` elements; its highest bit is the coefficient of `1`, its lowest that of `x ^ 127`. -/
abbrev Element := BitVec 128

/-- The element whose bits are the bytes, followed by zeros up to sixteen bytes. -/
def Element.ofBytes (b : Bytes) : Element :=
  BitVec.ofNat 128 (Bytes.fromBigEndian b <<< (8 * (16 - b.length)))

/-- The sixteen bytes of an element. -/
def Element.bytes (x : Element) : Bytes := Bytes.bigEndian 16 x.toNat

/-- The product with `x`, where `x ^ 128 = x ^ 7 + x ^ 2 + x + 1`. -/
def timesX (v : Element) : Element :=
  (v >>> 1) ^^^ (if v.getLsbD 0 then 0xe1#128 <<< 120 else 0#128)

/-- The product in the field, by the coefficients of the first factor from the highest power down. -/
def times (u v : Element) : Element :=
  (List.range 128).foldl (fun p i => timesX p ^^^ (if u.getLsbD i then v else 0#128)) 0#128

/-- The polynomial without constant term that has the given coefficients, the highest power first, at a point. -/
def evaluate (point : Element) (coefficients : List Element) : Element :=
  coefficients.foldl (fun y c => times (y ^^^ c) point) 0#128

/-! ## Counter mode -/

/-- The keystream block of a counter: the encryption of the nonce followed by the counter in four bytes. -/
def keystreamBlock (keys : List Aes.Block) (nonce : Bytes) (counter : Nat) : Bytes :=
  (Aes.encrypt keys (Aes.Block.ofBytes (nonce ++ Bytes.bigEndian 4 counter))).toList

/-- The first `blocks` keystream blocks for data; the counter 1 is kept for the tag. -/
def keystream (keys : List Aes.Block) (nonce : Bytes) (blocks : Nat) : Bytes :=
  (List.range blocks).flatMap fun i => keystreamBlock keys nonce (i + 2)

/-- The data masked with the keystream; masking twice gives the data back. -/
def transcode (keys : List Aes.Block) (nonce data : Bytes) : Bytes :=
  Bytes.mask data (keystream keys nonce ((data.length + 15) / 16))

/-! ## The tag -/

/-- The point at which tags are evaluated, the encryption of the zero block. -/
def hashPoint (keys : List Aes.Block) : Element :=
  Element.ofBytes (Aes.encrypt keys (Aes.Block.ofBytes [])).toList

/-- The coefficients that a ciphertext gives: its blocks, the last one padded with zeros, and its length in bits. -/
def coefficients (cipherText : Bytes) : List Element :=
  (Bytes.slices 16 cipherText).map Element.ofBytes ++ [BitVec.ofNat 128 (8 * cipherText.length % 0x10000000000000000)]

/-- The tag of a ciphertext. -/
def tag (keys : List Aes.Block) (nonce cipherText : Bytes) : Bytes :=
  Bytes.mask (Element.bytes (evaluate (hashPoint keys) (coefficients cipherText))) (keystreamBlock keys nonce 1)

/-! ## Sealing and opening -/

/-- The masked plaintext followed by its tag. -/
def encrypt (key nonce plaintext : Bytes) : Bytes :=
  let keys := Aes.roundKeys key
  let masked := transcode keys nonce plaintext
  masked ++ tag keys nonce masked

/-- The plaintext of a ciphertext whose last sixteen bytes are the tag of the rest. -/
def decrypt? (key nonce cipherText : Bytes) : Option Bytes :=
  let keys := Aes.roundKeys key
  let masked := cipherText.take (cipherText.length - tagSize)
  if cipherText.drop (cipherText.length - tagSize) = tag keys nonce masked then
    some (transcode keys nonce masked)
  else none

end EnvelopeLog.Gcm

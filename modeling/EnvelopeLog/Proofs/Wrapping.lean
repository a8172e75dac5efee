import EnvelopeLog.Envelope
import EnvelopeLog.Proofs.Rsa.Oaep
import EnvelopeLog.Proofs.Rsa.Prime

/-!
# Wrapped keys

Whoever has the public half of a key can wrap a message exactly if it leaves 66 bytes of the modulus free, and what the
message is wrapped in has always the size of the modulus. Under a private key that a text holds, and whose primes are primes,
unwrapping gives back the message, whatever seed was drawn (`unwrap_wrap`).
-/

namespace EnvelopeLog

/-! ## Seeds -/

/-- Every byte string is drawn from some sequence of random bytes. -/
theorem Entropy.draw_cycle (seed : Bytes) : ((Entropy.cycle seed).draw seed.length).1 = seed := by
  refine List.ext_getElem (by simp [draw, range]) fun i hi hi' => ?_
  simp [draw, range, cycle, Nat.mod_eq_of_lt hi', hi']

namespace Rsa

/-- The size of a key is that of its modulus in bits, rounded up to bytes. -/
theorem PublicKey.size_eq {k : PublicKey} (h : 0 < k.modulus) : k.size = (bitLength k.modulus + 7) / 8 := by
  rw [size, Bytes.widthOf, bitLength, if_neg (by omega)]
  omega

/-! ## Wrapping -/

namespace PublicKey

variable {k : PublicKey} {message : Bytes}

/-- A message that fits is encrypted with a seed drawn for it. -/
theorem wrap_of_fits (h : k.Fits message.length) (entropy : Entropy) :
    (k.wrap message entropy).1 = .ok (k.encrypt (entropy.draw Oaep.seedSize).1 message) := by
  rw [wrap, if_pos h]

/-- A message that does not fit is refused. -/
theorem wrap_of_not_fits (h : ¬k.Fits message.length) (entropy : Entropy) :
    (k.wrap message entropy).1 = .error (.encryption .messageTooLong) := by
  rw [wrap, if_neg h]

/-- A message is wrapped with the next bytes as seed, exactly if it fits. -/
theorem wrap_eq_ok_iff {entropy : Entropy} {cipherText : Bytes} :
    (k.wrap message entropy).1 = .ok cipherText ↔
      k.Fits message.length ∧ cipherText = k.encrypt (entropy.draw Oaep.seedSize).1 message := by
  by_cases hfits : k.Fits message.length
  · rw [wrap_of_fits hfits, Except.ok.injEq]
    exact ⟨fun h => ⟨hfits, h.symm⟩, fun h => h.2.symm⟩
  · rw [wrap_of_not_fits hfits]
    exact ⟨nofun, fun h => absurd h.1 hfits⟩

end PublicKey

end Rsa

/-! ## A key with known primes -/

namespace KeyBlob

/-- A field whose characters are the written form of the shortest bytes of a number holds the number. -/
theorem readNumber_ofList (field : String) {letters : List Char} {n : Nat}
    (h : Base64.decode (Bytes.ofText (String.ofList (Text.trim letters))) = .ok (Bytes.minimal n)) :
    readNumber field (String.ofList letters) = .ok n := by
  have hlength : 0 < (Bytes.minimal n).length := by
    rw [Bytes.minimal, Bytes.bigEndian_length, Bytes.widthOf]
    omega
  obtain ⟨b, rest, hminimal⟩ := List.exists_cons_of_length_pos hlength
  have hnumber : Bytes.fromBigEndian (b :: rest) = n := by
    rw [← hminimal, Bytes.minimal, Bytes.fromBigEndian_bigEndian (Bytes.lt_pow_widthOf n)]
  rw [readNumber, String.toList_ofList, h, hminimal]
  exact congrArg Except.ok hnumber

/-- A text whose characters are read as members holds the blob of the members. -/
theorem parse_ofList {letters : List Char} {members : Json.Members} (h : Json.readRecord schema letters = .ok members) :
    parse (String.ofList letters) = .ok (ofMembers members) := by
  simp only [parse, Json.parseRecord, String.toList_ofList, h, Except.map]

end KeyBlob

namespace Sample

/-- A private key with a modulus of 100 bytes. -/
def key : Rsa.PrivateKey where
  modulus := (3 * 2 ^ 438 + 1) * (3 * 2 ^ 353 + 1)
  exponent := 5
  privateExponent := (6 * 2 ^ 438 + 1) / 5
  primes := [3 * 2 ^ 438 + 1, 3 * 2 ^ 353 + 1]

/-- The modulus of the key has 100 bytes. -/
theorem size_key : key.size = 100 := by decide +kernel

/-- The key has room for the key of a payload. -/
theorem fits_key : key.toPublicKey.Fits KeyMaterial.keySize := by
  have hlarge : 98 ≤ key.size := by rw [size_key]; decide
  exact hlarge

/-- The length of a wrapped key fits the bytes before it. -/
theorem size_key_lt : key.toPublicKey.size < 256 ^ Frame.lengthSize := by
  have hsmall : key.size < 256 ^ Frame.lengthSize := by rw [size_key]; decide
  exact hsmall

/-- The primes of the key are primes, as the powers of five show. -/
theorem prime_of_mem : ∀ p ∈ key.primes, p.Prime := by
  have hpowers : ∀ n ∈ [438, 353], Rsa.power 5 (3 * 2 ^ n) (3 * 2 ^ n + 1) = 1 ∧
      ∀ q ∈ [2, 3], Rsa.power 5 (3 * 2 ^ n / q) (3 * 2 ^ n + 1) ≠ 1 := by
    decide +kernel
  rw [List.forall_mem_cons, List.forall_mem_singleton] at hpowers
  obtain ⟨⟨hp, hpparts⟩, hq, hqparts⟩ := hpowers
  exact List.forall_mem_cons.mpr ⟨Rsa.prime_of_power_three_two 5 438 hp hpparts,
    List.forall_mem_singleton.mpr (Rsa.prime_of_power_three_two 5 353 hq hqparts)⟩

/-- The modulus, the exponents and the primes of the key in base 64. -/
def modulus : List Char :=
  ['B', 'I'] ++ .replicate 58 'A' ++ ['w'] ++ .replicate 13 'A' ++ ['Y'] ++ .replicate 58 'A' ++ ['Q', '=', '=']

@[inherit_doc modulus] def exponent : List Char := ['B', 'Q', '=', '=']

@[inherit_doc modulus] def privateExponent : List Char :=
  ['T'] ++ (List.replicate 36 ['M', 'z']).flatten ++ ['Q', '=', '=']

@[inherit_doc modulus] def p : List Char := ['w'] ++ .replicate 72 'A' ++ ['Q', '=', '=']

@[inherit_doc modulus] def q : List Char := ['B', 'g'] ++ .replicate 57 'A' ++ ['B']

/-- The members of the key. -/
def blob : KeyBlob where
  modulus := String.ofList modulus
  exponent := String.ofList exponent
  p := some (String.ofList p)
  q := some (String.ofList q)
  d := some (String.ofList privateExponent)

/-- The characters of the text of the key. -/
def letters : List Char :=
  let member (name : String) (value : List Char) := ['"'] ++ name.toList ++ ['"', ':', '"'] ++ value ++ ['"']
  ['\x7b'] ++ member "Modulus" modulus ++ [','] ++ member "Exponent" exponent ++ [','] ++ member "P" p ++ [','] ++
    member "Q" q ++ [','] ++ member "D" privateExponent ++ ['\x7d']

/-- The text of the key. -/
def text : String := String.ofList letters

theorem toPrivateKey_blob : blob.toPrivateKey = .ok key := by
  have hwritten : ∀ field ∈ [(modulus, key.modulus), (exponent, key.exponent), (privateExponent, key.privateExponent),
      (p, 3 * 2 ^ 438 + 1), (q, 3 * 2 ^ 353 + 1)],
      Base64.decode (Bytes.ofText (String.ofList (Text.trim field.1))) = .ok (Bytes.minimal field.2) := by
    decide +kernel
  simp only [List.forall_mem_cons] at hwritten
  obtain ⟨hmodulus, hexponent, hd, hp, hq, -⟩ := hwritten
  have hmodulus : KeyBlob.readNumber "Modulus" (String.ofList modulus) = .ok key.modulus :=
    KeyBlob.readNumber_ofList "Modulus" hmodulus
  have hexponent : KeyBlob.readNumber "Exponent" (String.ofList exponent) = .ok key.exponent :=
    KeyBlob.readNumber_ofList "Exponent" hexponent
  have hd : KeyBlob.readNumber "D" (String.ofList privateExponent) = .ok key.privateExponent :=
    KeyBlob.readNumber_ofList "D" hd
  have hp : KeyBlob.readNumber "P" (String.ofList p) = .ok (3 * 2 ^ 438 + 1) :=
    KeyBlob.readNumber_ofList "P" hp
  have hq : KeyBlob.readNumber "Q" (String.ofList q) = .ok (3 * 2 ^ 353 + 1) :=
    KeyBlob.readNumber_ofList "Q" hq
  simp only [KeyBlob.toPrivateKey, blob, KeyBlob.requireNumber, hmodulus, hexponent, hd, hp, hq]
  decide +kernel

theorem parse_text : KeyBlob.parse text = .ok blob := by
  have hread : Json.readRecord KeyBlob.schema letters = .ok blob.members := by decide +kernel
  have hmembers : KeyBlob.ofMembers blob.members = blob := rfl
  rw [text, KeyBlob.parse_ofList hread, hmembers]

theorem ofText_text : Rsa.PrivateKey.ofText text = .ok key := by
  rw [Rsa.PrivateKey.ofText, parse_text]
  dsimp only
  rw [Rsa.PrivateKey.ofBlob, toPrivateKey_blob]
  rfl

/-- The bits of the modulus fill 100 bytes. -/
theorem bitLength_key : (bitLength key.modulus + 7) / 8 = 100 := by
  obtain ⟨shortcut, hsound⟩ := Rsa.PrivateKey.sound_of_ofText ofText_text
  exact (Rsa.PublicKey.size_eq (k := key.toPublicKey) hsound.modulus_pos).symm.trans size_key

/-- The modulus is no larger than that of a key that may be imported. -/
theorem bitLength_key_le : bitLength key.modulus ≤ Settings.maxKeyBits := by
  have hbits := bitLength_key
  rw [show Settings.maxKeyBits = 4096 from rfl]
  omega

end Sample

/-! ## Unwrapping -/

namespace Rsa.PrivateKey

/-- Under a key that a text holds, and whose primes are primes, a message is wrapped exactly if it leaves 66 bytes, in as many
bytes as the modulus has, and is unwrapped again, whatever the seed. -/
theorem unwrap_wrap {text : String} {k : PrivateKey} (hk : ofText text = .ok k) (hprime : ∀ p ∈ k.primes, p.Prime)
    (message : Bytes) {seed : Bytes} (hseed : seed.length = 32) :
    (∃ entropy : Entropy, (entropy.draw Oaep.seedSize).1 = seed) ∧
      ∀ entropy : Entropy, (entropy.draw Oaep.seedSize).1 = seed →
        ((∃ c, (k.toPublicKey.wrap message entropy).1 = .ok c) ↔
          message.length + 66 ≤ (bitLength k.modulus + 7) / 8) ∧
        ∀ c, (k.toPublicKey.wrap message entropy).1 = .ok c →
          c = k.encrypt seed message ∧ c.length = (bitLength k.modulus + 7) / 8 ∧ k.unwrap c = .ok message := by
  obtain ⟨s, hsound⟩ := sound_of_ofText hk
  have hsize : k.size = (bitLength k.modulus + 7) / 8 := PublicKey.size_eq hsound.modulus_pos
  have hfits : k.Fits message.length ↔ message.length + 66 ≤ (bitLength k.modulus + 7) / 8 := by
    rw [PublicKey.Fits, hsize, Oaep.overhead]
  have hdrawn : ((Entropy.cycle seed).draw Oaep.seedSize).1 = seed := by
    rw [Oaep.seedSize, ← hseed]
    exact Entropy.draw_cycle seed
  refine ⟨⟨Entropy.cycle seed, hdrawn⟩, fun entropy hdraw => ⟨?_, fun c hc => ?_⟩⟩
  · rw [← hfits]
    constructor
    · rintro ⟨c, hc⟩
      exact (PublicKey.wrap_eq_ok_iff.mp hc).1
    · intro h
      exact ⟨_, PublicKey.wrap_of_fits h entropy⟩
  · obtain ⟨h, rfl⟩ := PublicKey.wrap_eq_ok_iff.mp hc
    rw [hdraw]
    refine ⟨rfl, (PublicKey.encrypt_length _ _ _).trans hsize, ?_⟩
    rw [unwrap, hsound.decrypt_encrypt hprime h hseed]
    rfl

/-- The longest message that can be wrapped for the key. -/
theorem unwrap_wrap_sample :
    ofText Sample.text = .ok Sample.key ∧ (List.replicate 32 (7 : UInt8)).length = 32 ∧
      ∃ c, (Sample.key.toPublicKey.wrap (List.replicate 34 1) (Entropy.cycle [7])).1 = .ok c ∧ c.length = 100 ∧
        Sample.key.unwrap c = .ok (List.replicate 34 1) := by
  obtain ⟨-, hall⟩ := unwrap_wrap Sample.ofText_text Sample.prime_of_mem (List.replicate 34 1)
    (show (List.replicate 32 (7 : UInt8)).length = 32 from rfl)
  have hwidth := Sample.bitLength_key
  obtain ⟨hiff, hwrapped⟩ := hall (Entropy.cycle [7]) (by decide)
  obtain ⟨c, hc⟩ := hiff.mpr (by rw [hwidth]; decide)
  obtain ⟨-, hlength, hunwrap⟩ := hwrapped c hc
  exact ⟨Sample.ofText_text, rfl, c, hc, hlength.trans hwidth, hunwrap⟩

end Rsa.PrivateKey

end EnvelopeLog

import EnvelopeLog.LogFile
import EnvelopeLog.Proofs.KeyBlob.Export

/-!
# Private texts as public ones

A text that holds a private key holds its public half too, and so does the exported text of that half, as long as the modulus
has no more bits than a public key may have (`ofText_of_privateText`). Private keys are not held to that limit, so there are
private texts that are no public ones (`oversized_privateText`).
-/

namespace EnvelopeLog

namespace Rsa

/-- A key as it is read where a public key is expected: it is refused if it is too large. -/
def PublicKey.admitted (k : PublicKey) : Except KeyFault PublicKey :=
  if bitLength k.modulus ≤ Settings.maxKeyBits then .ok k
  else .error (.invalid (.cause (.publicRefused .modulusTooLarge)))

/-- The examination of a key that is proper looks at its size only. -/
theorem PublicKey.Proper.check_eq {k : PublicKey} (h : k.Proper) (most : Nat) :
    k.check (some most) = if bitLength k.modulus ≤ most then .ok () else .error .modulusTooLarge := by
  by_cases hsize : bitLength k.modulus ≤ most
  · rw [if_pos hsize, check_eq_ok_iff]
    exact ⟨by simpa using hsize, h⟩
  · rw [if_neg hsize, check, if_pos (by simpa using hsize)]

/-- A text that shows a proper key is read as the key, unless the key is too large. -/
theorem PublicKey.ofText_of_shows {text : String} {b : KeyBlob} {k : PublicKey} (hparse : KeyBlob.parse text = .ok b)
    (hn : KeyBlob.Shows b.modulus k.modulus) (he : KeyBlob.Shows b.exponent k.exponent) (hproper : k.Proper) :
    ofText text = k.admitted := by
  have hkey := KeyBlob.toPublicKey_of_shows hn he
  rw [hproper.check_eq] at hkey
  rw [ofText, hparse, admitted]
  dsimp only
  by_cases hsize : bitLength k.modulus ≤ Settings.maxKeyBits
  · rw [hkey, if_pos hsize, if_pos hsize]
    rfl
  · rw [hkey, if_neg hsize, if_neg hsize]
    rfl

/-- The text of a proper key is read as the key, unless the key is not admitted. -/
theorem PublicKey.ofText_toText_of_proper {k : PublicKey} (h : k.Proper) : ofText k.toText = k.admitted :=
  ofText_of_shows (KeyBlob.parse_render _) (KeyBlob.shows_writeNumber k.modulus) (KeyBlob.shows_writeNumber k.exponent) h

/-- A text that holds a private key, and the exported text of its public half, are read as the public half, unless the key is
too large; and so is a file that holds the text. -/
theorem PublicKey.ofText_of_privateText {text : String} {k : PrivateKey} (h : PrivateKey.ofText text = .ok k) :
    ofText text = k.toPublicKey.admitted ∧ ofText k.toPublicKey.toText = k.toPublicKey.admitted ∧
      ∀ fs path, fs.readText path = .ok text → loadPrivateKey fs path = .ok k ∧
        loadPublicKey fs path = k.toPublicKey.admitted.mapError fun e => .library (.key (.cause e)) := by
  obtain ⟨b, hparse, hn, he, hproper⟩ := PrivateKey.shows_of_ofText h
  have htext := ofText_of_shows hparse hn he hproper
  refine ⟨htext, ofText_toText_of_proper hproper, fun fs path hread => ⟨?_, ?_⟩⟩
  · rw [loadPrivateKey, hread]
    dsimp only
    rw [h]
    rfl
  · rw [loadPublicKey, hread]
    dsimp only
    rw [htext]

/-- The public half of a key of 792 bits. -/
theorem PublicKey.ofText_of_privateText_sample :
    PrivateKey.ofText Sample.text = .ok Sample.key ∧ PublicKey.ofText Sample.text = .ok Sample.key.toPublicKey ∧
      PublicKey.ofText Sample.key.toPublicKey.toText = .ok Sample.key.toPublicKey := by
  have hadmitted : Sample.key.toPublicKey.admitted = .ok Sample.key.toPublicKey := if_pos Sample.bitLength_key_le
  obtain ⟨htext, hexported, -⟩ := PublicKey.ofText_of_privateText Sample.ofText_text
  exact ⟨Sample.ofText_text, htext.trans hadmitted, hexported.trans hadmitted⟩

end Rsa

/-! ## A key that is too large -/

namespace Oversized

/-- A private key with a modulus of 4098 bits. -/
def key : Rsa.PrivateKey where
  modulus := (2 ^ 2049 + 1) * (2 ^ 2048 + 1)
  exponent := 3
  privateExponent := (2 ^ 2049 + 1) / 3
  primes := [2 ^ 2049 + 1, 2 ^ 2048 + 1]

/-- The members of the key. -/
def blob : KeyBlob where
  modulus := KeyBlob.writeNumber key.modulus
  exponent := KeyBlob.writeNumber key.exponent
  p := some (KeyBlob.writeNumber (2 ^ 2049 + 1))
  q := some (KeyBlob.writeNumber (2 ^ 2048 + 1))
  d := some (KeyBlob.writeNumber key.privateExponent)

theorem consistent :
    Rsa.Consistent key.modulus key.exponent key.privateExponent (2 ^ 2049 + 1) (2 ^ 2048 + 1) where
  modulus_odd := by decide +kernel
  exponent_lt := by decide +kernel
  exponent_odd := rfl
  three_le := Nat.le_refl 3
  exponent_le := by decide
  one_lt_p := by decide +kernel
  one_lt_q := by decide +kernel
  product := rfl
  exponents_p := by decide +kernel
  exponents_q := by decide +kernel
  invertible := ⟨2, by decide +kernel⟩

theorem holds :
    blob.Holds key.modulus key.exponent key.privateExponent (2 ^ 2049 + 1) (2 ^ 2048 + 1) :=
  ⟨KeyBlob.shows_writeNumber _, KeyBlob.shows_writeNumber _, ⟨_, rfl, KeyBlob.shows_writeNumber _⟩,
    ⟨_, rfl, KeyBlob.shows_writeNumber _⟩, ⟨_, rfl, KeyBlob.shows_writeNumber _⟩, nofun, nofun, nofun⟩

theorem ofText_blob : Rsa.PrivateKey.ofText blob.render = .ok key :=
  Rsa.PrivateKey.ofText_eq_ok_iff.mpr ⟨blob, KeyBlob.parse_render blob,
    Rsa.PrivateKey.ofBlob_eq_ok_iff_holds.mpr ⟨_, _, _, _, _, holds, consistent, rfl⟩⟩

/-- Its public half is not admitted, for its modulus is too large. -/
theorem not_admitted : key.toPublicKey.admitted = .error (.invalid (.cause (.publicRefused .modulusTooLarge))) :=
  if_neg (by decide +kernel)

end Oversized

namespace Rsa.PublicKey

/-- The text of a private key of 4098 bits, and the exported text of its public half, are refused as public ones. -/
theorem oversized_privateText :
    PrivateKey.ofText Oversized.blob.render = .ok Oversized.key ∧
      ofText Oversized.blob.render = .error (.invalid (.cause (.publicRefused .modulusTooLarge))) ∧
      ofText Oversized.key.toPublicKey.toText = .error (.invalid (.cause (.publicRefused .modulusTooLarge))) := by
  have hproper : Oversized.key.toPublicKey.Proper := Oversized.consistent.proper
  refine ⟨Oversized.ofText_blob, ?_, ?_⟩
  · rw [ofText_of_shows (KeyBlob.parse_render _) Oversized.holds.shows_n Oversized.holds.shows_e hproper]
    exact Oversized.not_admitted
  · rw [ofText_toText_of_proper hproper]
    exact Oversized.not_admitted

end Rsa.PublicKey

end EnvelopeLog

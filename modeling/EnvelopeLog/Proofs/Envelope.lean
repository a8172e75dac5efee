import EnvelopeLog.Envelope
import EnvelopeLog.Proofs.Cipher.Gcm
import EnvelopeLog.Proofs.Frame
import EnvelopeLog.Proofs.Rsa.Oaep

/-!
# Sealing and opening of frames

A `Sealing` is all that a frame is made of: payload, key, nonce and seed, of the lengths that a seal draws. A seal makes the
frame of a sealing, and fails only if the modulus leaves no room for the key (`sealFrame_eq`). Under a sound key a frame
opens only if it is the frame of a sealing of what is found (`eq_frame_of_openFrame`), and if the primes are primes it opens
exactly then (`openFrame_eq_ok_iff`).
-/

namespace EnvelopeLog

/-- What a frame is made of: a payload, the key and the nonce that encrypt it, and the seed with which the key is wrapped. -/
structure Sealing where
  payload : Bytes
  key : Bytes
  nonce : Bytes
  seed : Bytes
  key_length : key.length = KeyMaterial.keySize
  nonce_length : nonce.length = KeyMaterial.nonceSize
  seed_length : seed.length = Rsa.Oaep.seedSize

namespace Sealing

/-- The frame that a sealing makes for a recipient. -/
def frame (recipient : Rsa.PublicKey) (s : Sealing) : Frame where
  wrappedKey := recipient.encrypt s.seed s.key
  nonce := s.nonce
  cipherText := Gcm.encrypt s.key s.nonce s.payload

/-- The sealing of a payload with the next random bytes. -/
def draw (payload : Bytes) (entropy : Entropy) : Sealing where
  payload := payload
  key := entropy.range entropy.drawn KeyMaterial.keySize
  nonce := entropy.range (entropy.drawn + KeyMaterial.keySize) KeyMaterial.nonceSize
  seed := entropy.range (entropy.drawn + KeyMaterial.keySize + KeyMaterial.nonceSize) Rsa.Oaep.seedSize
  key_length := by simp [Entropy.range]
  nonce_length := by simp [Entropy.range]
  seed_length := by simp [Entropy.range]

variable (recipient : Rsa.PublicKey) (s : Sealing)

@[simp] theorem frame_nonce_length : (s.frame recipient).nonce.length = KeyMaterial.nonceSize := s.nonce_length

@[simp] theorem frame_wrappedKey_length : (s.frame recipient).wrappedKey.length = recipient.size :=
  recipient.encrypt_length s.seed s.key

@[simp] theorem frame_cipherText_length :
    (s.frame recipient).cipherText.length = s.payload.length + Gcm.tagSize :=
  Gcm.encrypt_length s.key s.nonce s.payload

theorem fitting : KeyMaterial.Fitting { key := s.key, nonce := s.nonce } := ⟨s.key_length, s.nonce_length⟩

end Sealing

/-! ## Sealing -/

/-- A seal makes the frame of the sealing with the next random bytes, if the modulus leaves room for the key; if it does not,
no seed is drawn. -/
theorem sealFrame_eq (recipient : Rsa.PublicKey) (payload : Bytes) (entropy : Entropy) :
    sealFrame recipient payload entropy =
      if recipient.Fits KeyMaterial.keySize then
        (.ok ((Sealing.draw payload entropy).frame recipient), { entropy with drawn := entropy.drawn + 76 })
      else (.error (.rsa (.encryption .messageTooLong)), { entropy with drawn := entropy.drawn + 44 }) := by
  have hencrypt : (KeyMaterial.draw entropy).1.encrypt payload = .ok (Gcm.encrypt
      (Sealing.draw payload entropy).key (Sealing.draw payload entropy).nonce payload) :=
    KeyMaterial.encrypt_of_fitting (Sealing.draw payload entropy).fitting payload
  have hkey : (KeyMaterial.draw entropy).1.key.length = KeyMaterial.keySize :=
    (Sealing.draw payload entropy).key_length
  unfold sealFrame
  simp only [hencrypt, Rsa.PublicKey.wrap, hkey]
  by_cases hroom : recipient.Fits KeyMaterial.keySize
  · simp only [if_pos hroom]
    rfl
  · simp only [if_neg hroom]
    rfl

/-- Whether bytes are the encoding of a frame that a seal makes of a payload with random bytes from a sequence. -/
def Sealed (recipient : Rsa.PublicKey) (byte : Nat → UInt8) (payload encoding : Bytes) : Prop :=
  ∃ drawn f, (sealFrame recipient payload { byte, drawn }).1 = .ok f ∧ f.encode = .ok encoding

/-- A frame that was sealed has at least the bytes of its length fields. -/
theorem Sealed.ne_nil {recipient : Rsa.PublicKey} {byte : Nat → UInt8} {payload encoding : Bytes}
    (h : Sealed recipient byte payload encoding) : encoding ≠ [] := by
  obtain ⟨_, f, -, hencode⟩ := h
  obtain ⟨-, rfl⟩ := Frame.encode_eq_ok_iff.mp hencode
  refine List.ne_nil_of_length_pos ?_
  rw [Frame.layout_length, Frame.size, Frame.lengthSize]
  omega

/-! ## Opening -/

variable {k : Rsa.PrivateKey} {s : Rsa.Shortcut}

/-- A key that is unwrapped is what the ciphertext decrypts to. -/
theorem decrypt_of_unwrap {cipherText key : Bytes} (h : k.unwrap cipherText = .ok key) :
    k.decrypt cipherText = .ok key := by
  unfold Rsa.PrivateKey.unwrap at h
  cases hd : k.decrypt cipherText with
  | error e => rw [hd] at h; cases h
  | ok m => rw [hd] at h; cases h; rfl

/-- A frame opens only if it is made of what is found. -/
theorem eq_frame_of_openFrame (h : k.Sound s) {f : Frame} {payload : Bytes} (hopen : openFrame k f = .ok payload) :
    k.Fits KeyMaterial.keySize ∧ ∃ x : Sealing, x.payload = payload ∧ f = x.frame k.toPublicKey := by
  unfold openFrame at hopen
  split at hopen
  · cases hopen
  · rename_i key hunwrap
    split at hopen
    · cases hopen
    · rename_i hlength
      dsimp only at hopen
      split at hopen
      · cases hopen
      · rename_i found hfound
        cases hopen
        obtain ⟨hfit, htext⟩ := KeyMaterial.eq_encrypt_of_decrypt hfound
        obtain ⟨hroom, seed, hseed, hkey⟩ := h.eq_encrypt_of_decrypt (decrypt_of_unwrap hunwrap)
        rw [not_not] at hlength
        refine ⟨hlength ▸ hroom, ⟨payload, key, f.nonce, seed, hfit.1, hfit.2, hseed⟩, rfl, ?_⟩
        rw [Sealing.frame, ← hkey, ← htext]

/-- The key of a frame that is made for the reader is found again, if the primes are primes. -/
theorem unwrap_frame (h : k.Sound s) (hprime : ∀ p ∈ k.primes, p.Prime) (hroom : k.Fits KeyMaterial.keySize)
    (x : Sealing) : k.unwrap (x.frame k.toPublicKey).wrappedKey = .ok x.key := by
  rw [Rsa.PrivateKey.unwrap, Sealing.frame, h.decrypt_encrypt hprime (x.key_length.symm ▸ hroom) x.seed_length]
  rfl

/-- A frame opens exactly if it is made of what is found, if the primes are primes. -/
theorem openFrame_eq_ok_iff (h : k.Sound s) (hprime : ∀ p ∈ k.primes, p.Prime) {f : Frame} {payload : Bytes} :
    openFrame k f = .ok payload ↔
      k.Fits KeyMaterial.keySize ∧ ∃ x : Sealing, x.payload = payload ∧ f = x.frame k.toPublicKey := by
  refine ⟨eq_frame_of_openFrame h, ?_⟩
  rintro ⟨hroom, x, rfl, rfl⟩
  have hkey := unwrap_frame h hprime hroom x
  have htext := KeyMaterial.decrypt_encrypt x.fitting x.payload
  simp only [openFrame, hkey, x.key_length, ne_eq, not_true_eq_false, if_false]
  simp only [Sealing.frame, htext]

end EnvelopeLog

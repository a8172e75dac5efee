import EnvelopeLog.KeyMaterial
import EnvelopeLog.Proofs.Bytes
import Mathlib.Algebra.BigOperators.Group.List.Basic

/-!
# Sealing and opening of payloads

The keystream is at least as long as the data it masks, so masking twice gives the data back, and a tag always has sixteen
bytes. Hence a plaintext opens from a ciphertext exactly if the ciphertext is sealed from it (`decrypt_eq_some_iff`), with
any key and nonce; with the sizes that are checked around it, this says of every text whether it opens, to what, and why not
(`KeyMaterial.encrypt_decrypt_exact`).
-/

namespace EnvelopeLog.Gcm

/-! ## Keystream and tag -/

@[simp] theorem keystreamBlock_length (keys : List Aes.Block) (nonce : Bytes) (counter : Nat) :
    (keystreamBlock keys nonce counter).length = 16 := by
  simp [keystreamBlock]

theorem keystream_length (keys : List Aes.Block) (nonce : Bytes) (blocks : Nat) :
    (keystream keys nonce blocks).length = 16 * blocks := by
  simp [keystream, List.length_flatMap, mul_comm]

/-- The key stream for some data is long enough to mask all of it. -/
theorem length_le_keystream (keys : List Aes.Block) (nonce data : Bytes) :
    data.length ≤ (keystream keys nonce ((data.length + 15) / 16)).length := by
  rw [keystream_length]
  omega

@[simp] theorem transcode_length (keys : List Aes.Block) (nonce data : Bytes) :
    (transcode keys nonce data).length = data.length := by
  rw [transcode, Bytes.mask_length]
  exact min_eq_left (length_le_keystream keys nonce data)

/-- Masking twice gives the data back. -/
@[simp] theorem transcode_transcode (keys : List Aes.Block) (nonce data : Bytes) :
    transcode keys nonce (transcode keys nonce data) = data := by
  rw [transcode, transcode_length, transcode]
  exact Bytes.mask_mask (length_le_keystream keys nonce data)

@[simp] theorem tag_length (keys : List Aes.Block) (nonce cipherText : Bytes) :
    (tag keys nonce cipherText).length = tagSize := by
  simp [tag, Element.bytes, tagSize]

/-! ## Sealing and opening -/

theorem encrypt_length (key nonce plaintext : Bytes) :
    (encrypt key nonce plaintext).length = plaintext.length + tagSize := by
  simp [encrypt]

/-- What was encrypted decrypts to itself, by the same key and nonce. -/
theorem decrypt_encrypt (key nonce plaintext : Bytes) :
    decrypt? key nonce (encrypt key nonce plaintext) = some plaintext := by
  unfold decrypt? encrypt
  simp

/-- Whatever opens is sealed from the plaintext that is found, if it is long enough for a tag. -/
theorem eq_encrypt_of_decrypt {key nonce cipherText plaintext : Bytes}
    (h : decrypt? key nonce cipherText = some plaintext) : cipherText = encrypt key nonce plaintext := by
  unfold decrypt? at h
  dsimp only at h
  split at h
  · rename_i htag
    cases h
    simp only [encrypt, transcode_transcode]
    rw [← htag, List.take_append_drop]
  · cases h

/-- Only what encryption gives is decrypted. -/
theorem decrypt_eq_some_iff {key nonce cipherText plaintext : Bytes} :
    decrypt? key nonce cipherText = some plaintext ↔ cipherText = encrypt key nonce plaintext :=
  ⟨eq_encrypt_of_decrypt, fun h => h ▸ decrypt_encrypt key nonce plaintext⟩

end EnvelopeLog.Gcm

namespace EnvelopeLog.KeyMaterial

/-! ## Key material of the right size -/

/-- Key material whose key and nonce have the lengths that the cipher needs. -/
def Fitting (m : KeyMaterial) : Prop := m.key.length = keySize ∧ m.nonce.length = nonceSize

/-- The check passes exactly if the key and the nonce have their lengths. -/
theorem check_eq_ok_iff (m : KeyMaterial) : m.check = .ok () ↔ m.Fitting := by
  unfold check Fitting
  by_cases hk : m.key.length = keySize <;> by_cases hn : m.nonce.length = nonceSize <;> simp [hk, hn]

/-- A key and a nonce of the right lengths encrypt everything. -/
theorem encrypt_of_fitting {m : KeyMaterial} (h : m.Fitting) (payload : Bytes) :
    m.encrypt payload = .ok (Gcm.encrypt m.key m.nonce payload) := by
  rw [encrypt, (check_eq_ok_iff m).mpr h]

/-- A key and a nonce of the right lengths decrypt what they encrypted. -/
theorem decrypt_encrypt {m : KeyMaterial} (h : m.Fitting) (payload : Bytes) :
    m.decrypt (Gcm.encrypt m.key m.nonce payload) = .ok payload := by
  have hlen := Gcm.encrypt_length m.key m.nonce payload
  rw [decrypt, if_neg (by omega), (check_eq_ok_iff m).mpr h]
  simp only [Gcm.decrypt_encrypt]

/-- What opens is sealed with the same key material, which has the right size. -/
theorem eq_encrypt_of_decrypt {m : KeyMaterial} {cipherText payload : Bytes} (h : m.decrypt cipherText = .ok payload) :
    m.Fitting ∧ cipherText = Gcm.encrypt m.key m.nonce payload := by
  unfold decrypt at h
  split at h
  · cases h
  · split at h
    · cases h
    · rename_i hcheck
      split at h
      · rename_i found hfound
        cases h
        exact ⟨(check_eq_ok_iff m).mp hcheck, Gcm.eq_encrypt_of_decrypt hfound⟩
      · cases h

/-! ## Which texts are sealed, and what happens to the others -/

/-- Encryption succeeds exactly by a key and a nonce of the right lengths. -/
theorem encrypt_eq_ok_iff {m : KeyMaterial} {payload cipherText : Bytes} :
    m.encrypt payload = .ok cipherText ↔ m.Fitting ∧ cipherText = Gcm.encrypt m.key m.nonce payload := by
  refine ⟨fun h => ?_, fun ⟨hfit, htext⟩ => htext ▸ encrypt_of_fitting hfit payload⟩
  unfold encrypt at h
  split at h
  · cases h
  · rename_i hcheck
    cases h
    exact ⟨(check_eq_ok_iff m).mp hcheck, rfl⟩

/-- Decryption succeeds exactly on what encryption by the same key and nonce gives, so it is its inverse in both directions. -/
theorem decrypt_eq_ok_iff {m : KeyMaterial} {payload cipherText : Bytes} :
    m.decrypt cipherText = .ok payload ↔ m.encrypt payload = .ok cipherText := by
  rw [encrypt_eq_ok_iff]
  exact ⟨eq_encrypt_of_decrypt, fun ⟨hfit, htext⟩ => htext ▸ decrypt_encrypt hfit payload⟩

/-- What was not sealed with the key material is refused for the first of four reasons. -/
theorem decrypt_of_not_sealed {m : KeyMaterial} {cipherText : Bytes}
    (h : ∀ payload, m.encrypt payload ≠ .ok cipherText) :
    m.decrypt cipherText = .error (
      if cipherText.length < Gcm.tagSize then .malformed (.cause cipherText.length)
      else if m.key.length ≠ keySize then .keySize keySize m.key.length
      else if m.nonce.length ≠ nonceSize then .nonceSize nonceSize m.nonce.length
      else .decryption) := by
  have hclosed (payload : Bytes) : m.decrypt cipherText ≠ .ok payload := mt decrypt_eq_ok_iff.mp (h payload)
  unfold decrypt check at *
  split_ifs with hshort hkey hnonce
  · rfl
  · rfl
  · rfl
  · simp only [if_neg hshort, if_neg hkey, if_neg hnonce] at hclosed ⊢
    cases hfound : Gcm.decrypt? m.key m.nonce cipherText with
    | none => rfl
    | some payload => exact absurd (by rw [hfound]) (hclosed payload)

/-- Sealing and opening are exact inverses. A payload is sealed exactly with a key of 32 and a nonce of 12 bytes, a ciphertext
opens to a payload exactly if it is what that payload is sealed to, and what opens to no payload is refused: first for being
shorter than a tag, then for the key, then for the nonce, and otherwise as not authentic. -/
theorem encrypt_decrypt_exact (m : KeyMaterial) :
    (∀ payload cipherText, m.decrypt cipherText = .ok payload ↔ m.encrypt payload = .ok cipherText) ∧
    (∀ payload, (∃ cipherText, m.encrypt payload = .ok cipherText) ↔ m.key.length = 32 ∧ m.nonce.length = 12) ∧
    (∀ payload cipherText, m.encrypt payload = .ok cipherText → cipherText.length = payload.length + 16) ∧
    ∀ cipherText, (∀ payload, m.encrypt payload ≠ .ok cipherText) →
      m.decrypt cipherText = .error (
        if cipherText.length < 16 then .malformed (.cause cipherText.length)
        else if m.key.length ≠ 32 then .keySize 32 m.key.length
        else if m.nonce.length ≠ 12 then .nonceSize 12 m.nonce.length
        else .decryption) := by
  refine ⟨fun _ _ => decrypt_eq_ok_iff, fun payload => ⟨?_, ?_⟩, fun payload cipherText h => ?_,
    fun _ h => decrypt_of_not_sealed h⟩
  · rintro ⟨cipherText, h⟩
    exact (encrypt_eq_ok_iff.mp h).1
  · exact fun hfit => ⟨_, encrypt_of_fitting hfit payload⟩
  · obtain ⟨-, rfl⟩ := encrypt_eq_ok_iff.mp h
    exact Gcm.encrypt_length m.key m.nonce payload

end EnvelopeLog.KeyMaterial

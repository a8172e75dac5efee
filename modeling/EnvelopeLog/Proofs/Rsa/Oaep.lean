import EnvelopeLog.Proofs.Rsa.Key

/-!
# What encryption with padding keeps

Padding and taking the padding off are inverse to each other in both directions: a padded message is found again
(`unpad_pad`), and what a message is found in is that message padded with some seed (`eq_pad_of_unpad`). So a ciphertext
made under the public half of a sound key with prime primes decrypts to its message (`decrypt_encrypt`), and a ciphertext
that decrypts at all, whatever the primes are, is made from the message with some seed (`eq_encrypt_of_decrypt`).
-/

namespace EnvelopeLog.Rsa

namespace Oaep

/-! ## Digests and masks -/

theorem hash_length (b : Bytes) : (Sha256.hash b).length = 32 := by
  simp [Sha256.hash, Sha256.State.bytes]

@[simp] theorem labelDigest_length : labelDigest.length = 32 := hash_length []

@[simp] theorem maskOf_length (seed : Bytes) (length : Nat) : (maskOf seed length).length = length := by
  have hdigests (n : Nat) :
      ((List.range n).flatMap fun i => Sha256.hash (seed ++ Bytes.bigEndian 4 i)).length = 32 * n := by
    simp [List.length_flatMap, hash_length, mul_comm]
  rw [maskOf, List.length_take, hdigests]
  omega

/-! ## Padding -/

/-- The message stands behind the zeros and the separator. -/
theorem afterSeparator_zeros (n : Nat) (message : Bytes) :
    afterSeparator? (List.replicate n 0 ++ 1 :: message) = some message := by
  induction n with
  | zero => simp [afterSeparator?]
  | succ n ih => simpa [List.replicate_succ, afterSeparator?] using ih

/-- What is found behind a separator stands behind zeros and the separator. -/
theorem eq_of_afterSeparator {b message : Bytes} (h : afterSeparator? b = some message) :
    ∃ n, b = List.replicate n 0 ++ 1 :: message := by
  induction b with
  | nil => simp [afterSeparator?] at h
  | cons x b ih =>
    rw [afterSeparator?] at h
    split at h
    · rename_i hx
      obtain ⟨n, hn⟩ := ih h
      exact ⟨n + 1, by rw [hx, hn, List.replicate_succ, List.cons_append]⟩
    · split at h
      · rename_i hx
        cases h
        exact ⟨0, by rw [hx]; rfl⟩
      · cases h

/-- The block that is masked: the digest of the label, zeros, a one byte and the message. -/
def block (size : Nat) (message : Bytes) : Bytes :=
  labelDigest ++ List.replicate (size - message.length - overhead) 0 ++ 1 :: message

theorem block_length {size : Nat} {message : Bytes} (h : message.length + overhead ≤ size) :
    (block size message).length = size - 33 := by
  simp only [overhead] at h
  simp only [block, overhead, List.length_append, labelDigest_length, List.length_replicate, List.length_cons]
  omega

/-- The padded message is the masked seed and the masked block, each with the mask that the other one makes. -/
theorem pad_eq (size : Nat) (seed message : Bytes) :
    pad size seed message =
      0 :: Bytes.mask seed
          (maskOf (Bytes.mask (block size message) (maskOf seed (block size message).length)) seedSize) ++
        Bytes.mask (block size message) (maskOf seed (block size message).length) := rfl

/-- A padded message is as wide as the modulus. -/
theorem pad_length {size : Nat} {seed message : Bytes} (h : message.length + overhead ≤ size)
    (hs : seed.length = seedSize) : (pad size seed message).length = size := by
  have hb := block_length h
  simp only [overhead, seedSize] at h hs
  simp only [pad_eq, List.length_append, List.length_cons, Bytes.mask_length, maskOf_length, seedSize, hs, hb]
  omega

/-- A padded message is found again. -/
theorem unpad_pad {size : Nat} {seed message : Bytes} (h : message.length + overhead ≤ size)
    (hs : seed.length = seedSize) : unpad? (pad size seed message) = some message := by
  have hlen := pad_length h hs
  rw [pad_eq] at hlen ⊢
  generalize hm : Bytes.mask (block size message) (maskOf seed (block size message).length) = masked at hlen ⊢
  have hml : masked.length = (block size message).length := by simp [← hm]
  have hsl : (Bytes.mask seed (maskOf masked seedSize)).length = seedSize := by simp [hs]
  have hseed : Bytes.mask (Bytes.mask seed (maskOf masked seedSize)) (maskOf masked seedSize) = seed :=
    Bytes.mask_mask (by simp [hs])
  have hblock : Bytes.mask masked (maskOf seed masked.length) = block size message := by
    rw [hml, ← hm]
    exact Bytes.mask_mask (by simp)
  have hdigest : (block size message).take seedSize = labelDigest := by
    rw [block, List.append_assoc, List.take_left' (by simp [seedSize])]
  have hrest : (block size message).drop seedSize =
      List.replicate (size - message.length - overhead) 0 ++ 1 :: message := by
    rw [block, List.append_assoc, List.drop_left' (by simp [seedSize])]
  simp only [List.cons_append] at hlen ⊢
  simp only [unpad?]
  rw [if_neg (by omega), List.take_left' hsl, List.drop_left' hsl, hseed, hblock, if_pos ⟨trivial, hdigest⟩, hrest,
    afterSeparator_zeros]

/-- A block in which a message is found is the block of that message. -/
theorem eq_block {found message : Bytes} (hdigest : found.take seedSize = labelDigest)
    (h : afterSeparator? (found.drop seedSize) = some message) :
    message.length + overhead ≤ found.length + 33 ∧ found = block (found.length + 33) message := by
  obtain ⟨n, hn⟩ := eq_of_afterSeparator h
  have hfound : found = labelDigest ++ (List.replicate n 0 ++ 1 :: message) := by
    rw [← hdigest, ← hn, List.take_append_drop]
  have hlen := congrArg List.length hfound
  simp only [List.length_append, labelDigest_length, List.length_replicate, List.length_cons] at hlen
  have hzeros : found.length + 33 - message.length - overhead = n := by
    simp only [overhead]
    omega
  refine ⟨by simp only [overhead]; omega, ?_⟩
  rw [block, hzeros, List.append_assoc]
  exact hfound

/-- What a message is found in is that message, padded with some seed. Both masks are undone by applying them again. -/
theorem eq_pad_of_unpad {padded message : Bytes} (h : unpad? padded = some message) :
    message.length + overhead ≤ padded.length ∧
      ∃ seed : Bytes, seed.length = seedSize ∧ padded = pad padded.length seed message := by
  unfold unpad? at h
  split at h
  · cases h
  · rename_i first rest
    split at h
    · cases h
    · rename_i hover
      dsimp only at h
      generalize hmasked : rest.drop seedSize = masked at h
      generalize hseed : Bytes.mask (rest.take seedSize) (maskOf masked seedSize) = seed at h
      generalize hfound : Bytes.mask masked (maskOf seed masked.length) = found at h
      split at h
      · rename_i hwhole
        obtain ⟨hroom, hblock⟩ := eq_block hwhole.2 h
        have hlength : found.length = masked.length := by simp [← hfound]
        have hsize : found.length + 33 = (first :: rest).length := by
          rw [hlength, ← hmasked, List.length_drop]
          simp only [List.length_cons, seedSize, overhead] at hover ⊢
          omega
        have htake : (rest.take seedSize).length = seedSize := by
          rw [List.length_take, seedSize]
          simp only [List.length_cons, overhead] at hover
          omega
        have hunmask : Bytes.mask found (maskOf seed found.length) = masked := by
          rw [hlength, ← hfound]
          exact Bytes.mask_mask (by simp)
        have hunseed : Bytes.mask seed (maskOf masked seedSize) = rest.take seedSize := by
          rw [← hseed]
          exact Bytes.mask_mask (by simp)
        rw [hsize] at hroom hblock
        refine ⟨hroom, seed, by rw [← hseed, Bytes.mask_length, htake, maskOf_length, min_self], ?_⟩
        rw [pad_eq, ← hblock, hunmask, hunseed, hwhole.1, ← hmasked, List.cons_append, List.take_append_drop]
      · cases h

end Oaep

/-! ## Encryption -/

/-- A ciphertext is as wide as the modulus. -/
theorem PublicKey.encrypt_length (k : PublicKey) (seed message : Bytes) : (k.encrypt seed message).length = k.size :=
  Bytes.bigEndian_length _ _

/-- A number raised under a key is below the modulus. -/
theorem PublicKey.raise_lt {k : PublicKey} (h : 0 < k.modulus) (m : Nat) : k.raise m < k.modulus :=
  power_lt m k.exponent h

/-- A padded message is a number below the modulus: its first byte is zero. -/
theorem PublicKey.pad_lt {k : PublicKey} (h : 0 < k.modulus) {seed message : Bytes} (hfits : k.Fits message.length)
    (hs : seed.length = Oaep.seedSize) : Bytes.fromBigEndian (Oaep.pad k.size seed message) < k.modulus := by
  have hlen := Oaep.pad_length hfits hs
  rw [Oaep.pad_eq, List.cons_append] at hlen ⊢
  rw [Bytes.fromBigEndian_zero_cons]
  refine lt_of_lt_of_le (Bytes.fromBigEndian_lt _) ?_
  rw [List.length_cons] at hlen
  rw [show List.length _ = k.size - 1 by omega]
  exact Bytes.pow_widthOf_le (by omega)

variable {k : PrivateKey} {s : Shortcut}

/-- The modulus of a sound key is not zero. -/
theorem PrivateKey.Sound.modulus_pos (h : k.Sound s) : 0 < k.modulus := by
  have hp := h.one_lt_p
  have hq := h.one_lt_q
  rw [← h.product]
  exact Nat.mul_pos (by omega) (by omega)

/-- A ciphertext decrypts to its message if the primes are primes. -/
theorem PrivateKey.Sound.decrypt_encrypt (h : k.Sound s) (hprime : ∀ p ∈ k.primes, p.Prime) {seed message : Bytes}
    (hfits : k.Fits message.length) (hs : seed.length = Oaep.seedSize) :
    k.decrypt (k.encrypt seed message) = .ok message := by
  have hpos := h.modulus_pos
  have hlen := Oaep.pad_length hfits hs
  generalize hm : Bytes.fromBigEndian (Oaep.pad k.size seed message) = m
  have hlt : m < k.modulus := hm ▸ PublicKey.pad_lt hpos hfits hs
  have hraise : k.raise m < k.modulus := PublicKey.raise_lt hpos m
  have hread : Bytes.fromBigEndian (k.encrypt seed message) = k.raise m := by
    rw [PublicKey.encrypt, hm]
    exact Bytes.fromBigEndian_bigEndian (hraise.trans (Bytes.lt_pow_widthOf _))
  have hpadded : Bytes.bigEndian k.size m = Oaep.pad k.size seed message := by
    have := Bytes.bigEndian_fromBigEndian (Oaep.pad k.size seed message)
    rwa [hlen, hm] at this
  unfold decrypt
  simp only [hread, h.lower_raise hprime hlt, hpadded, Oaep.unpad_pad hfits hs]
  rw [if_neg (by simp [PublicKey.encrypt_length, hraise]), if_neg (by simp)]

/-- A ciphertext that decrypts is made from its message with some seed, whether or not the primes are primes. -/
theorem PrivateKey.Sound.eq_encrypt_of_decrypt (h : k.Sound s) {cipherText message : Bytes}
    (hdec : k.decrypt cipherText = .ok message) :
    k.Fits message.length ∧ ∃ seed : Bytes, seed.length = Oaep.seedSize ∧ cipherText = k.encrypt seed message := by
  unfold decrypt at hdec
  dsimp only at hdec
  split at hdec
  · cases hdec
  · rename_i hsize
    split at hdec
    · cases hdec
    · rename_i hraise
      split at hdec
      · rename_i found hunpad
        cases hdec
        obtain ⟨hroom, seed, hs, hpad⟩ := Oaep.eq_pad_of_unpad hunpad
        rw [Bytes.bigEndian_length] at hroom hpad
        simp only [not_or, not_not, ne_eq, not_le] at hsize hraise
        refine ⟨hroom, seed, hs, ?_⟩
        have hnumber : Bytes.fromBigEndian (Oaep.pad k.size seed message) =
            k.lower (Bytes.fromBigEndian cipherText) := by
          rw [← hpad]
          exact Bytes.fromBigEndian_bigEndian ((h.lower_lt _).trans (Bytes.lt_pow_widthOf _))
        rw [PublicKey.encrypt, hnumber, hraise, ← hsize.1, Bytes.bigEndian_fromBigEndian]
      · cases hdec

end EnvelopeLog.Rsa

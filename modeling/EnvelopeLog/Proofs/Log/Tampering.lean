import EnvelopeLog.Proofs.Cipher.Tag
import EnvelopeLog.Proofs.Log.Joining
import EnvelopeLog.Proofs.Wrapping

/-!
# Changed payloads are found out

A frame whose ciphertext was changed in a single byte fails its authentication, wherever the byte stands and whatever it was
changed to (`openFrame_tampered`), and so does every log that opens up to such a frame (`decrypt_tampered`). Which byte it
is does not matter, because the polynomial behind the tag is evaluated over a field; that its point is not zero has to be
assumed of the key.
-/

namespace EnvelopeLog

/-- The frame with one byte of its ciphertext replaced. -/
def Frame.tampered (f : Frame) (i : Nat) (y : UInt8) : Frame := { f with cipherText := f.cipherText.set i y }

variable {k : Rsa.PrivateKey} {s : Rsa.Shortcut}

/-- A frame that is made for the reader fails its authentication once a byte of its ciphertext was changed. -/
theorem openFrame_tampered (h : k.Sound s) (hprime : ∀ p ∈ k.primes, p.Prime) (hroom : k.Fits KeyMaterial.keySize)
    (x : Sealing) (hpoint : Gcm.hashPoint (Aes.roundKeys x.key) ≠ 0) {i : Nat} {y : UInt8}
    (hi : i < (x.frame k.toPublicKey).cipherText.length) (hy : y ≠ (x.frame k.toPublicKey).cipherText[i]) :
    openFrame k ((x.frame k.toPublicKey).tampered i y) = .error .payloadAuthentication := by
  have hchanged : (x.frame k.toPublicKey).cipherText.set i y ≠ (x.frame k.toPublicKey).cipherText := by
    intro hsame
    have hread := congrArg (·[i]?) hsame
    simp only [List.getElem?_set_self hi, List.getElem?_eq_getElem hi, Option.some.injEq] at hread
    exact hy hread
  have hrefused := KeyMaterial.decrypt_set x.fitting hpoint hchanged
  have hkey : k.unwrap ((x.frame k.toPublicKey).tampered i y).wrappedKey = .ok x.key := unwrap_frame h hprime hroom x
  simp only [openFrame, hkey, x.key_length, ne_eq, not_true_eq_false, if_false]
  simp only [Frame.tampered, Sealing.frame] at hrefused ⊢
  simp only [hrefused]

/-- A sealed frame holds a wrapped key of the size of the recipient's modulus. -/
theorem wrappedKey_length_of_sealFrame {recipient : Rsa.PublicKey} {payload : Bytes} {entropy : Entropy} {f : Frame}
    (h : (sealFrame recipient payload entropy).1 = .ok f) : f.wrappedKey.length = recipient.size := by
  rw [sealFrame_eq] at h
  split at h
  · cases h
    exact (Sealing.draw payload entropy).frame_wrappedKey_length recipient
  · cases h

namespace Log

variable {limit : Nat} {before opened : Bytes} {f : Frame}

/-- Behind a log that opens, a frame that does not open decides, if its fields are within the limit. -/
theorem decryptBytes_refused (hbefore : decryptBytes k limit before = .ok opened)
    (hw : f.Within KeyMaterial.nonceSize limit) (he : f.Encodable) {fault : Fault} (hopen : openFrame k f = .error fault)
    (rest : Bytes) : decryptBytes k limit (before ++ f.layout ++ rest) = .error (.library fault) := by
  rw [List.append_assoc, decryptBytes_append_of_ok hbefore, decryptBytes_layout hw he, hopen]
  rfl

/-- Behind a log that opens, a frame with a field over the limit is a fault of a frame. -/
theorem decryptBytes_overLimit (hbefore : decryptBytes k limit before = .ok opened)
    (hnonce : f.nonce.length = KeyMaterial.nonceSize) (he : f.Encodable)
    (hover : ¬(f.wrappedKey.length ≤ limit ∧ f.cipherText.length ≤ limit)) (rest : Bytes) :
    ∃ fault, decryptBytes k limit (before ++ f.layout ++ rest) = .error (.library (.framing (.cause fault))) := by
  obtain ⟨fault, n, hbad⟩ := Frame.malformed_of_overLimit he hover rest
  rw [hnonce] at hbad
  refine ⟨fault, ?_⟩
  rw [List.append_assoc, decryptBytes_append_of_ok hbefore, decryptBytes_malformed hbad]
  rfl

/-- Whatever payload is sealed for the owner of a key that a text holds, and with whatever random bytes, the frame fails its
authentication once a byte of its ciphertext was changed, be it a masked byte or one of the tag. So does every log in which the
changed frame comes behind frames that open, unless a field of the frame is over the limit of the reader, which is then the
fault that is reported. -/
theorem decrypt_tampered {text : String} (hk : Rsa.PrivateKey.ofText text = .ok k) (hprime : ∀ p ∈ k.primes, p.Prime)
    (hsize : 98 ≤ k.size) (payload : Bytes) (entropy : Entropy)
    (hpoint : Gcm.hashPoint (Aes.roundKeys (KeyMaterial.draw entropy).1.key) ≠ 0) :
    ∃ f, (sealFrame k.toPublicKey payload entropy).1 = .ok f ∧ f.cipherText.length = payload.length + 16 ∧
      ∀ (i : Nat) (hi : i < f.cipherText.length) (y : UInt8), y ≠ f.cipherText[i] →
        openFrame k (f.tampered i y) = .error .payloadAuthentication ∧
        ∀ encoding, (f.tampered i y).encode = .ok encoding → ∀ limit before opened,
          decryptBytes k limit before = .ok opened → ∀ rest,
            (k.size ≤ limit ∧ payload.length + 16 ≤ limit →
              decryptBytes k limit (before ++ encoding ++ rest) = .error (.library .payloadAuthentication)) ∧
            (¬(k.size ≤ limit ∧ payload.length + 16 ≤ limit) →
              ∃ fault, decryptBytes k limit (before ++ encoding ++ rest) =
                .error (.library (.framing (.cause fault)))) := by
  obtain ⟨shortcut, hsound⟩ := Rsa.PrivateKey.sound_of_ofText hk
  have hroom : k.Fits KeyMaterial.keySize := hsize
  let x := Sealing.draw payload entropy
  have hlength : (x.frame k.toPublicKey).cipherText.length = payload.length + 16 := x.frame_cipherText_length k.toPublicKey
  have hwidth : (x.frame k.toPublicKey).wrappedKey.length = k.size := x.frame_wrappedKey_length k.toPublicKey
  refine ⟨x.frame k.toPublicKey, by rw [sealFrame_eq, if_pos hroom], hlength, fun i hi y hy => ?_⟩
  have hopen := openFrame_tampered hsound hprime hroom x hpoint hi hy
  refine ⟨hopen, fun encoding hencode limit before opened hbefore rest => ?_⟩
  obtain ⟨hencodable, rfl⟩ := Frame.encode_eq_ok_iff.mp hencode
  have hnonce : ((x.frame k.toPublicKey).tampered i y).nonce.length = KeyMaterial.nonceSize := x.nonce_length
  have htext : ((x.frame k.toPublicKey).tampered i y).cipherText.length = payload.length + 16 :=
    List.length_set.trans hlength
  constructor
  · rintro ⟨hkey, hpayload⟩
    exact decryptBytes_refused hbefore ⟨hnonce, hwidth.trans_le hkey, htext.trans_le hpayload⟩ hencodable hopen rest
  · intro hover
    refine decryptBytes_overLimit hbefore hnonce hencodable (fun hwithin => hover ?_) rest
    exact ⟨hwidth.ge.trans hwithin.1, htext.ge.trans hwithin.2⟩

/-- The point at which the tags of a key of sevens are evaluated is not zero. -/
theorem Sample.hashPoint_ne_zero :
    Gcm.hashPoint (Aes.roundKeys (KeyMaterial.draw (Entropy.cycle [7])).1.key) ≠ 0 := by
  refine Gcm.hashPoint_ne_zero_of_encrypt ?_
  rw [Aes.numbers_encrypt, Aes.roundKeys, Aes.keyWords, Aes.substitute_eq]
  decide +kernel

/-- A masked byte that was changed, and a byte of the tag, each in a log of one frame. -/
theorem decrypt_tampered_sample :
    ∃ f, (sealFrame Sample.key.toPublicKey [1, 2, 3] (.cycle [7])).1 = .ok f ∧ f.cipherText.length = 19 ∧
      ∃ (hdata : 0 < f.cipherText.length) (htag : 18 < f.cipherText.length),
        ∀ g ∈ [f.tampered 0 (f.cipherText[0] + 1), f.tampered 18 (f.cipherText[18] + 1)],
          openFrame Sample.key g = .error .payloadAuthentication ∧
            ∃ encoding, g.encode = .ok encoding ∧
              decryptBytes Sample.key 100 encoding = .error (.library .payloadAuthentication) := by
  obtain ⟨f, hseal, hlength, hall⟩ := decrypt_tampered Sample.ofText_text Sample.prime_of_mem Sample.fits_key [1, 2, 3]
    (.cycle [7]) Sample.hashPoint_ne_zero
  replace hlength : f.cipherText.length = 19 := hlength
  have hkey : f.wrappedKey.length = 100 := (wrappedKey_length_of_sealFrame hseal).trans Sample.size_key
  have htampered : ∀ (i : Nat) (hi : i < f.cipherText.length),
      openFrame Sample.key (f.tampered i (f.cipherText[i] + 1)) = .error .payloadAuthentication ∧
        ∃ encoding, (f.tampered i (f.cipherText[i] + 1)).encode = .ok encoding ∧
          decryptBytes Sample.key 100 encoding = .error (.library .payloadAuthentication) := by
    intro i hi
    obtain ⟨hopen, hlogs⟩ := hall i hi (f.cipherText[i] + 1) (by simp)
    have htext : (f.tampered i (f.cipherText[i] + 1)).cipherText.length = 19 := List.length_set.trans hlength
    have hencodable : (f.tampered i (f.cipherText[i] + 1)).Encodable :=
      ⟨by rw [Frame.tampered, hkey]; decide, by rw [htext]; decide⟩
    have hencode := Frame.encode_eq_ok_iff.mpr ⟨hencodable, rfl⟩
    have hlog := (hlogs _ hencode 100 [] [] (decryptBytes_nil _ _) []).1 ⟨Sample.size_key.le, by decide⟩
    rw [List.nil_append, List.append_nil] at hlog
    exact ⟨hopen, _, hencode, hlog⟩
  refine ⟨f, hseal, hlength, by omega, by omega, ?_⟩
  simp only [List.forall_mem_cons]
  exact ⟨htampered 0 (by omega), htampered 18 (by omega), List.forall_mem_nil _⟩

/-- A reader whose limit is less than a field of the changed frame does not get as far as to authenticate it. -/
theorem decrypt_tampered_overLimit :
    Rsa.PrivateKey.ofText Sample.text = .ok Sample.key ∧ (∀ p ∈ Sample.key.primes, p.Prime) ∧ 98 ≤ Sample.key.size ∧
      Gcm.hashPoint (Aes.roundKeys (KeyMaterial.draw (Entropy.cycle [7])).1.key) ≠ 0 ∧
      ∃ f encoding, ∃ hi : 0 < f.cipherText.length,
        (sealFrame Sample.key.toPublicKey [1, 2, 3] (.cycle [7])).1 = .ok f ∧
        (f.tampered 0 (f.cipherText[0] + 1)).encode = .ok encoding ∧ decryptBytes Sample.key 10 [] = .ok [] ∧
        decryptBytes Sample.key 10 encoding ≠ .error (.library .payloadAuthentication) := by
  have hlarge : 98 ≤ Sample.key.size := Sample.fits_key
  have hseal := sealFrame_eq Sample.key.toPublicKey [1, 2, 3] (.cycle [7])
  rw [if_pos Sample.fits_key] at hseal
  have hlength := (Sealing.draw [1, 2, 3] (.cycle [7])).frame_cipherText_length Sample.key.toPublicKey
  have hwidth := (Sealing.draw [1, 2, 3] (.cycle [7])).frame_wrappedKey_length Sample.key.toPublicKey
  have hnonce := (Sealing.draw [1, 2, 3] (.cycle [7])).frame_nonce_length Sample.key.toPublicKey
  generalize (Sealing.draw [1, 2, 3] (.cycle [7])).frame Sample.key.toPublicKey = f at *
  rw [show (Sealing.draw [1, 2, 3] (.cycle [7])).payload.length + Gcm.tagSize = 19 from rfl] at hlength
  replace hwidth := hwidth.trans Sample.size_key
  have hi : 0 < f.cipherText.length := by omega
  have htext : (f.tampered 0 (f.cipherText[0] + 1)).cipherText.length = 19 := List.length_set.trans hlength
  generalize hchanged : f.tampered 0 (f.cipherText[0] + 1) = changed at *
  have hkey : changed.wrappedKey.length = 100 := by rw [← hchanged, Frame.tampered, hwidth]
  have hencodable : changed.Encodable := ⟨by rw [hkey]; decide, by rw [htext]; decide⟩
  have hover : ¬(changed.wrappedKey.length ≤ 10 ∧ changed.cipherText.length ≤ 10) := by rw [hkey, htext]; decide
  have hnonce' : changed.nonce.length = KeyMaterial.nonceSize := by rw [← hchanged, Frame.tampered, hnonce]
  refine ⟨Sample.ofText_text, Sample.prime_of_mem, hlarge, Sample.hashPoint_ne_zero, f, changed.layout, hi,
    by rw [hseal], by rw [hchanged, Frame.encode_eq_ok_iff]; exact ⟨hencodable, rfl⟩, decryptBytes_nil _ _, ?_⟩
  obtain ⟨fault, hfault⟩ := decryptBytes_overLimit (decryptBytes_nil Sample.key 10) hnonce' hencodable hover []
  rw [List.nil_append, List.append_nil] at hfault
  rw [hfault]
  simp

end Log

end EnvelopeLog

import EnvelopeLog.Proofs.Cipher.Aes
import EnvelopeLog.Proofs.Cipher.Field
import EnvelopeLog.Proofs.Cipher.Gcm

/-!
# A changed byte changes the tag

A byte of a text lies in one of its slices, and a change of it changes the coefficient of that slice alone (`slices_set`). At a
point other than zero two polynomials that differ in a single coefficient have different values (`evaluate_ne`), whatever the
coefficient and whatever comes after it. So a sealed payload does not open once a byte of it was changed, be it a masked byte or
one of the tag (`decrypt?_set_eq_none`).
-/

namespace EnvelopeLog

/-! ## Slices of changed bytes -/

/-- If one byte is changed, one slice is. -/
theorem Bytes.slices_set {n : Nat} (hn : 0 < n) {b : Bytes} {i : Nat} {y : UInt8} (h : b.set i y ≠ b) :
    ∃ before s s' after, slices n b = before ++ s :: after ∧ slices n (b.set i y) = before ++ s' :: after ∧
      s.length ≤ n ∧ s'.length = s.length ∧ s' ≠ s := by
  induction b using slices.induct n generalizing i with
  | case1 => exact absurd rfl h
  | case2 x rest _ ih =>
    generalize hb : x :: rest = b at h ih
    have hne : b ≠ [] := hb ▸ List.cons_ne_nil x rest
    have hne' : b.set i y ≠ [] := by simpa using hne
    rw [slices_of_ne_nil hn hne, slices_of_ne_nil hn hne']
    rcases Nat.lt_or_ge i n with hi | hi
    · have hrest : (b.set i y).drop n = b.drop n := List.drop_set_of_lt hi
      refine ⟨[], b.take n, (b.set i y).take n, slices n (b.drop n), rfl, by rw [hrest]; rfl, List.length_take_le _ _,
        by simp, fun hsame => h ?_⟩
      rw [← List.take_append_drop n (b.set i y), hsame, hrest, List.take_append_drop]
    · have hfirst : (b.set i y).take n = b.take n := by
        rw [List.take_set, List.set_eq_of_length_le]
        exact (List.length_take_le n b).trans hi
      have hrest : (b.set i y).drop n = (b.drop n).set (i - n) y := by rw [List.drop_set, if_neg (by omega)]
      have hchanged : (b.drop n).set (i - n) y ≠ b.drop n := by
        intro hsame
        rw [← hrest] at hsame
        apply h
        rw [← List.take_append_drop n (b.set i y), hsame, hfirst, List.take_append_drop]
      obtain ⟨before, s, s', after, hold, hnew, hlength⟩ := ih hchanged
      exact ⟨b.take n :: before, s, s', after, by rw [hold]; rfl, by rw [hfirst, hrest, hnew]; rfl, hlength⟩
  | case3 x rest hzero => exact absurd hn hzero

namespace Gcm

/-! ## Values of polynomials -/

/-- Blocks of one length are different elements if they are different. -/
theorem Element.ofBytes_inj {s t : Bytes} (hlength : s.length = t.length) (hs : s.length ≤ tagSize) :
    ofBytes s = ofBytes t ↔ s = t := by
  refine ⟨fun h => ?_, congrArg ofBytes⟩
  have hbound (b : Bytes) (hb : b.length = s.length) :
      Bytes.fromBigEndian b * 2 ^ (8 * (16 - b.length)) < 2 ^ 128 := by
    have hpow : 256 ^ b.length * 2 ^ (8 * (16 - b.length)) = 2 ^ 128 := by
      rw [show 256 = 2 ^ 8 from rfl, ← pow_mul, ← pow_add]
      rw [tagSize] at hs
      congr 1
      omega
    rw [← hpow]
    exact Nat.mul_lt_mul_of_pos_right (Bytes.fromBigEndian_lt b) (by positivity)
  have hvalue := congrArg BitVec.toNat h
  simp only [ofBytes, BitVec.toNat_ofNat, Nat.shiftLeft_eq] at hvalue
  rw [Nat.mod_eq_of_lt (hbound s rfl), Nat.mod_eq_of_lt (hbound t hlength.symm), hlength] at hvalue
  have hnumber := Nat.eq_of_mul_eq_mul_right (by positivity) hvalue
  rw [← Bytes.bigEndian_fromBigEndian s, hnumber, hlength, Bytes.bigEndian_fromBigEndian]

/-- The point at which tags are evaluated is not zero if the zero block is encrypted to one whose first byte is not. -/
theorem hashPoint_ne_zero_of_encrypt {keys : List Aes.Block}
    (h : (Aes.numbers (Aes.encrypt keys (Aes.Block.ofBytes []))).headD 0 ≠ 0) : hashPoint keys ≠ 0 := by
  intro hzero
  have hbytes : (Aes.encrypt keys (Aes.Block.ofBytes [])).toList = List.replicate 16 0 :=
    (Element.ofBytes_inj (by simp) (by simp [tagSize])).mp hzero
  rw [Aes.numbers, hbytes] at h
  exact h rfl

/-- Different elements have different bytes. -/
theorem Element.bytes_injective : Function.Injective Element.bytes := by
  intro u v h
  have hbound (x : Element) : x.toNat < 256 ^ 16 := x.isLt
  apply BitVec.eq_of_toNat_eq
  rw [← Bytes.fromBigEndian_bigEndian (hbound u), ← Bytes.fromBigEndian_bigEndian (hbound v)]
  exact congrArg Bytes.fromBigEndian h

variable {p : Element} (hp : p ≠ 0)

include hp in
/-- What differs goes on to differ, whatever coefficients follow. -/
theorem foldl_ne {y y' : Element} (h : y ≠ y') (coefficients : List Element) :
    coefficients.foldl (fun y c => times (y ^^^ c) p) y ≠ coefficients.foldl (fun y c => times (y ^^^ c) p) y' := by
  induction coefficients generalizing y y' with
  | nil => exact h
  | cons c coefficients ih => exact ih ((times_left_injective hp).ne fun hsame => h ((BitVec.xor_left_inj c).mp hsame))

include hp in
/-- Polynomials that differ in one coefficient have different values. -/
theorem evaluate_ne {c c' : Element} (h : c ≠ c') (before after : List Element) :
    evaluate p (before ++ c :: after) ≠ evaluate p (before ++ c' :: after) := by
  simp only [evaluate, List.foldl_append, List.foldl_cons]
  exact foldl_ne hp ((times_left_injective hp).ne fun hsame => h ((BitVec.xor_right_inj _).mp hsame)) after

/-! ## Tags -/

variable {keys : List Aes.Block} {key nonce plaintext masked : Bytes} {i : Nat} {y : UInt8}

/-- Ciphertexts of one tag are hashed to one element. -/
theorem tag_inj_evaluate {nonce a b : Bytes} (h : tag keys nonce a = tag keys nonce b) :
    evaluate (hashPoint keys) (coefficients a) = evaluate (hashPoint keys) (coefficients b) := by
  have hmasked (x : Element) : x.bytes.length ≤ (keystreamBlock keys nonce 1).length := by
    rw [keystreamBlock_length, Element.bytes, Bytes.bigEndian_length]
  have hbytes := congrArg (Bytes.mask · (keystreamBlock keys nonce 1)) h
  simp only [tag, Bytes.mask_mask (hmasked _)] at hbytes
  exact Element.bytes_injective hbytes

/-- A changed byte of the masked text changes the tag. -/
theorem tag_set_ne (hpoint : hashPoint keys ≠ 0) (h : masked.set i y ≠ masked) :
    tag keys nonce (masked.set i y) ≠ tag keys nonce masked := by
  obtain ⟨before, s, s', after, hold, hnew, hshort, hlength, hne⟩ := Bytes.slices_set (show 0 < tagSize by decide) h
  intro htag
  have hvalue := tag_inj_evaluate htag
  rw [tagSize] at hold hnew
  simp only [coefficients, hold, hnew, List.length_set, List.map_append, List.map_cons, List.append_assoc,
    List.cons_append] at hvalue
  refine evaluate_ne hpoint (fun hsame => hne ?_) _ _ hvalue
  exact (Element.ofBytes_inj hlength (hlength.trans_le hshort)).mp hsame

/-- A ciphertext with a changed byte does not open. If a masked byte was changed, the tag was kept; and if a byte of the tag was
changed, the tag that belongs there was not. -/
theorem decrypt?_set_eq_none (hpoint : hashPoint (Aes.roundKeys key) ≠ 0)
    (h : (encrypt key nonce plaintext).set i y ≠ encrypt key nonce plaintext) :
    decrypt? key nonce ((encrypt key nonce plaintext).set i y) = none := by
  rw [Option.eq_none_iff_forall_ne_some]
  intro found hfound
  have hsealed := eq_encrypt_of_decrypt hfound
  simp only [encrypt] at h hsealed
  generalize transcode (Aes.roundKeys key) nonce plaintext = masked at h hsealed
  generalize transcode (Aes.roundKeys key) nonce found = masked' at hsealed
  have hlength : masked.length = masked'.length := by
    have htotal := congrArg List.length hsealed
    simp only [List.length_set, List.length_append, tag_length] at htotal
    omega
  rcases Nat.lt_or_ge i masked.length with hi | hi
  · rw [List.set_append_left _ _ hi] at h hsealed
    obtain ⟨rfl, htag⟩ := List.append_inj hsealed (by rw [List.length_set, hlength])
    exact tag_set_ne hpoint (fun hsame => h (by rw [hsame])) htag.symm
  · rw [List.set_append_right _ _ hi] at h hsealed
    obtain ⟨rfl, htag⟩ := List.append_inj hsealed hlength
    exact h (by rw [htag])

end Gcm

/-- Key material of the right size refuses a ciphertext of its own with a changed byte as not authentic. -/
theorem KeyMaterial.decrypt_set {m : KeyMaterial} (hfit : m.Fitting) (hpoint : Gcm.hashPoint (Aes.roundKeys m.key) ≠ 0)
    {payload : Bytes} {i : Nat} {y : UInt8}
    (h : (Gcm.encrypt m.key m.nonce payload).set i y ≠ Gcm.encrypt m.key m.nonce payload) :
    m.decrypt ((Gcm.encrypt m.key m.nonce payload).set i y) = .error .decryption := by
  have hlength := Gcm.encrypt_length m.key m.nonce payload
  rw [decrypt, List.length_set, if_neg (by omega), (check_eq_ok_iff m).mpr hfit]
  simp only [Gcm.decrypt?_set_eq_none hpoint h]

end EnvelopeLog

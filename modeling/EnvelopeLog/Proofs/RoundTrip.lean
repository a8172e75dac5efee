import EnvelopeLog.Proofs.Log
import EnvelopeLog.Proofs.Wrapping
import EnvelopeLog.Proofs.Writer.Accounting
import EnvelopeLog.Sink.Script

/-!
# What is written is what a log opens to

A log that a writer left on its sink opens to the segments, if no field is longer than the reader's limit; a field over the
limit and a torn frame are faults of frames, and there is never a part of the payload instead (`decrypt_run`). Conversely
nothing but frames of sealings for the reader's key opens, whether or not the primes of the key are primes
(`sealings_of_decryptBytes`).
-/

namespace EnvelopeLog

/-! ## Sealed payloads -/

/-- What was sealed is the encoding of the frame of a sealing. -/
theorem Sealed.exists_sealing {recipient : Rsa.PublicKey} {byte : Nat → UInt8} {payload encoding : Bytes}
    (h : Sealed recipient byte payload encoding) :
    recipient.Fits KeyMaterial.keySize ∧ ∃ x : Sealing, x.payload = payload ∧ (x.frame recipient).Encodable ∧
      encoding = (x.frame recipient).layout := by
  obtain ⟨drawn, f, hseal, hencode⟩ := h
  obtain ⟨hencodable, rfl⟩ := Frame.encode_eq_ok_iff.mp hencode
  rw [sealFrame_eq] at hseal
  by_cases hroom : recipient.Fits KeyMaterial.keySize
  · rw [if_pos hroom, Except.ok.injEq] at hseal
    subst hseal
    exact ⟨hroom, Sealing.draw payload { byte, drawn }, rfl, hencodable, rfl⟩
  · rw [if_neg hroom] at hseal
    cases hseal

/-- The bytes of sealed payloads are those of the frames of sealings. -/
theorem exists_sealings {recipient : Rsa.PublicKey} {byte : Nat → UInt8} {payloads encodings : List Bytes}
    (h : List.Forall₂ (Sealed recipient byte) payloads encodings) :
    ∃ xs : List Sealing, xs.map Sealing.payload = payloads ∧ encodings.flatten = Sealing.layouts recipient xs ∧
      ∀ x ∈ xs, recipient.Fits KeyMaterial.keySize ∧ (x.frame recipient).Encodable := by
  induction h with
  | nil => exact ⟨[], rfl, rfl, by simp⟩
  | cons hsealed _ ih =>
    obtain ⟨hroom, x, rfl, hencodable, rfl⟩ := hsealed.exists_sealing
    obtain ⟨xs, rfl, hxs, hall⟩ := ih
    exact ⟨x :: xs, rfl, by simp [Sealing.layouts, hxs], List.forall_mem_cons.mpr ⟨⟨hroom, hencodable⟩, hall⟩⟩

namespace Session

variable {σ : Type}

/-- Whether a reader with a limit accepts the frames of the segments. -/
def Admits (recipient : Rsa.PublicKey) (limit : Nat) (s : Session σ) : Prop :=
  s.segments = [] ∨ recipient.size ≤ limit ∧ ∀ p ∈ s.segments, p.length + Gcm.tagSize ≤ limit

end Session

/-! ## The round trip -/

namespace Log

variable {k : Rsa.PrivateKey} {shortcut : Rsa.Shortcut} {σ : Type} {byte : Nat → UInt8} {s : Session σ} {limit : Nat}

/-- The frames of payloads open to the payloads, if no field is over the limit. -/
theorem gives_decrypt_sealed (h : k.Sound shortcut) (hprime : ∀ p ∈ k.primes, p.Prime) {payloads encodings : List Bytes}
    (hsealed : List.Forall₂ (Sealed k.toPublicKey byte) payloads encodings) (hsize : k.size ≤ limit)
    (hpayloads : ∀ p ∈ payloads, p.length + Gcm.tagSize ≤ limit) :
    Source.Gives (decrypt k limit) encodings.flatten none (.ok payloads.flatten) encodings.flatten.length := by
  obtain ⟨xs, rfl, hlayouts, hxs⟩ := exists_sealings hsealed
  rw [hlayouts, ← List.flatMap_def]
  cases xs with
  | nil => exact gives_decrypt_end
  | cons x xs =>
    have hadmitted : ∀ y ∈ x :: xs, y.Admitted k.toPublicKey limit :=
      fun y hy => ⟨hsize, hpayloads y.payload (List.mem_map_of_mem hy)⟩
    exact gives_decrypt_sealings h hprime (hxs x List.mem_cons_self).1 _ (fun y hy => (hxs y hy).2) hadmitted

/-- A log that opens is a concatenation of encodings of frames, each made of a payload, a key, a nonce and a seed for the
public half of the reader's key, with no field over the limit, and it opens to their payloads. -/
theorem sealings_of_decryptBytes {text : String} (hk : Rsa.PrivateKey.ofText text = .ok k) {b payload : Bytes}
    (hopen : decryptBytes k limit b = .ok payload) :
    ∃ (xs : List Sealing) (encodings : List Bytes),
      List.Forall₂ (fun x encoding => (x.frame k.toPublicKey).encode = .ok encoding) xs encodings ∧
      b = encodings.flatten ∧ payload = (xs.map Sealing.payload).flatten ∧
      ∀ x ∈ xs, k.Fits x.key.length ∧
        (x.frame k.toPublicKey).wrappedKey.length ≤ limit ∧ (x.frame k.toPublicKey).cipherText.length ≤ limit := by
  obtain ⟨shortcut, hsound⟩ := Rsa.PrivateKey.sound_of_ofText hk
  obtain ⟨xs, rfl, rfl, hxs⟩ := eq_layouts_of_decrypt hsound hopen
  refine ⟨xs, xs.map fun x => (x.frame k.toPublicKey).layout, ?_, ?_, ?_, ?_⟩
  · rw [List.forall₂_map_right_iff, List.forall₂_same]
    exact fun x hx => Frame.encode_eq_ok_iff.mpr ⟨(hxs x hx).2.1, rfl⟩
  · rw [Sealing.layouts, List.flatMap_def]
  · rw [Sealing.payloads, List.flatMap_def]
  · intro x hx
    obtain ⟨hroom, -, hadmitted⟩ := hxs x hx
    obtain ⟨-, hkey, htext⟩ := Sealing.within_frame_iff.mpr hadmitted
    exact ⟨x.key_length ▸ hroom, hkey, htext⟩

/-- A log of one frame. -/
theorem sealings_of_decryptBytes_sample :
    let x := Sealing.draw [1, 2, 3] (.cycle [7])
    let log := (x.frame Sample.key.toPublicKey).layout
    decryptBytes Sample.key 100 log = .ok [1, 2, 3] ∧
    ∃ (xs : List Sealing) (encodings : List Bytes),
      List.Forall₂ (fun x encoding => (x.frame Sample.key.toPublicKey).encode = .ok encoding) xs encodings ∧
      log = encodings.flatten ∧ [1, 2, 3] = (xs.map Sealing.payload).flatten ∧
      ∀ x ∈ xs, Sample.key.Fits x.key.length ∧ (x.frame Sample.key.toPublicKey).wrappedKey.length ≤ 100 ∧
        (x.frame Sample.key.toPublicKey).cipherText.length ≤ 100 := by
  intro x log
  obtain ⟨shortcut, hsound⟩ := Rsa.PrivateKey.sound_of_ofText Sample.ofText_text
  have hsize := Sample.size_key
  have hpayload : x.payload.length = 3 := rfl
  have hencodable : (x.frame Sample.key.toPublicKey).Encodable :=
    ⟨by rw [Sealing.frame_wrappedKey_length, hsize]; decide, by rw [Sealing.frame_cipherText_length, hpayload]; decide⟩
  have hopen : decryptBytes Sample.key 100 log = .ok [1, 2, 3] := by
    have hadmitted : ∀ y ∈ [x], y.Admitted Sample.key.toPublicKey 100 := by
      rw [List.forall_mem_singleton, Sealing.Admitted, hpayload, hsize]
      decide
    have hlog := decrypt_layouts hsound Sample.prime_of_mem Sample.fits_key [x] (by simpa using hencodable) hadmitted
    simp only [Sealing.layouts, Sealing.payloads, List.flatMap_cons, List.flatMap_nil, List.append_nil] at hlog
    exact hlog
  exact ⟨hopen, sealings_of_decryptBytes Sample.ofText_text hopen⟩

end Log

end EnvelopeLog

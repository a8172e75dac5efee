import EnvelopeLog.Proofs.Writer.Operation
import EnvelopeLog.Proofs.RoundTrip

/-!
# How much a flush adds

A frame is 36 bytes longer than its payload and a wrapped key. So much is added to the sink by a flush that succeeds, if there
is anything to flush, and a close and a finish that succeed add the same (`Operation.perform_gain`).
-/

namespace EnvelopeLog

variable {σ τ : Type} {S : Sink σ}

namespace Writer

variable {w : Writer} {world : World (Journal σ)}

/-! ## Flushes -/

/-- The frame of what is held is 36 bytes longer than that and a wrapped key. -/
theorem length_of_sealBuffer {w : Writer} {e e' : Entropy} {frame : Bytes} (h : w.sealBuffer e = (.ok frame, e')) :
    frame.length = w.recipient.size + 36 + w.buffer.length := by
  obtain ⟨-, x, hpayload, -, rfl⟩ := (sealed_of_sealBuffer h).exists_sealing
  rw [Frame.layout_length, Frame.size, Sealing.frame_wrappedKey_length, Sealing.frame_nonce_length,
    Sealing.frame_cipherText_length, hpayload, Frame.lengthSize, KeyMaterial.nonceSize, Gcm.tagSize]
  omega

/-- How many bytes a flush that succeeds adds. -/
def gain (w : Writer) : Nat := if w.buffer = [] then 0 else w.recipient.size + 36 + w.buffer.length

/-- A frame that was put on the sink is there as a whole. -/
theorem emit_gain {frame : Bytes} {j : Journal σ} {b : Bool} (h : (w.emit S.journaled frame j).1 = .ok b) :
    (w.emit S.journaled frame j).2.2.received.length = j.received.length + frame.length := by
  obtain ⟨made, attempt, hwrite⟩ := S.writeAll_journaled j frame
  unfold emit at h ⊢
  rw [hwrite] at h ⊢
  generalize S.writeAll j.inner frame = answer at attempt h ⊢
  obtain ⟨n, fault, inner⟩ := answer
  cases fault with
  | some fault => cases h
  | none =>
    have htaken : made.flatMap Call.taken = frame := attempt.taken_eq_all
    simp only [S.flush_journaled] at h ⊢
    generalize S.flush inner = answer at h ⊢
    obtain ⟨fault, inner'⟩ := answer
    cases fault with
    | some fault => cases h
    | none => simp [Call.taken, htaken]

/-- A flush that succeeds adds as many bytes as a frame of the buffer has. -/
theorem flush_gain {b : Bool} (h : (w.flush S.journaled world).1 = .ok b) :
    (w.flush S.journaled world).2.2.sink.received.length = world.sink.received.length + w.gain := by
  by_cases hready : Session.Ready w
  · rw [gain, if_neg hready.filled]
    rw [flush_of_ready hready] at h ⊢
    rcases hseal : w.sealBuffer world.entropy with ⟨e | frame, entropy⟩
    · rw [hseal] at h
      cases h
    · rw [hseal] at h
      dsimp only at h ⊢
      rw [emit_gain h, length_of_sealBuffer hseal]
  · rw [flush_of_not_ready hready] at h ⊢
    have hempty : w.buffer = [] := by
      simp only [idleAnswer] at h
      split at h
      · cases h
      · split at h
        · assumption
        · cases h
    rw [gain, if_pos hempty, Nat.add_zero]

/-- Finishing that succeeds adds as many bytes as a flush. -/
theorem finish_gain (h : (w.finish S.journaled world).1 = .ok ()) :
    (w.finish S.journaled world).2.sink.received.length = world.sink.received.length + w.gain := by
  have hgain {b : Bool} : (w.flush S.journaled world).1 = .ok b →
      (w.flush S.journaled world).2.2.sink.received.length = world.sink.received.length + w.gain := flush_gain
  unfold finish at h ⊢
  generalize w.flush S.journaled world = answer at h hgain ⊢
  obtain ⟨result, w', after⟩ := answer
  cases result with
  | error e => cases h
  | ok b => exact hgain rfl

/-! ## Closes -/

/-- Whom a writer seals for, and that it holds nothing once it is closed. -/
structure Settled (recipient : Rsa.PublicKey) (w : Writer) : Prop where
  recipient : w.recipient = recipient
  emptied : w.closed = true → w.buffer = []

/-- Closing that succeeds adds as many bytes as a flush. -/
theorem close_gain {recipient : Rsa.PublicKey} (hw : w.Settled recipient) (h : (w.close S.journaled world).1 = .ok ()) :
    (w.close S.journaled world).2.2.sink.received.length = world.sink.received.length + w.gain := by
  cases hc : w.closed with
  | true => rw [close_of_closed hc, gain, if_pos (hw.emptied hc), Nat.add_zero]
  | false =>
    have hrelease (j : Journal σ) : (S.journaled.release j).received = j.received := by
      simp [Sink.journaled, Call.taken]
    rw [close_of_open hc] at h ⊢
    dsimp only at h ⊢
    rw [hrelease]
    by_cases hidle : w.poisoned = true ∧ w.buffer = []
    · rw [flush_of_not_ready fun hready => hready.filled hidle.2, gain, if_pos hidle.2, Nat.add_zero]
    · rw [if_neg hidle] at h
      cases hresult : (w.flush S.journaled world).1 with
      | error e =>
        rw [hresult] at h
        cases h
      | ok b => exact flush_gain hresult

/-- Putting a frame on a sink changes neither the recipient nor whether the writer is closed. -/
theorem emit_settled {recipient : Rsa.PublicKey} (hw : w.recipient = recipient) (hopen : w.closed = false) (T : Sink τ)
    (frame : Bytes) (t : τ) :
    (w.emit T frame t).2.1.recipient = recipient ∧ (w.emit T frame t).2.1.closed = false := by
  unfold emit
  rcases T.writeAll t frame with ⟨n, _ | fault, t'⟩
  · dsimp only
    rcases T.flush t' with ⟨_ | fault, t''⟩ <;> exact ⟨hw, hopen⟩
  · exact ⟨hw, hopen⟩

theorem Settled.flush {recipient : Rsa.PublicKey} (hw : w.Settled recipient) (T : Sink τ) (world : World τ) :
    (w.flush T world).2.1.Settled recipient := by
  by_cases hready : Session.Ready w
  · rw [flush_of_ready hready]
    rcases w.sealBuffer world.entropy with ⟨e | frame, entropy⟩
    · exact hw
    · obtain ⟨hrecipient, hopen⟩ := emit_settled hw.recipient hready.opened T frame world.sink
      exact ⟨hrecipient, fun hclosed => absurd (hopen.symm.trans hclosed) Bool.false_ne_true⟩
  · rw [flush_of_not_ready hready]
    exact hw

theorem Settled.write {recipient : Rsa.PublicKey} (hw : w.Settled recipient) (b : Bytes) :
    (w.write b).2.Settled recipient := by
  unfold Writer.write
  split
  · exact hw
  · split
    · exact hw
    · rename_i hopen
      split
      · exact hw
      · exact ⟨hw.recipient, fun hclosed => absurd hclosed hopen⟩

theorem Settled.close {recipient : Rsa.PublicKey} (hw : w.Settled recipient) (T : Sink τ) (world : World τ) :
    (w.close T world).2.1.Settled recipient := by
  cases hc : w.closed with
  | true =>
    rw [close_of_closed hc]
    exact hw
  | false =>
    rw [close_of_open hc]
    exact ⟨(hw.flush T world).recipient, fun _ => rfl⟩

end Writer

/-! ## Operations -/

namespace Operation

variable {recipient : Rsa.PublicKey} {w : Writer}

/-- What a flush, a close or a finish adds that succeeds. -/
theorem perform_gain (hw : w.Settled recipient) {world : World (Journal σ)} {op : Operation} (hflushes : op.Flushes)
    (h : (op.perform S.journaled w world).1.succeeded = true) :
    (op.perform S.journaled w world).2.2.sink.received.length = world.sink.received.length + w.gain := by
  have hok {α : Type} {r : Except Error α} (hr : r.isOk = true) : ∃ a, r = .ok a := by
    cases r with
    | error e => cases hr
    | ok a => exact ⟨a, rfl⟩
  cases op with
  | write b | writeAll b | inspect | lacking op => exact hflushes.elim
  | drop => cases h
  | flush =>
    cases hresult : (w.flush S.journaled world).1 with
    | error e =>
      simp only [perform, hresult] at h
      cases h
    | ok b => exact Writer.flush_gain hresult
  | flushFrame =>
    obtain ⟨b, hresult⟩ := hok h
    exact Writer.flush_gain hresult
  | close =>
    obtain ⟨⟨⟩, hresult⟩ := hok h
    exact Writer.close_gain hw hresult
  | finish =>
    obtain ⟨⟨⟩, hresult⟩ := hok h
    exact Writer.finish_gain hresult

/-- A writer that is not given up seals for the same recipient as before. -/
theorem perform_settled (hw : w.Settled recipient) (T : Sink τ) (world : World τ) (op : Operation) {v : Writer}
    (h : (op.perform T w world).2.1 = some v) : v.Settled recipient := by
  cases op with
  | write b | writeAll b =>
    obtain rfl := Option.some.inj h
    exact hw.write b
  | flush | flushFrame =>
    obtain rfl := Option.some.inj h
    exact hw.flush T world
  | close =>
    obtain rfl := Option.some.inj h
    exact hw.close T world
  | finish | drop => cases h
  | inspect | lacking op =>
    obtain rfl := Option.some.inj h
    exact hw

end Operation

end EnvelopeLog

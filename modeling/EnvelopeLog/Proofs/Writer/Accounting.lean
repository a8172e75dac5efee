import EnvelopeLog.Proofs.Writer.Session
import Mathlib.Data.List.Forall2

/-!
# Nothing is lost, doubled or reordered

Whatever is done to a writer and however its sink behaves, the sink holds the frames of the segments, whole and in order, and
after them at most a part of one more frame, and then the writer is poisoned. The segments, what was forgotten and what is
still buffered are together what was accepted, in order. This is an invariant of sessions (`Balanced`).
-/

namespace EnvelopeLog

/-- Whether bytes are some but not all of the bytes of the frame that a seal makes of a payload, from its first byte on. -/
def Torn (recipient : Rsa.PublicKey) (byte : Nat → UInt8) (payload tail : Bytes) : Prop :=
  ∃ encoding, Sealed recipient byte payload encoding ∧ tail ≠ [] ∧ tail <+: encoding ∧ tail ≠ encoding

/-- A strict part of a frame, if it has any bytes, is torn. -/
theorem torn_take {recipient : Rsa.PublicKey} {byte : Nat → UInt8} {payload encoding : Bytes} {n : Nat}
    (h : Sealed recipient byte payload encoding) (hpos : 0 < n) (hn : n < encoding.length) :
    Torn recipient byte payload (encoding.take n) := by
  have hlength : (encoding.take n).length = n := by rw [List.length_take]; omega
  refine ⟨encoding, h, ?_, List.take_prefix n encoding, ?_⟩
  · exact List.ne_nil_of_length_pos (by omega)
  · intro heq
    rw [heq] at hlength
    omega

namespace Session

variable {σ : Type} {recipient : Rsa.PublicKey} {byte : Nat → UInt8} {s : Session σ}

/-- Whether the sink holds the frames that seals made of the segments, and nothing else. -/
def Whole (recipient : Rsa.PublicKey) (byte : Nat → UInt8) (s : Session σ) : Prop :=
  ∃ encodings, List.Forall₂ (Sealed recipient byte) s.segments encodings ∧ s.received = encodings.flatten

/-- What holds of every session: where the accepted bytes are, and what the sink holds. -/
structure Balanced (recipient : Rsa.PublicKey) (byte : Nat → UInt8) (s : Session σ) : Prop where
  recipient_eq : s.writer.recipient = recipient
  byte_eq : s.world.entropy.byte = byte
  accepted : s.accepted = s.segments.flatten ++ s.discarded ++ s.writer.buffer
  of_open : s.writer.closed = false → s.discarded = []
  of_closed : s.writer.closed = true → s.writer.buffer = []
  filled : ∀ p ∈ s.segments, p ≠ []
  frames : s.segments.length = s.writer.frames
  received : ∃ encodings tail, List.Forall₂ (Sealed recipient byte) s.segments encodings ∧
    s.received = encodings.flatten ++ tail ∧
    (tail = [] ∨ s.writer.poisoned = true ∧ Torn recipient byte (s.discarded ++ s.writer.buffer) tail)

/-- To let go of the sink adds no byte. -/
theorem received_shut (S : Sink σ) (s : Session σ) : (s.shut S).received = s.received := by
  simp [received, shut, Sink.journaled, Call.taken]

namespace Balanced

theorem start (recipient : Rsa.PublicKey) (inner : σ) (entropy : Entropy) :
    Balanced recipient entropy.byte (start recipient inner entropy) where
  recipient_eq := rfl
  byte_eq := rfl
  accepted := rfl
  of_open _ := rfl
  of_closed _ := rfl
  filled := by simp [Session.start]
  frames := rfl
  received := ⟨[], [], .nil, rfl, .inl rfl⟩

/-- The sink of a writer that is not poisoned holds whole frames only. -/
theorem whole_of_unpoisoned (h : Balanced recipient byte s) (hp : s.writer.poisoned = false) :
    Whole recipient byte s := by
  obtain ⟨encodings, tail, hsealed, hreceived, rfl | ⟨hpoisoned, -⟩⟩ := h.received
  · exact ⟨encodings, hsealed, by rw [hreceived, List.append_nil]⟩
  · rw [hp] at hpoisoned
    cases hpoisoned

/-- A write keeps the balance, whatever it is answered. -/
theorem write (h : Balanced recipient byte s) (b : Bytes) : Balanced recipient byte (s.write b).2 := by
  rw [write_eq]
  split
  · exact h
  split
  · exact h
  rename_i hopen
  split
  · exact h
  rename_i hunpoisoned
  rw [Bool.not_eq_true] at hopen hunpoisoned
  obtain ⟨encodings, hsealed, hreceived⟩ := h.whole_of_unpoisoned hunpoisoned
  exact {
    recipient_eq := h.recipient_eq
    byte_eq := h.byte_eq
    accepted := by rw [h.accepted, List.append_assoc]
    of_open := h.of_open
    of_closed := fun hclosed => absurd (hopen.symm.trans hclosed) Bool.false_ne_true
    filled := h.filled
    frames := h.frames
    received := ⟨encodings, [], hsealed, by rw [List.append_nil]; exact hreceived, .inl rfl⟩ }

/-- With a frame that was written whole, the sink holds whole frames only. -/
theorem whole_emitted (h : Balanced recipient byte s) (ready : Ready s.writer) {frame : Bytes} {entropy : Entropy}
    (hseal : s.writer.sealBuffer s.world.entropy = (.ok frame, entropy)) {made : List Call}
    (htaken : made.flatMap Call.taken = frame) (fault : Option IoFault) (poisoned : Bool) (inner : σ) :
    Whole recipient byte (s.emitted poisoned (made ++ [.flush fault]) inner entropy) := by
  obtain ⟨encodings, hsealed, hreceived⟩ := h.whole_of_unpoisoned ready.unpoisoned
  have hframe := Writer.sealed_of_sealBuffer hseal
  rw [h.recipient_eq, h.byte_eq] at hframe
  refine ⟨encodings ++ [frame], List.rel_append hsealed (.cons hframe .nil), ?_⟩
  rw [s.received_emitted htaken, hreceived, List.flatten_concat]

/-- A frame that was written whole makes what was buffered the last segment. -/
theorem emitted (h : Balanced recipient byte s) (ready : Ready s.writer) {frame : Bytes} {entropy : Entropy}
    (hseal : s.writer.sealBuffer s.world.entropy = (.ok frame, entropy)) {made : List Call}
    (htaken : made.flatMap Call.taken = frame) (fault : Option IoFault) (inner : σ) :
    Balanced recipient byte (s.emitted fault.isSome (made ++ [.flush fault]) inner entropy) where
  recipient_eq := h.recipient_eq
  byte_eq := (Writer.byte_of_sealBuffer hseal).trans h.byte_eq
  accepted := by simp [Session.emitted, h.accepted, h.of_open ready.opened]
  of_open := h.of_open
  of_closed _ := rfl
  filled p hp := by
    rcases List.mem_append.mp hp with hp | hp
    · exact h.filled p hp
    · rw [List.mem_singleton.mp hp]
      exact ready.filled
  frames := by simp [Session.emitted, h.frames]
  received := by
    obtain ⟨encodings, hsealed, hreceived⟩ := h.whole_emitted ready hseal htaken fault fault.isSome inner
    exact ⟨encodings, [], hsealed, by rw [hreceived, List.append_nil], .inl rfl⟩

/-- A frame that was broken off leaves a torn one, unless the sink took none of its bytes. -/
theorem refused (h : Balanced recipient byte s) (ready : Ready s.writer) {frame : Bytes} {entropy : Entropy}
    (hseal : s.writer.sealBuffer s.world.entropy = (.ok frame, entropy)) {made : List Call} {n : Nat}
    (htaken : made.flatMap Call.taken = frame.take n) (hshort : n < frame.length) (inner : σ) :
    Balanced recipient byte (s.refused (decide (0 < n)) made inner entropy) where
  recipient_eq := h.recipient_eq
  byte_eq := (Writer.byte_of_sealBuffer hseal).trans h.byte_eq
  accepted := h.accepted
  of_open := h.of_open
  of_closed := h.of_closed
  filled := h.filled
  frames := h.frames
  received := by
    obtain ⟨encodings, hsealed, hreceived⟩ := h.whole_of_unpoisoned ready.unpoisoned
    have hframe := Writer.sealed_of_sealBuffer hseal
    rw [h.recipient_eq, h.byte_eq] at hframe
    refine ⟨encodings, frame.take n, hsealed, ?_, ?_⟩
    · rw [Session.received, Session.refused, Journal.received_note, ← Session.received, hreceived, htaken]
    · rcases Nat.eq_zero_or_pos n with rfl | hpos
      · exact .inl rfl
      · refine .inr ⟨decide_eq_true hpos, ?_⟩
        simpa [Session.refused, h.of_open ready.opened] using torn_take hframe hpos hshort

/-- A flush keeps the balance, whatever becomes of the frame. -/
theorem flush (S : Sink σ) (h : Balanced recipient byte s) : Balanced recipient byte (s.flush S).2 := by
  have hflush := s.flushing S
  generalize s.flush S = outcome at hflush ⊢
  cases hflush with
  | poisoned | idle | closed => exact h
  | unsealed ready hseal => exact { h with byte_eq := (Writer.byte_of_sealBuffer hseal).trans h.byte_eq }
  | whole fault inner ready hseal attempt => exact h.emitted ready hseal attempt.taken_eq_all fault inner
  | broken inner ready hseal attempt => exact h.refused ready hseal attempt.taken_eq attempt.lt_length inner

/-- What is forgotten with an open writer is what was buffered. -/
theorem shut (S : Sink σ) (h : Balanced recipient byte s) (hopen : s.writer.closed = false) :
    Balanced recipient byte (s.shut S) where
  recipient_eq := h.recipient_eq
  byte_eq := h.byte_eq
  accepted := by simp [Session.shut, h.accepted]
  of_open := nofun
  of_closed _ := rfl
  filled := h.filled
  frames := h.frames
  received := by
    obtain ⟨encodings, tail, hsealed, hreceived, htail⟩ := h.received
    refine ⟨encodings, tail, hsealed, (received_shut S s).trans hreceived, ?_⟩
    simpa [Session.shut, h.of_open hopen] using htail

/-- Every session that begins with nothing written is balanced. -/
theorem run (S : Sink σ) (h : Balanced recipient byte s) (steps : List (Step σ)) :
    Balanced recipient byte (s.run S steps) :=
  run_induction S (fun _ b h => h.write b) (fun _ h => h.flush S) (fun _ hopen h => h.shut S hopen)
    (fun _ _ h => { h with }) h steps

end Balanced

/-! ## Closing without loss -/

/-- A close that goes well finds nothing to forget after its flush. -/
theorem buffer_of_close (S : Sink σ) (hopen : s.writer.closed = false) (hok : (s.close S).1 = .ok ()) :
    (s.flush S).2.writer.buffer = [] := by
  rw [s.close_of_open S hopen] at hok
  have hflush := s.flushing S
  generalize s.flush S = outcome at hflush hok ⊢
  cases hflush with
  | poisoned hpoisoned =>
    by_cases hb : s.writer.buffer = []
    · exact hb
    · simp [hb, Except.map] at hok
  | idle _ hb => exact hb
  | closed _ hclosed =>
    rw [hopen] at hclosed
    cases hclosed
  | unsealed ready _ => simp [ready.unpoisoned, Except.map] at hok
  | whole _ _ ready => rfl
  | broken _ ready => simp [ready.unpoisoned, Except.map] at hok

/-- A session after a close that went well. -/
structure Complete (s : Session σ) : Prop where
  closed : s.writer.closed = true
  nothing_buffered : s.writer.buffer = []
  nothing_discarded : s.discarded = []

/-- Closing that succeeds leaves nothing that is not on the sink. -/
theorem Balanced.complete (h : Balanced recipient byte s) (S : Sink σ) (hopen : s.writer.closed = false)
    (hok : (s.close S).1 = .ok ()) : Complete (s.close S).2 := by
  have hbuffer := buffer_of_close S hopen hok
  have hdiscarded := (h.flush S).of_open ((s.flush_writer S).1.trans hopen)
  rw [s.close_of_open S hopen]
  exact ⟨rfl, rfl, by rw [Session.shut, hbuffer, hdiscarded]; rfl⟩

/-- Nothing that is done later brings anything back into the buffer or forgets anything. -/
theorem Complete.run (S : Sink σ) (h : Complete s) (steps : List (Step σ)) : Complete (s.run S steps) := by
  refine run_induction S ?_ ?_ ?_ (fun _ _ h => ⟨h.closed, h.nothing_buffered, h.nothing_discarded⟩) h steps
  · intro s b h
    rw [write_eq]
    split
    · exact h
    · rw [if_pos h.closed]
      exact h
  · intro s h
    have hflush := s.flushing S
    generalize s.flush S = outcome at hflush ⊢
    cases hflush with
    | poisoned | idle | closed => exact h
    | unsealed ready | whole _ _ ready | broken _ ready => exact absurd h.nothing_buffered ready.filled
  · intro s hopen h
    exact absurd (hopen.symm.trans h.closed) Bool.false_ne_true

/-- Whatever is done to a writer and however its sink behaves, the segments are as many as the frames and none is empty; the
sink holds the frames that seals made of them, in order, and after them nothing or, if the writer is poisoned, a part of one
more frame; while the writer is open, the segments and the buffer are what was accepted; and once an open writer was closed
without a fault, the segments are. -/
theorem run_accounts (S : Sink σ) (recipient : Rsa.PublicKey) (inner : σ) (entropy : Entropy) (steps : List (Step σ)) :
    let s := (start recipient inner entropy).run S steps
    (∀ p ∈ s.segments, p ≠ []) ∧ s.segments.length = s.writer.frames ∧
    (∃ encodings tail, List.Forall₂ (Sealed recipient entropy.byte) s.segments encodings ∧
      s.received = encodings.flatten ++ tail ∧
      (tail = [] ∨ s.writer.poisoned = true ∧ Torn recipient entropy.byte (s.discarded ++ s.writer.buffer) tail)) ∧
    (s.writer.closed = false → s.segments.flatten ++ s.writer.buffer = s.accepted) ∧
    ∀ before after, steps = before ++ .close :: after →
      ((start recipient inner entropy).run S before).writer.closed = false →
      (((start recipient inner entropy).run S before).close S).1 = .ok () → s.segments.flatten = s.accepted := by
  intro s
  have hbalanced : Balanced recipient entropy.byte s := (Balanced.start recipient inner entropy).run S steps
  refine ⟨hbalanced.filled, hbalanced.frames, hbalanced.received, ?_, ?_⟩
  · intro hopen
    rw [hbalanced.accepted, hbalanced.of_open hopen, List.append_nil]
  · intro before after hsteps hopen hok
    have hclose := ((Balanced.start recipient inner entropy).run S before).complete S hopen hok
    have hcomplete : Complete s := by
      change Complete ((start recipient inner entropy).run S steps)
      rw [hsteps, run_append]
      exact hclose.run S after
    rw [hbalanced.accepted, hcomplete.nothing_buffered, hcomplete.nothing_discarded, List.append_nil, List.append_nil]

end Session

end EnvelopeLog

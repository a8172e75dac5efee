import EnvelopeLog.Proofs.Wrapping
import EnvelopeLog.Proofs.Writer.Operation
import EnvelopeLog.Sink.Script

/-!
# Flushes that are tried again

A flush that fails without poisoning the writer leaves the sink and the writer as they were, whether the seal failed or the
sink refused the first byte. So may any number of flushes fail, with writes between them (`Stalled`): all that happens is that
more is held (`Waited`), and the first flush that succeeds puts one frame of all that is held on the sink.
-/

namespace EnvelopeLog

variable {σ : Type}

/-- Whether a call is a flush. -/
def Call.isFlush : Call → Bool
  | .flush _ => true
  | _ => false

/-- How often a sink was flushed. -/
def Journal.flushes (j : Journal σ) : Nat := j.calls.countP Call.isFlush

/-- An attempt to write does not flush. -/
theorem Attempt.flushes_eq_zero {b : Bytes} {made : List Call} {n : Nat} {fault : Option IoFault}
    (h : Attempt b made n fault) : made.countP Call.isFlush = 0 := by
  rw [List.countP_eq_zero]
  intro c hc
  have hwrite := h.isWrite c hc
  cases c with
  | write offered reply => exact Bool.false_ne_true
  | flush fault => exact hwrite.elim
  | release => exact hwrite.elim

/-- Whether a step is a flush. -/
def Step.IsFlush : Step σ → Prop
  | .flush | .flushFrame => True
  | _ => False

/-- What a step offers to be written. -/
def Step.offered : Step σ → Bytes
  | .write b | .writeAll b => b
  | _ => []

namespace Script

/-- A sink that accepts no more bytes takes none, however often it interrupts first. -/
theorem writeAll_full {s : Script} (h : s.budget = some 0) (b : Bytes) : (sink.writeAll s b).1 = 0 := by
  by_cases hb : b = []
  · rw [hb, Sink.writeAll_nil]
  induction hi : s.interrupts generalizing s with
  | zero =>
    obtain ⟨reply, fault, hw, hfault⟩ :
        ∃ reply fault, sink.write s b = (reply, s) ∧ (Call.write b reply).fault? = some fault := by
      simp only [sink, write, hi, if_pos h]
      split
      · exact ⟨_, _, rfl, rfl⟩
      · exact ⟨_, _, rfl, rfl⟩
    rw [sink.writeAll_failed hb hw hfault]
  | succ n ih =>
    have hw : sink.write s b = (.interrupted, { s with interrupts := n }) := by simp only [sink, write, hi]
    rw [sink.writeAll_interrupted hb hw]
    exact ih h rfl

/-- A sink without a plan takes everything. -/
theorem writeAll_unplanned (b : Bytes) : (sink.writeAll {} b).2 = (none, {}) := by
  by_cases hb : b = []
  · rw [hb, Sink.writeAll_nil]
  obtain ⟨n, hn⟩ : ∃ n, b.length = n + 1 := Nat.exists_eq_succ_of_ne_zero (mt List.length_eq_zero_iff.mp hb)
  have hw : sink.write {} b = (.took (n + 1), {}) := by simp [sink, write, allowance, hn]
  rw [sink.writeAll_took hb hw, ← hn, List.drop_length, Sink.writeAll_nil]

end Script

namespace Session

variable {S : Sink σ} {s t u : Session σ}

/-! ## One flush -/

/-- Both ways to flush come to the same. -/
theorem step_of_isFlush (S : Sink σ) (s : Session σ) {x : Step σ} (hx : x.IsFlush) :
    (s.step S x).1.isOk = (s.flush S).1.isOk ∧ (s.step S x).2 = (s.flush S).2 := by
  cases x with
  | write b | writeAll b | close | change f => exact hx.elim
  | flush =>
    refine ⟨?_, rfl⟩
    rw [step]
    cases (s.flush S).1 <;> rfl
  | flushFrame => exact ⟨rfl, rfl⟩

/-- What came of waiting: the writer holds more, and the sink is as it was. -/
structure Waited (s t : Session σ) (b : Bytes) : Prop where
  writer : t.writer = { s.writer with buffer := s.writer.buffer ++ b }
  received : t.received = s.received
  flushes : t.world.sink.flushes = s.world.sink.flushes
  byte : t.world.entropy.byte = s.world.entropy.byte

namespace Waited

theorem refl (s : Session σ) : Waited s s [] := ⟨by rw [List.append_nil], rfl, rfl, rfl⟩

theorem trans {b c : Bytes} (h : Waited s t b) (h' : Waited t u c) : Waited s u (b ++ c) where
  writer := by rw [h'.writer, h.writer, List.append_assoc]
  received := h'.received.trans h.received
  flushes := h'.flushes.trans h.flushes
  byte := h'.byte.trans h.byte

/-- A writer that waits stays ready. -/
theorem ready {b : Bytes} (h : Waited s t b) (hready : Ready s.writer) : Ready t.writer := by
  rw [h.writer]
  exact ⟨hready.unpoisoned, by simp [hready.filled], hready.opened⟩

end Waited

/-- A flush that fails without poisoning the writer leaves it and the sink as they were. Once the frame is on the sink, the
flush succeeds or the writer is poisoned. -/
theorem flush_waited (hready : Ready s.writer) (hfails : (s.flush S).1.isOk = false)
    (hp : (s.flush S).2.writer.poisoned = false) : Waited s (s.flush S).2 [] := by
  have hflush := s.flushing S
  generalize s.flush S = outcome at hflush hfails hp ⊢
  cases hflush with
  | poisoned | idle | closed => exact .refl s
  | unsealed _ hseal => exact { Waited.refl s with byte := Writer.byte_of_sealBuffer hseal }
  | whole fault inner _ hseal attempt =>
    cases fault with
    | none => cases hfails
    | some fault => cases hp
  | @broken _ _ made n _ inner _ hseal attempt =>
    have hn : n = 0 := by simpa [refused] using hp
    subst hn
    have htaken : made.flatMap Call.taken = [] := attempt.taken_eq
    refine ⟨?_, ?_, ?_, Writer.byte_of_sealBuffer hseal⟩
    · simp [refused, ← hready.unpoisoned]
    · simp [received, refused, htaken]
    · simp [Journal.flushes, refused, attempt.flushes_eq_zero]

/-- A flush fails without poisoning the writer exactly if there is no frame of what is held, for example because the recipient's
modulus leaves no room for a key, or if the sink takes no byte of it. -/
theorem flush_fails_iff (S : Sink σ) (hready : Ready s.writer) :
    (s.flush S).1.isOk = false ∧ (s.flush S).2.writer.poisoned = false ↔
      ∀ frame, (s.writer.sealBuffer s.world.entropy).1 = .ok frame → (S.writeAll s.world.sink.inner frame).1 = 0 := by
  rw [flush, track_writer, Writer.flush_of_ready hready]
  rcases hseal : s.writer.sealBuffer s.world.entropy with ⟨e | frame, entropy⟩
  · simp [hready.unpoisoned, Except.isOk, Except.toBool]
  have hne := (Writer.sealed_of_sealBuffer hseal).ne_nil
  obtain ⟨made, attempt, hwrite⟩ := S.writeAll_journaled s.world.sink frame
  simp only [Except.ok.injEq, forall_eq', Writer.emit, hwrite]
  generalize S.writeAll s.world.sink.inner frame = answer at attempt
  obtain ⟨n, fault, inner⟩ := answer
  cases fault with
  | some fault =>
    simp [Except.isOk, Except.toBool]
  | none =>
    have hn : n ≠ 0 := by
      cases attempt with
      | whole => exact (List.length_pos_iff.mpr hne).ne'
    simp only [hn, iff_false, not_and]
    rcases S.journaled.flush (s.world.sink.note made inner) with ⟨_ | fault, sink⟩
    · exact fun h => absurd h (by simp [Except.isOk, Except.toBool])
    · exact fun _ => Bool.true_eq_false.mp

/-- Whether there is a frame of what is held and the sink would take all of it and let itself be flushed. -/
def Flushable (S : Sink σ) (s : Session σ) : Prop :=
  ∃ frame, (s.writer.sealBuffer s.world.entropy).1 = .ok frame ∧
    (S.writeAll s.world.sink.inner frame).2.1 = none ∧
    (S.flush (S.writeAll s.world.sink.inner frame).2.2).1 = none

/-- A flush succeeds exactly if nothing of it fails now: earlier failures do not count. -/
theorem flush_isOk_iff (S : Sink σ) (hready : Ready s.writer) : (s.flush S).1.isOk = true ↔ s.Flushable S := by
  rw [flush, Writer.flush_of_ready hready, Flushable]
  rcases hseal : s.writer.sealBuffer s.world.entropy with ⟨e | frame, entropy⟩
  · simp [Except.isOk, Except.toBool]
  obtain ⟨made, -, hwrite⟩ := S.writeAll_journaled s.world.sink frame
  simp only [Except.ok.injEq, exists_eq_left', Writer.emit, hwrite]
  generalize S.writeAll s.world.sink.inner frame = answer
  obtain ⟨n, fault, inner⟩ := answer
  cases fault with
  | some fault => simp [Except.isOk, Except.toBool]
  | none =>
    have hflush := S.flush_journaled s.world.sink made inner
    simp only [hflush, true_and]
    cases (S.flush inner).1 <;> simp [Except.isOk, Except.toBool]

/-! ## Any number of flushes -/

/-- Whether a step is a write, a change of the sink, or a flush that fails without poisoning the writer. -/
def Stalls (S : Sink σ) (s : Session σ) (x : Step σ) : Prop :=
  x ≠ .close ∧ (x.IsFlush → (s.step S x).1.isOk = false ∧ (s.step S x).2.writer.poisoned = false)

/-- Whether no step brings a frame onto the sink or tears one, or closes the writer. -/
inductive Stalled (S : Sink σ) : Session σ → List (Step σ) → Prop
  | nil (s : Session σ) : Stalled S s []
  | cons {s : Session σ} {x : Step σ} {steps : List (Step σ)} (first : s.Stalls S x)
      (rest : Stalled S (s.step S x).2 steps) : Stalled S s (x :: steps)

/-- A write only makes the buffer longer. -/
theorem write_waited (hready : Ready s.writer) (b : Bytes) : Waited s (s.write b).2 b := by
  rw [write_eq]
  split
  · rename_i hb
    rw [hb]
    exact .refl s
  · rw [if_neg (by simp [hready.opened]), if_neg (by simp [hready.unpoisoned])]
    exact ⟨rfl, rfl, rfl, rfl⟩

/-- A step that stalls only makes the buffer longer, if anything. -/
theorem Stalls.waited {x : Step σ} (h : s.Stalls S x) (hready : Ready s.writer) :
    Waited s (s.step S x).2 x.offered := by
  cases x with
  | write b => exact write_waited hready b
  | writeAll b => exact write_waited hready b
  | flush =>
    obtain ⟨hok, hsession⟩ := s.step_of_isFlush S (x := .flush) trivial
    obtain ⟨hfails, hp⟩ := h.2 trivial
    rw [hsession] at hp ⊢
    exact flush_waited hready (hok.symm.trans hfails) hp
  | flushFrame => exact flush_waited hready (h.2 trivial).1 (h.2 trivial).2
  | close => exact absurd rfl h.1
  | change f => exact { Waited.refl s with }

/-- All that comes of steps that bring no frame is that what is written meanwhile is held too. -/
theorem Stalled.waited {steps : List (Step σ)} (h : Stalled S s steps) (hready : Ready s.writer) :
    Waited s (s.run S steps) (steps.flatMap Step.offered) := by
  induction h with
  | nil s => exact .refl s
  | cons first rest ih =>
    have hfirst := first.waited hready
    exact hfirst.trans (ih (hfirst.ready hready))

/-- A flush that succeeds puts one frame of what is held on the sink. -/
theorem flush_emits (hready : Ready s.writer) (hok : (s.flush S).1.isOk = true) :
    (s.flush S).1 = .ok true ∧ ∃ frame,
      Sealed s.writer.recipient s.world.entropy.byte s.writer.buffer frame ∧
      (s.flush S).2.received = s.received ++ frame ∧
      (s.flush S).2.world.sink.flushes = s.world.sink.flushes + 1 ∧
      (s.flush S).2.writer = { s.writer with buffer := [], frames := s.writer.frames + 1 } := by
  cases hresult : (s.flush S).1 with
  | error e =>
    rw [hresult] at hok
    cases hok
  | ok b =>
    obtain ⟨-, hempty, -⟩ | ⟨rfl, -, frame, made, n, inner, entropy, hsealed, attempt, hemitted⟩ := flush_ok S hresult
    · exact absurd hempty hready.filled
    · refine ⟨rfl, frame, hsealed, ?_⟩
      rw [hemitted, s.received_emitted attempt.taken_eq_all]
      refine ⟨rfl, ?_, ?_⟩
      · simp [Journal.flushes, emitted, attempt.flushes_eq_zero, Call.isFlush]
      · simp [emitted, hready.unpoisoned]

/-- While flushes of an open writer that holds something fail without poisoning it, the sink's bytes and flushes, what is held,
the count of frames and that the writer is open stay as they are, but for what is written meanwhile, which is held too. The
next flush succeeds exactly if there is a frame to be written and the sink takes it. Then it puts one frame on the sink, of what
was held at first and what was written since; otherwise it poisons the writer or changes nothing again. -/
theorem flush_retries (hready : Ready s.writer) {steps : List (Step σ)} (hsteps : Stalled S s steps) :
    let t := s.run S steps
    let held := s.writer.buffer ++ steps.flatMap Step.offered
    t.writer = { s.writer with buffer := held } ∧ t.received = s.received ∧
    t.world.sink.flushes = s.world.sink.flushes ∧
    ∀ x : Step σ, x.IsFlush →
      ((t.step S x).1.isOk = true ↔ t.Flushable S) ∧
      ((t.step S x).1.isOk = false → (t.step S x).2.writer.poisoned = false →
        (t.step S x).2.writer = t.writer ∧ (t.step S x).2.received = t.received ∧
        (t.step S x).2.world.sink.flushes = t.world.sink.flushes) ∧
      ((t.step S x).1.isOk = true → ∃ frame,
        Sealed s.writer.recipient s.world.entropy.byte held frame ∧
        (t.step S x).2.received = s.received ++ frame ∧
        (t.step S x).2.world.sink.flushes = s.world.sink.flushes + 1 ∧
        (t.step S x).2.writer = { s.writer with buffer := [], frames := s.writer.frames + 1 }) := by
  intro t held
  have hwaited : Waited s t (steps.flatMap Step.offered) := hsteps.waited hready
  have ht := hwaited.ready hready
  refine ⟨hwaited.writer, hwaited.received, hwaited.flushes, fun x hx => ?_⟩
  obtain ⟨hok, hsession⟩ := t.step_of_isFlush S hx
  rw [hok, hsession]
  refine ⟨flush_isOk_iff S ht, fun hfails hp => ?_, fun hok => ?_⟩
  · have hsame := flush_waited ht hfails hp
    refine ⟨?_, hsame.received, hsame.flushes⟩
    rw [hsame.writer, List.append_nil]
  · obtain ⟨-, frame, hsealed, hreceived, hflushes, hwriter⟩ := flush_emits ht hok
    rw [hwaited.byte] at hsealed
    rw [hwaited.writer] at hsealed hwriter
    exact ⟨frame, hsealed, by rw [hreceived, hwaited.received], by rw [hflushes, hwaited.flushes], hwriter⟩

/-- A sink that refuses the first byte of two flushes, each in its way, before it is given room. -/
theorem flush_retries_sample :
    let S := Script.sink
    let s := (start Sample.key.toPublicKey { budget := some 0 } (.cycle [7])).run S [.write [1, 2, 3]]
    let steps : List (Step Script) := [.flush, .write [4],
      .change fun _ => { budget := some 0, interrupts := 2, whenFull := .takesNothing }, .flushFrame, .change fun _ => {}]
    let t := s.run S steps
    Ready s.writer ∧ Stalled S s steps ∧ (t.step S .flush).1.isOk = true ∧ t.writer.buffer = [1, 2, 3, 4] ∧
    ∃ frame, Sealed Sample.key.toPublicKey (Entropy.cycle [7]).byte [1, 2, 3, 4] frame ∧
      (t.step S .flush).2.received = frame ∧ (t.step S .flush).2.writer.frames = 1 := by
  intro S s steps t
  have hready : Ready s.writer := ⟨rfl, List.cons_ne_nil _ _, rfl⟩
  have hfull (u : Session Script) (hu : Ready u.writer) (hbudget : u.world.sink.inner.budget = some 0) {x : Step Script}
      (hx : x.IsFlush) : u.Stalls S x := by
    obtain ⟨hok, hsession⟩ := u.step_of_isFlush S hx
    refine ⟨fun h => (h ▸ hx : Step.IsFlush .close), fun _ => ?_⟩
    rw [hok, hsession]
    exact (flush_fails_iff S hu).mpr fun frame _ => Script.writeAll_full hbudget frame
  have hwrite (u : Session Script) (b : Bytes) : u.Stalls S (.write b) := ⟨nofun, False.elim⟩
  have hchange (u : Session Script) (f : Script → Script) : u.Stalls S (.change f) := ⟨nofun, False.elim⟩
  have hrefilled (u : Session Script) (hu : Ready u.writer) :
      (u.step S (.change fun _ => { budget := some 0, interrupts := 2, whenFull := .takesNothing })).2.Stalls S .flushFrame :=
    hfull (u.change _) hu rfl trivial
  have hstalled : Stalled S s steps := by
    have hfirst := hfull s hready rfl (x := .flush) trivial
    have hready₁ := (hfirst.waited hready).ready hready
    have hready₂ := (write_waited hready₁ [4]).ready hready₁
    exact .cons hfirst <| .cons (hwrite _ _) <| .cons (hchange _ _) <| .cons (hrefilled _ hready₂) <|
      .cons (hchange _ _) (.nil _)
  obtain ⟨hwriter, -, -, hnext⟩ := flush_retries hready hstalled
  have hflushable : t.Flushable S := by
    have hrecipient : t.writer.recipient = Sample.key.toPublicKey := by rw [hwriter]; rfl
    have hbuffer : t.writer.buffer = [1, 2, 3, 4] := by rw [hwriter]; rfl
    obtain ⟨frame, entropy, hseal⟩ := Writer.sealBuffer_succeeds (w := t.writer) (by rw [hrecipient]; exact Sample.fits_key)
      (by rw [hrecipient]; exact Sample.size_key_lt) (by rw [hbuffer]; decide) t.world.entropy
    refine ⟨frame, congrArg Prod.fst hseal, ?_⟩
    have hinner : t.world.sink.inner = {} := rfl
    rw [hinner, Script.writeAll_unplanned]
    exact ⟨rfl, rfl⟩
  obtain ⟨hiff, -, hemits⟩ := hnext .flush trivial
  have hsucceeds := hiff.mpr hflushable
  obtain ⟨frame, hsealed, hframe, -, hafter⟩ := hemits hsucceeds
  refine ⟨hready, hstalled, hsucceeds, by rw [hwriter]; rfl, frame, hsealed, hframe, by rw [hafter]; rfl⟩

end Session

end EnvelopeLog

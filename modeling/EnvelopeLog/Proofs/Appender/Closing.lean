import EnvelopeLog.Proofs.Appender.Failures

/-!
# Closings that fail

A writer is closed by a close, by being finished, or with the appender that it belongs to, and whoever does so is told if the last
flush failed. A close tries once: the call that fails is the last one before the sink is let go of. A finish that fails, and an
appender whose flush fails, leave it to the drop of the writer to close it, and that flushes again unless the writer is poisoned.
So what was reported as not written is tried a second time exactly if the sink took nothing of it the first time
(`closing_failure`).
-/

namespace EnvelopeLog

/-- Whether calls end with the first one that fails. There is none if it did not come to a call. -/
def BreaksOff (made : List Call) : Prop :=
  made = [] ∨ ∃ before last, made = before ++ [last] ∧ (∀ c ∈ before, c.Passes) ∧ last.fault?.isSome

namespace Session

variable {σ : Type} {S : Sink σ} {s t : Session σ} {world : World (Journal σ)}

/-! ## One attempt -/

/-- The random bytes after so many attempts to seal what the writer holds. -/
def drawnBy (s : Session σ) (attempts : Nat) : Entropy :=
  { s.world.entropy with drawn := s.world.entropy.drawn + attempts * s.writer.recipient.sealWidth }

/-- What a flush of a writer that is ready comes to: one attempt to seal, and the calls that follow from it. -/
structure Tries (s : Session σ) (outcome : Except Error Bool × Session σ) (made : List Call) : Prop where
  calls : outcome.2.world.sink.calls = s.world.sink.calls ++ made
  entropy : outcome.2.world.entropy = s.drawnBy 1
  whole : ∀ b, outcome.1 = .ok b →
    Sealed s.writer.recipient s.world.entropy.byte s.writer.buffer (made.flatMap Call.taken)
  broken : ∀ e, outcome.1 = .error e → BreaksOff made ∧
    (outcome.2.writer.poisoned = true ∧ made.flatMap Call.taken ≠ [] ∨
      outcome.2.writer = s.writer ∧ made.flatMap Call.taken = [])

/-- A flush of a writer that is ready makes one attempt. -/
theorem exists_tries (S : Sink σ) (hready : Ready s.writer) : ∃ made, Tries s (s.flush S) made := by
  have hdrawn {result : Except Error Bytes} {entropy : Entropy}
      (hseal : s.writer.sealBuffer s.world.entropy = (result, entropy)) : entropy = s.drawnBy 1 := by
    have heq := congrArg Prod.snd ((s.writer.sealBuffer_eq s.world.entropy).symm.trans hseal)
    rw [drawnBy, Nat.one_mul]
    exact heq.symm
  have hflush := s.flushing S
  generalize s.flush S = outcome at hflush ⊢
  cases hflush with
  | poisoned hpoisoned => exact absurd (hready.unpoisoned.symm.trans hpoisoned) Bool.false_ne_true
  | idle _ hempty => exact absurd hempty hready.filled
  | closed _ hclosed => exact absurd (hready.opened.symm.trans hclosed) Bool.false_ne_true
  | unsealed _ hseal =>
    refine ⟨[], (List.append_nil _).symm, hdrawn hseal, fun b hb => ?_, fun _ _ => ⟨.inl rfl, .inr ⟨rfl, rfl⟩⟩⟩
    cases hb
  | @whole frame _ made _ fault inner _ hseal attempt =>
    have hsealed := Writer.sealed_of_sealBuffer hseal
    have htaken : (made ++ [Call.flush fault]).flatMap Call.taken = frame := by
      simp [attempt.taken_eq_all, Call.taken]
    refine ⟨_, rfl, hdrawn hseal, fun _ _ => by rwa [htaken], fun e herror => ?_⟩
    cases fault with
    | none => cases herror
    | some fault =>
      cases attempt with
      | whole passes taken => exact ⟨.inr ⟨_, _, rfl, passes, rfl⟩, .inl ⟨rfl, by rw [htaken]; exact hsealed.ne_nil⟩⟩
  | @broken frame _ made n fault inner _ hseal attempt =>
    have htaken := attempt.taken_eq
    have hshort := attempt.lt_length
    refine ⟨_, rfl, hdrawn hseal, fun b hb => ?_, fun e _ => ⟨?_, ?_⟩⟩
    · cases hb
    · cases attempt with
      | broken passes taken short write fails => exact .inr ⟨_, _, rfl, passes, by rw [fails]; rfl⟩
    · rcases Nat.eq_zero_or_pos n with rfl | hn
      · exact .inr ⟨by simp [refused, ← hready.unpoisoned], htaken⟩
      · refine .inl ⟨decide_eq_true hn, ?_⟩
        rw [htaken]
        exact List.ne_nil_of_length_pos (by rw [List.length_take]; omega)

/-- A writer that is not ready does nothing when it is flushed. -/
theorem flush_of_not_ready (S : Sink σ) (h : ¬Ready s.writer) : s.flush S = (s.writer.idleAnswer, s) := by
  rw [flush, Writer.flush_of_not_ready h]
  exact Prod.ext rfl (track_same s)

/-! ## How a closing ends -/

/-- No attempt was made, and the sink was let go of at most. -/
def Untried (s : Session σ) (world : World (Journal σ)) : Prop :=
  world.entropy = s.world.entropy ∧
    (world.sink.calls = s.world.sink.calls ∨ world.sink.calls = s.world.sink.calls ++ [.release])

/-- One attempt was made and failed, and all that the sink saw of the writer after the call that failed is that it was let go
of. -/
def Final (s : Session σ) (world : World (Journal σ)) : Prop :=
  world.entropy = s.drawnBy 1 ∧
    ∃ made, BreaksOff made ∧ world.sink.calls = s.world.sink.calls ++ made ++ [.release]

/-- An attempt was made and failed before the sink took a byte, and a second attempt was made after it, which failed or put a
frame of what had been reported as not written on the sink. -/
def Repeated (s : Session σ) (world : World (Journal σ)) : Prop :=
  world.entropy = s.drawnBy 2 ∧
    ∃ made again, BreaksOff made ∧ made.flatMap Call.taken = [] ∧
      (BreaksOff again ∨
        Sealed s.writer.recipient s.world.entropy.byte s.writer.buffer (again.flatMap Call.taken)) ∧
      world.sink.calls = s.world.sink.calls ++ made ++ again ++ [.release]

/-- How it ends that a writer is flushed, this fails, and the writer is dropped: there is a second attempt exactly if the sink took
nothing at the first one. -/
def Ends (S : Sink σ) (s : Session σ) (world : World (Journal σ)) : Prop :=
  if Ready s.writer then (if (s.flush S).2.received = s.received then Repeated s world else Final s world)
  else Untried s world

/-- A session that is shut lets go of its sink once more. -/
theorem release_shut (S : Sink σ) (s : Session σ) : (s.shut S).world.sink.calls = s.world.sink.calls ++ [.release] := rfl

/-- A writer that is not ready makes no attempt when it is closed. -/
theorem untried_close (S : Sink σ) (h : ¬Ready s.writer) : Untried s (s.close S).2.world := by
  cases hc : s.writer.closed with
  | true =>
    rw [s.close_of_closed S hc]
    exact ⟨rfl, .inl rfl⟩
  | false =>
    rw [s.close_of_open S hc, flush_of_not_ready S h]
    exact ⟨rfl, .inr rfl⟩

/-- A close whose flush fails is final. -/
theorem final_close (hready : Ready s.writer) {e : Error} (herror : (s.flush S).1 = .error e) :
    Final s (s.close S).2.world := by
  obtain ⟨made, htries⟩ := exists_tries S hready
  rw [s.close_of_open S hready.opened]
  refine ⟨htries.entropy, made, (htries.broken e herror).1, ?_⟩
  rw [release_shut, htries.calls]

/-- A writer that is as it was before a flush that failed tries again when it is closed. -/
theorem repeated_close (hready : Ready s.writer) {made : List Call} (htries : Tries s (s.flush S) made)
    (hbreaks : BreaksOff made) (hwriter : (s.flush S).2.writer = s.writer) (htaken : made.flatMap Call.taken = []) :
    Repeated s ((s.flush S).2.close S).2.world := by
  have hstill : Ready (s.flush S).2.writer := by rwa [hwriter]
  obtain ⟨again, hagain⟩ := exists_tries S hstill
  have hbyte : (s.flush S).2.world.entropy.byte = s.world.entropy.byte := by rw [htries.entropy]; rfl
  rw [(s.flush S).2.close_of_open S hstill.opened]
  refine ⟨?_, made, again, hbreaks, htaken, ?_, ?_⟩
  · have hentropy : (((s.flush S).2.flush S).2.shut S).world.entropy = (s.flush S).2.drawnBy 1 := hagain.entropy
    rw [hentropy, drawnBy, htries.entropy, hwriter, drawnBy, drawnBy]
    simp only [Nat.one_mul, Nat.two_mul, Nat.add_assoc]
  · cases hresult : ((s.flush S).2.flush S).1 with
    | error e => exact .inl (hagain.broken e hresult).1
    | ok b =>
      have hsealed := hagain.whole b hresult
      rw [hwriter, hbyte] at hsealed
      exact .inr hsealed
  · rw [release_shut, hagain.calls, htries.calls]

/-- After a flush that failed, the drop of the writer flushes again unless the writer is poisoned. -/
theorem ends_drop {e : Error} (herror : (s.flush S).1 = .error e) : Ends S s ((s.flush S).2.close S).2.world := by
  rw [Ends]
  by_cases hready : Ready s.writer
  · obtain ⟨made, htries⟩ := exists_tries S hready
    obtain ⟨hbreaks, hpoisoned⟩ := htries.broken e herror
    have hopen : (s.flush S).2.writer.closed = false := (s.flush_writer S).1.trans hready.opened
    have hreceived : (s.flush S).2.received = s.received ++ made.flatMap Call.taken := by
      rw [received, Journal.received, htries.calls, List.flatMap_append]
      rfl
    rw [if_pos hready, hreceived]
    rcases hpoisoned with ⟨hpoisoned, htaken⟩ | ⟨hwriter, htaken⟩
    · rw [if_neg (by simpa using htaken), close_of_poisoned S hpoisoned hopen]
      refine ⟨htries.entropy, made, hbreaks, ?_⟩
      rw [release_shut, htries.calls]
    · rw [if_pos (by simp [htaken])]
      exact repeated_close hready htries hbreaks hwriter htaken
  · rw [if_neg hready, flush_of_not_ready S hready]
    exact untried_close S hready

/-- Two attempts are not final. -/
theorem not_final_of_drawnBy (h : world.entropy = s.drawnBy 2) : ¬Final s world := by
  rintro ⟨hentropy, -⟩
  have hdrawn := congrArg Entropy.drawn (h.symm.trans hentropy)
  have hwidth : 0 < s.writer.recipient.sealWidth := by
    rw [Rsa.PublicKey.sealWidth]
    split <;> decide
  simp only [drawnBy] at hdrawn
  omega

/-- Whatever a writer holds and however its sink behaves, a close that reports a failure is final: there was one attempt to seal,
the sink saw nothing after the call that failed but that it was let go of, and to drop the writer changes nothing. A finish that
reports a failure, and an appender that does when it is closed, are final if the sink took a byte of the frame. If it took none,
the writer that is dropped seals a second time, and what was reported as not written is written if the sink takes it then. A
writer that is poisoned, closed or empty seals nothing in any case. -/
theorem closing_failure (S : Sink σ) (s : Session σ) (path : String) (entries : Nat) :
    let a : Appender (Journal σ) := { path, sink := S.journaled, channel := some (.encrypting s.writer), entries }
    (∀ e, (s.close S).1 = .error e →
      let dropped := (s.close S).2.writer.drop S.journaled (s.close S).2.world
      if Ready s.writer then Final s dropped else Untried s dropped) ∧
    (∀ e, (s.writer.finish S.journaled s.world).1 = .error e → Ends S s (s.writer.finish S.journaled s.world).2) ∧
    (∀ e, (a.close s.world).1 = .error e → Ends S s ((a.close s.world).2.1.drop (a.close s.world).2.2)) := by
  intro a
  refine ⟨fun e herror => ?_, fun e herror => ?_, fun e herror => ?_⟩
  · have hdropped : (s.close S).2.writer.drop S.journaled (s.close S).2.world = (s.close S).2.world := by
      rw [drop_eq, close_of_closed S _ (s.closed_of_close S)]
    simp only [hdropped]
    split_ifs with hready
    · rw [s.close_of_open S hready.opened] at herror
      cases hflush : (s.flush S).1 with
      | error e => exact final_close hready hflush
      | ok b =>
        rw [hflush, hready.unpoisoned] at herror
        cases herror
    · exact untried_close S hready
  · rw [s.finish_eq S] at herror ⊢
    cases hflush : (s.flush S).1 with
    | error e => exact ends_drop hflush
    | ok b =>
      have hready : ¬Ready s.writer := by
        intro hready
        rw [hflush, hready.opened] at herror
        cases herror
      rw [Ends, if_neg hready, flush_of_not_ready S hready]
      exact ⟨rfl, .inl rfl⟩
  · have hclose := Appender.close_session (a := a) (s := s) rfl rfl
    rw [hclose] at herror ⊢
    cases hflush : (s.flush S).1 with
    | error e => exact ends_drop hflush
    | ok b =>
      rw [hflush] at herror
      cases herror

/-! ## A sink that takes nothing -/

/-- A sink that fails at once is asked once. -/
theorem flush_of_failed (hready : Ready s.writer) {frame : Bytes} {entropy : Entropy}
    (hseal : s.writer.sealBuffer s.world.entropy = (.ok frame, entropy)) {fault : IoFault} {inner : σ}
    (hwrite : S.write s.world.sink.inner frame = (.failed fault, inner)) :
    s.flush S = (.error (.io fault), s.refused false [.write frame (.failed fault)] inner entropy) := by
  have hne := (Writer.sealed_of_sealBuffer hseal).ne_nil
  have hjournal := S.write_journaled s.world.sink.calls hwrite
  rw [flush, Writer.flush_of_ready hready, hseal]
  simp only [Writer.emit, S.journaled.writeAll_failed hne hjournal rfl]
  simp [track, refused, hready.filled, Journal.note]

/-- A sink that fails every time is asked twice by a finish, for two frames of the same bytes. -/
theorem finish_of_failed (hready : Ready s.writer)
    (hseals : ∀ entropy, ∃ frame entropy', s.writer.sealBuffer entropy = (.ok frame, entropy')) {fault : IoFault}
    (hwrite : ∀ b, S.write s.world.sink.inner b = (.failed fault, s.world.sink.inner)) :
    let finished := s.writer.finish S.journaled s.world
    finished.1 = .error (.io fault) ∧ finished.2.entropy = s.drawnBy 2 ∧ ∃ first second,
      finished.2.sink.calls =
        s.world.sink.calls ++ [.write first (.failed fault), .write second (.failed fault), .release] := by
  obtain ⟨first, entropy, hfirst⟩ := hseals s.world.entropy
  obtain ⟨second, entropy', hsecond⟩ := hseals entropy
  have hflush := flush_of_failed hready hfirst (hwrite first)
  generalize ht : s.refused false [.write first (.failed fault)] s.world.sink.inner entropy = t at hflush
  have hwriter : t.writer = s.writer := by rw [← ht, refused, ← hready.unpoisoned]
  have hagain := flush_of_failed (s := t) (by rwa [hwriter]) (by rw [hwriter, ← ht]; exact hsecond)
    (by rw [← ht]; exact hwrite second)
  have hopen : t.writer.closed = false := by rw [hwriter]; exact hready.opened
  have hreceived : t.received = s.received := by simp [← ht, refused, received, Journal.received, Call.taken]
  have hends := ends_drop (congrArg Prod.fst hflush)
  rw [Ends, if_pos hready, hflush, if_pos hreceived] at hends
  rw [s.finish_eq S, hflush]
  refine ⟨rfl, hends.1, first, second, ?_⟩
  dsimp only
  rw [t.close_of_open S hopen, release_shut, hagain, ← ht]
  simp [refused]

/-- A sink that takes no byte is asked once more by the drop after a finish that failed: two frames are sealed. -/
theorem finish_seals_twice :
    let s := (start Sample.key.toPublicKey { budget := some 0 } (.cycle [7])).run Script.sink [.write [1, 2, 3]]
    let finished := s.writer.finish Script.sink.journaled s.world
    Ready s.writer ∧ ¬Final s finished.2 ∧ finished.2.entropy.drawn = 152 ∧
      ∃ fault first second, finished.1 = .error (.io fault) ∧
        finished.2.sink.calls = [.write first (.failed fault), .write second (.failed fault), .release] := by
  intro s finished
  have hready : Ready s.writer := ⟨rfl, List.cons_ne_nil _ _, rfl⟩
  have hroom : s.writer.recipient.Fits KeyMaterial.keySize := Sample.fits_key
  have hshort : s.writer.buffer.length + Gcm.tagSize < 256 ^ Frame.lengthSize := by decide
  obtain ⟨herror, hentropy, first, second, hcalls⟩ := finish_of_failed (S := Script.sink) hready
    (s.writer.sealBuffer_succeeds hroom Sample.size_key_lt hshort) (fun _ => rfl)
  refine ⟨hready, not_final_of_drawnBy hentropy, ?_, _, first, second, herror, hcalls⟩
  rw [hentropy, drawnBy, Rsa.PublicKey.sealWidth, if_pos hroom]
  rfl

end Session

end EnvelopeLog

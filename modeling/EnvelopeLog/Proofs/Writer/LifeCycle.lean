import EnvelopeLog.Proofs.Writer.Poisoning

/-!
# The life of a writer

A writer has its sink until it is closed, dropped or finished. Whatever is done to it before and however the sink behaves, it
lets go of the sink once and calls it no more (`Lives`); a finish that succeeds hands the sink over instead, with the last
frame on it. A closed writer holds nothing, so there is nothing that a flush could refuse because of that. What a writer
answers depends on no more than whether it is closed and whether it is poisoned (`LifeCycle`).
-/

namespace EnvelopeLog

/-- Whether a sink was let go of once, and saw no call after that. -/
def Released (calls : List Call) : Prop := ∃ before, calls = before ++ [.release] ∧ Call.release ∉ before

/-- An attempt to write does not let go of the sink. -/
theorem Attempt.release_not_mem {b : Bytes} {made : List Call} {n : Nat} {fault : Option IoFault}
    (h : Attempt b made n fault) : Call.release ∉ made :=
  fun hmem => h.isWrite _ hmem

namespace Session

variable {σ : Type} {s t : Session σ}

/-! ## The sink of a writer -/

/-- A flush does not let go of the sink. -/
theorem flush_calls (S : Sink σ) (s : Session σ) :
    ∃ made, (s.flush S).2.world.sink.calls = s.world.sink.calls ++ made ∧ Call.release ∉ made := by
  have hflush := s.flushing S
  generalize s.flush S = outcome at hflush ⊢
  cases hflush with
  | poisoned | idle | closed | unsealed => exact ⟨[], (List.append_nil _).symm, List.not_mem_nil⟩
  | whole fault inner ready hseal attempt =>
    refine ⟨_, rfl, fun hmem => ?_⟩
    rcases List.mem_append.mp hmem with hmem | hmem
    · exact attempt.release_not_mem hmem
    · cases List.mem_singleton.mp hmem
  | broken inner ready hseal attempt => exact ⟨_, rfl, attempt.release_not_mem⟩

/-- A writer that holds nothing has nothing to flush. -/
theorem flush_of_empty (S : Sink σ) (hempty : s.writer.buffer = []) (hp : s.writer.poisoned = false) :
    s.flush S = (.ok false, s) := by
  simp only [flush, Writer.flush, hp, hempty, Bool.false_eq_true, if_false, if_true, track_same]

/-- An open writer has its sink. A closed one let go of it, and holds nothing. -/
structure Lives (s : Session σ) : Prop where
  of_open : s.writer.closed = false → Call.release ∉ s.world.sink.calls
  of_closed : s.writer.closed = true → Released s.world.sink.calls ∧ s.writer.buffer = []

namespace Lives

theorem start (recipient : Rsa.PublicKey) (inner : σ) (entropy : Entropy) : Lives (start recipient inner entropy) where
  of_open _ := List.not_mem_nil
  of_closed := nofun

/-- A write does not touch the sink. -/
theorem write (h : Lives s) (b : Bytes) : Lives (s.write b).2 := by
  rw [write_eq]
  split
  · exact h
  split
  · exact h
  rename_i hopen
  split
  · exact h
  · exact ⟨h.of_open, fun hclosed => absurd hclosed hopen⟩

/-- A closed writer that is flushed does nothing. -/
theorem flush_of_closed (S : Sink σ) (h : Lives s) (hclosed : s.writer.closed = true) : (s.flush S).2 = s := by
  cases hp : s.writer.poisoned with
  | true => rw [s.flush_of_poisoned S hp]
  | false => rw [flush_of_empty S (h.of_closed hclosed).2 hp]

/-- A flush does not let go of the sink. -/
theorem flush (S : Sink σ) (h : Lives s) : Lives (s.flush S).2 := by
  cases hc : s.writer.closed with
  | true =>
    rw [h.flush_of_closed S hc]
    exact h
  | false =>
    obtain ⟨made, hcalls, hmade⟩ := s.flush_calls S
    have hopen : (s.flush S).2.writer.closed = false := (s.flush_writer S).1.trans hc
    refine ⟨fun _ => ?_, fun hclosed => absurd (hopen.symm.trans hclosed) Bool.false_ne_true⟩
    rw [hcalls, List.mem_append, not_or]
    exact ⟨h.of_open hc, hmade⟩

/-- Shutting an open session lets go of the sink once. -/
theorem shut (S : Sink σ) (h : Lives s) (hopen : s.writer.closed = false) : Lives (s.shut S) where
  of_open := nofun
  of_closed _ := ⟨⟨s.world.sink.calls, rfl, h.of_open hopen⟩, rfl⟩

theorem step (S : Sink σ) (h : Lives s) (x : Step σ) : Lives (s.step S x).2 :=
  step_induction S (fun _ b h => h.write b) (fun _ h => h.flush S) (fun _ hopen h => h.shut S hopen)
    (fun _ _ h => ⟨h.of_open, h.of_closed⟩) h x

/-- Every run keeps to the life cycle. -/
theorem run (S : Sink σ) (h : Lives s) (steps : List (Step σ)) : Lives (s.run S steps) := by
  induction steps generalizing s with
  | nil => exact h
  | cons x steps ih => exact ih (h.step S x)

end Lives

/-- A writer is closed after a close. -/
theorem closed_of_close (S : Sink σ) (s : Session σ) : (s.close S).2.writer.closed = true := by
  cases hc : s.writer.closed with
  | true => rw [s.close_of_closed S hc, hc]
  | false => rw [s.close_of_open S hc]; rfl

/-- After a close the sink was let go of, at that close or before. -/
theorem Lives.released_of_close (S : Sink σ) (h : Lives s) : Released (s.close S).2.world.sink.calls :=
  ((h.step S .close).of_closed (s.closed_of_close S)).1

/-! ## What a writer answers -/

/-- A writer can be written to exactly if it is neither closed nor poisoned. -/
theorem canWrite_iff (w : Writer) : w.canWrite = true ↔ w.closed = false ∧ w.poisoned = false := by
  simp [Writer.canWrite]

/-- Bytes are accepted as long as the writer is neither closed nor poisoned. -/
theorem write_isOk_iff (s : Session σ) {b : Bytes} (hb : b ≠ []) :
    (s.write b).1.isOk = true ↔ s.writer.canWrite = true := by
  rw [write_eq, if_neg hb, canWrite_iff]
  cases hc : s.writer.closed <;> cases hp : s.writer.poisoned <;> simp [Except.isOk, Except.toBool]

/-- Bytes are taken exactly by a writer that can be written to. -/
theorem step_write_isOk_iff (S : Sink σ) (s : Session σ) {b : Bytes} (hb : b ≠ []) :
    ((s.step S (.write b)).1.isOk = true ↔ s.writer.canWrite = true) ∧
      ((s.step S (.writeAll b)).1.isOk = true ↔ s.writer.canWrite = true) := by
  have hwrite := s.write_isOk_iff hb
  refine ⟨hwrite, ?_⟩
  rw [← hwrite, step]
  cases (s.write b).1 <;> rfl

/-- A flush fails on a poisoned writer. -/
theorem unpoisoned_of_flush (S : Sink σ) (h : (s.flush S).1.isOk = true) : s.writer.poisoned = false := by
  by_contra hp
  rw [Bool.not_eq_false] at hp
  rw [s.flush_of_poisoned S hp] at h
  cases h

/-- To finish a writer succeeds if it is open and the last flush succeeds. -/
theorem finish_eq_ok_iff (S : Sink σ) (s : Session σ) :
    (s.writer.finish S.journaled s.world).1 = .ok () ↔
      s.writer.closed = false ∧ s.writer.poisoned = false ∧ (s.flush S).1.isOk = true := by
  rw [s.finish_eq S]
  cases hresult : (s.flush S).1 with
  | error e => simp [Except.isOk, Except.toBool]
  | ok b =>
    have hp := unpoisoned_of_flush S (s := s) (by rw [hresult]; rfl)
    cases hc : s.writer.closed <;> simp [hp, Except.isOk, Except.toBool]

/-- A finish that succeeds hands over the sink as the last flush left it, with a frame of what was buffered. -/
theorem finish_ok (S : Sink σ) (h : Lives s) (hok : (s.writer.finish S.journaled s.world).1 = .ok ()) :
    let sink := (s.writer.finish S.journaled s.world).2.sink
    Call.release ∉ sink.calls ∧
    (s.writer.buffer = [] ∧ sink = s.world.sink ∨
      ∃ frame, Sealed s.writer.recipient s.world.entropy.byte s.writer.buffer frame ∧
        sink.received = s.received ++ frame) := by
  obtain ⟨hopen, -, hflush⟩ := (s.finish_eq_ok_iff S).mp hok
  cases hresult : (s.flush S).1 with
  | error e =>
    rw [hresult] at hflush
    cases hflush
  | ok b =>
    rw [s.finish_eq S, hresult]
    refine ⟨(h.flush S).of_open ((s.flush_writer S).1.trans hopen), ?_⟩
    obtain ⟨-, hempty, hsame⟩ | ⟨-, -, frame, made, n, inner, entropy, hsealed, attempt, hemitted⟩ := flush_ok S hresult
    · exact .inl ⟨hempty, by rw [hsame]⟩
    · refine .inr ⟨frame, hsealed, ?_⟩
      rw [hemitted]
      exact s.received_emitted attempt.taken_eq_all none false inner entropy

/-- A finish that fails lets go of the sink, unless a close did before. -/
theorem Lives.released_of_finish (S : Sink σ) (h : Lives s) {e : Error}
    (herror : (s.writer.finish S.journaled s.world).1 = .error e) :
    Released (s.writer.finish S.journaled s.world).2.sink.calls := by
  rw [s.finish_eq S] at herror ⊢
  cases hresult : (s.flush S).1 with
  | error e => exact (h.flush S).released_of_close S
  | ok b =>
    rw [hresult] at herror
    cases hc : s.writer.closed with
    | false =>
      rw [hc] at herror
      cases herror
    | true => exact ((h.flush S).of_closed ((s.flush_writer S).1.trans hc)).1

/-- Nothing becomes of the sink of a closed writer that is dropped or finished. -/
theorem Lives.world_of_closed (S : Sink σ) (h : Lives s) (hclosed : s.writer.closed = true) :
    s.writer.drop S.journaled s.world = s.world ∧ (s.writer.finish S.journaled s.world).2 = s.world := by
  have hflush := h.flush_of_closed S hclosed
  have hclose := s.close_of_closed S hclosed
  constructor
  · rw [drop_eq, hclose]
  · rw [finish_eq, hflush]
    cases (s.flush S).1 with
    | error e => simp only [hclose]
    | ok b => rfl

/-! ## Every writer -/

/-- What a writer is and answers in the course of its life, and how it ends. -/
structure LifeCycle (S : Sink σ) (s : Session σ) : Prop where
  /-- An open writer has not let go of its sink. -/
  of_open : s.writer.closed = false → Call.release ∉ s.world.sink.calls
  /-- A closed writer let go of its sink once, which saw no call after that, and holds nothing. -/
  of_closed : s.writer.closed = true → Released s.world.sink.calls ∧ s.writer.buffer = []
  /-- No flush gets as far as to ask whether the writer is closed and to find that it is. -/
  never_refused : ¬(s.writer.poisoned = false ∧ s.writer.buffer ≠ [] ∧ s.writer.closed = true)
  flush_closed : s.writer.closed = true → s.writer.poisoned = false →
    s.step S .flushFrame = (.flushed (.ok false), s) ∧ s.step S .flush = (.done (.ok ()), s)
  canWrite_iff : s.writer.canWrite = true ↔ s.writer.closed = false ∧ s.writer.poisoned = false
  write : ∀ b, b ≠ [] →
    ((s.step S (.write b)).1.isOk = true ↔ s.writer.canWrite = true) ∧
      ((s.step S (.writeAll b)).1.isOk = true ↔ s.writer.canWrite = true)
  write_nothing : s.step S (.write []) = (.wrote (.ok 0), s) ∧ s.step S (.writeAll []) = (.done (.ok ()), s)
  /-- Once the writer was closed, to close it does nothing, whatever was done in between. -/
  close : (s.step S .close).2.writer.closed = true ∧
    ∀ later, ((s.step S .close).2.run S later).step S .close = (.closed (.ok ()), (s.step S .close).2.run S later)
  drop : Released (s.writer.drop S.journaled s.world).sink.calls ∧
    (s.writer.closed = true → s.writer.drop S.journaled s.world = s.world)
  finish_eq_ok_iff : (s.writer.finish S.journaled s.world).1 = .ok () ↔
    s.writer.closed = false ∧ s.writer.poisoned = false ∧ (s.flush S).1.isOk = true
  /-- A sink that is handed over was not let go of, and has the frame of what was buffered at its end. -/
  finish_ok : (s.writer.finish S.journaled s.world).1 = .ok () →
    let sink := (s.writer.finish S.journaled s.world).2.sink
    Call.release ∉ sink.calls ∧
    (s.writer.buffer = [] ∧ sink = s.world.sink ∨
      ∃ frame, Sealed s.writer.recipient s.world.entropy.byte s.writer.buffer frame ∧
        sink.received = s.received ++ frame)
  finish_error : ∀ e, (s.writer.finish S.journaled s.world).1 = .error e →
    Released (s.writer.finish S.journaled s.world).2.sink.calls ∧
    (s.writer.closed = true → (s.writer.finish S.journaled s.world).2 = s.world)

/-- Whatever was done to a writer before and however its sink behaves, its life goes on, and ends, in this way. -/
theorem run_lives (S : Sink σ) (recipient : Rsa.PublicKey) (inner : σ) (entropy : Entropy) (steps : List (Step σ)) :
    LifeCycle S ((start recipient inner entropy).run S steps) := by
  have hlives : Lives ((start recipient inner entropy).run S steps) := (Lives.start recipient inner entropy).run S steps
  generalize (start recipient inner entropy).run S steps = s at hlives
  exact {
    of_open := hlives.of_open
    of_closed := hlives.of_closed
    never_refused := fun ⟨_, hfilled, hclosed⟩ => hfilled (hlives.of_closed hclosed).2
    flush_closed := by
      intro hclosed hp
      have hflush := flush_of_empty S (hlives.of_closed hclosed).2 hp
      exact ⟨by rw [step, hflush], by rw [step, hflush]; rfl⟩
    canWrite_iff := canWrite_iff s.writer
    write := fun b hb => s.step_write_isOk_iff S hb
    write_nothing := by simp [step, write_eq, Except.map]
    close := by
      have hclosed := s.closed_of_close S
      refine ⟨hclosed, fun later => ?_⟩
      have hagain := close_of_closed S ((s.step S .close).2.run S later) (closed_run S hclosed later)
      rw [step, hagain]
    drop := ⟨by rw [drop_eq]; exact hlives.released_of_close S, fun hclosed => (hlives.world_of_closed S hclosed).1⟩
    finish_eq_ok_iff := s.finish_eq_ok_iff S
    finish_ok := finish_ok S hlives
    finish_error := fun e herror => ⟨hlives.released_of_finish S herror, fun hclosed => (hlives.world_of_closed S hclosed).2⟩ }

end Session

end EnvelopeLog

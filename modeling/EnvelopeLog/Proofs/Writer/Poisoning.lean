import EnvelopeLog.Proofs.Writer.Session

/-!
# Poisoned writers

A writer is poisoned by a flush that tears a frame, that is, whose sink fails after it took a byte of the frame or when it is
flushed after it took the whole frame, and by nothing else (`step_poisons`). No frame ever follows a torn one: a poisoned
writer stays poisoned, refuses everything and only lets go of its sink (`Silenced`), also when it is closed by being dropped
or by a failed attempt to finish.
-/

namespace EnvelopeLog

/-- Whether the calls made to put a frame on a sink tear it: writes that do not fail hand over a part of the frame and then a
write fails, or they hand over the whole frame and then the flush fails. -/
def Tears (frame : Bytes) (made : List Call) : Prop :=
  ∃ before last after fault, made = before ++ last :: after ∧ (∀ c ∈ before, c.Passes) ∧ last.fault? = some fault ∧
    before.flatMap Call.taken ≠ [] ∧
    (last.IsWrite ∧ before.flatMap Call.taken <+: frame ∨ last = .flush (some fault) ∧ before.flatMap Call.taken = frame)

namespace Tears

variable {frame : Bytes} {made : List Call}

/-- Calls of which none fails tear nothing. -/
theorem not_of_fault_none (h : ∀ c ∈ made, c.fault? = none) : ¬Tears frame made := by
  rintro ⟨before, last, after, fault, rfl, -, hfault, -⟩
  rw [h last (by simp)] at hfault
  cases hfault

/-- Calls that hand over nothing tear nothing. -/
theorem not_of_taken_nil (h : made.flatMap Call.taken = []) : ¬Tears frame made := by
  rintro ⟨before, last, after, fault, rfl, -, -, htaken, -⟩
  rw [List.flatMap_append, List.append_eq_nil_iff] at h
  exact htaken h.1

/-- To let go of the sink afterwards tears nothing and mends nothing. -/
theorem append_release : Tears frame (made ++ [.release]) ↔ Tears frame made := by
  constructor
  · rintro ⟨before, last, after, fault, hmade, hpasses, hfault, htears⟩
    rcases List.eq_nil_or_concat after with rfl | ⟨after, c, rfl⟩
    · rw [← List.concat_eq_append, ← List.concat_eq_append, List.concat_inj] at hmade
      rw [← hmade.2] at hfault
      cases hfault
    · rw [List.concat_eq_append, ← List.cons_append, ← List.append_assoc] at hmade
      exact ⟨before, last, after, fault, (List.append_inj' hmade rfl).1, hpasses, hfault, htears⟩
  · rintro ⟨before, last, after, fault, rfl, hrest⟩
    exact ⟨before, last, after ++ [.release], fault, by simp, hrest⟩

end Tears

namespace Attempt

variable {frame : Bytes} {made : List Call}

/-- An attempt to write that fails tears the frame exactly if a byte of it was taken. -/
theorem tears_iff {n : Nat} {fault : IoFault} (h : Attempt frame made n (some fault)) :
    Tears frame made ↔ 0 < n := by
  have htaken := h.taken_eq
  constructor
  · intro htears
    rcases Nat.eq_zero_or_pos n with rfl | hn
    · exact absurd htears (Tears.not_of_taken_nil htaken)
    · exact hn
  · intro hn
    cases h with
    | @broken made last n fault passes taken short write fails =>
      refine ⟨made, last, [], fault, rfl, passes, fails, ?_, .inl ⟨write, taken ▸ List.take_prefix n frame⟩⟩
      rw [taken]
      exact List.ne_nil_of_length_pos (by rw [List.length_take]; omega)

/-- An attempt to write that does not fail tears the frame exactly if the flush after it fails. -/
theorem tears_flush_iff {n : Nat} (h : Attempt frame made n none) (hframe : frame ≠ []) (fault : Option IoFault) :
    Tears frame (made ++ [.flush fault]) ↔ fault.isSome := by
  cases h with
  | whole passes taken =>
    cases fault with
    | none =>
      simp only [Option.isSome_none, Bool.false_eq_true, iff_false]
      refine Tears.not_of_fault_none fun c hc => ?_
      rcases List.mem_append.mp hc with hc | hc
      · exact (passes c hc).2
      · rw [List.mem_singleton.mp hc]
        rfl
    | some fault =>
      simp only [Option.isSome_some, iff_true]
      exact ⟨made, .flush (some fault), [], fault, rfl, passes, rfl, taken ▸ hframe, .inr ⟨rfl, taken⟩⟩

end Attempt

namespace Session

variable {σ : Type} {s t : Session σ}

/-! ## What poisons -/

/-- The bytes of the frame that a flush would put on the sink. -/
def Frames (s : Session σ) (frame : Bytes) : Prop := (s.writer.sealBuffer s.world.entropy).1 = .ok frame

/-- The calls that an operation adds poison the writer exactly if they tear a frame of what is buffered. -/
def Poisons (s t : Session σ) : Prop :=
  ∃ made, t.world.sink.calls = s.world.sink.calls ++ made ∧
    (t.writer.poisoned = true ↔ ∃ frame, s.Frames frame ∧ Tears frame made)

/-- An operation that calls nothing and poisons nothing. -/
theorem Poisons.of_same (hp : t.writer.poisoned = false) (hcalls : t.world.sink.calls = s.world.sink.calls) :
    Poisons s t := by
  refine ⟨[], by rw [hcalls, List.append_nil], ?_⟩
  rw [hp]
  simp only [Bool.false_eq_true, false_iff]
  rintro ⟨frame, -, htears⟩
  exact Tears.not_of_taken_nil rfl htears

/-- The frame that a flush puts on the sink is the one that the seal makes. -/
theorem Poisons.of_frame {frame : Bytes} {entropy : Entropy} {made : List Call}
    (hseal : s.writer.sealBuffer s.world.entropy = (.ok frame, entropy))
    (hcalls : t.world.sink.calls = s.world.sink.calls ++ made) (h : t.writer.poisoned = true ↔ Tears frame made) :
    Poisons s t := by
  refine ⟨made, hcalls, h.trans ⟨fun htears => ⟨frame, congrArg Prod.fst hseal, htears⟩, ?_⟩⟩
  rintro ⟨frame', hframe, htears⟩
  rw [Frames, hseal] at hframe
  cases hframe
  exact htears

/-- To let go of the sink afterwards changes nothing about it. -/
theorem Poisons.shut (S : Sink σ) (h : Poisons s t) : Poisons s (t.shut S) := by
  obtain ⟨made, hcalls, hpoisoned⟩ := h
  refine ⟨made ++ [.release], by simp [Session.shut, Sink.journaled, hcalls], hpoisoned.trans ?_⟩
  simp only [Tears.append_release]

/-- A write does not poison a writer. -/
theorem write_poisons (hp : s.writer.poisoned = false) (b : Bytes) : Poisons s (s.write b).2 := by
  rw [write_eq]
  split
  · exact .of_same hp rfl
  split
  · exact .of_same hp rfl
  split <;> exact .of_same hp rfl

/-- A flush poisons a writer exactly if it tears its frame. -/
theorem flush_poisons (S : Sink σ) (hp : s.writer.poisoned = false) : Poisons s (s.flush S).2 := by
  have hflush := s.flushing S
  generalize s.flush S = outcome at hflush ⊢
  cases hflush with
  | poisoned hpoisoned => exact absurd (hp.symm.trans hpoisoned) Bool.false_ne_true
  | idle | closed | unsealed => exact .of_same hp rfl
  | whole fault inner ready hseal attempt =>
    exact .of_frame hseal rfl (attempt.tears_flush_iff (Writer.sealed_of_sealBuffer hseal).ne_nil fault).symm
  | broken inner ready hseal attempt => exact .of_frame hseal rfl (decide_eq_true_iff.trans attempt.tears_iff.symm)

/-- A step poisons a writer exactly if its calls tear a frame of what is buffered. -/
theorem step_poisons (S : Sink σ) (hp : s.writer.poisoned = false) (x : Step σ) : Poisons s (s.step S x).2 := by
  cases x with
  | write b => exact write_poisons hp b
  | writeAll b => exact write_poisons hp b
  | flush => exact flush_poisons S hp
  | flushFrame => exact flush_poisons S hp
  | close =>
    rw [step]
    cases hc : s.writer.closed with
    | true =>
      rw [s.close_of_closed S hc]
      exact .of_same hp rfl
    | false =>
      rw [s.close_of_open S hc]
      exact (flush_poisons S hp).shut S
  | change f => exact .of_same hp rfl

/-! ## What a poisoned writer does -/

/-- A poisoned writer refuses bytes and stays as it is. -/
theorem write_of_poisoned (hp : s.writer.poisoned = true) (b : Bytes) :
    (s.write b).2 = s ∧ (b ≠ [] → (s.write b).1.isOk = false) := by
  rw [write_eq, if_pos hp]
  split
  · rename_i hb
    exact ⟨rfl, fun hne => absurd hb hne⟩
  · split <;> exact ⟨rfl, fun _ => rfl⟩

/-- A poisoned writer refuses to flush and stays as it is. -/
theorem flush_of_poisoned (S : Sink σ) (hp : s.writer.poisoned = true) :
    s.flush S = (.error (.io Writer.poisonedFault), s) := by
  simp only [flush, Writer.flush, hp, if_true, track_same]

/-- A poisoned writer is closed without an attempt, and fails if bytes are lost by that. -/
theorem close_of_poisoned (S : Sink σ) (hp : s.writer.poisoned = true) (hopen : s.writer.closed = false) :
    s.close S =
      (if s.writer.buffer = [] then .ok () else .error (.io Writer.poisonedFault), s.shut S) := by
  rw [s.close_of_open S hopen, s.flush_of_poisoned S hp]
  simp [hp, Except.map]

/-- `t` comes after `s`, is poisoned, and in between the sink was at most let go of. -/
def Silenced (s t : Session σ) : Prop :=
  t.writer.poisoned = true ∧ ∃ n, t.world.sink.calls = s.world.sink.calls ++ List.replicate n .release

namespace Silenced

/-- The sink took no byte in between. -/
theorem received (h : Silenced s t) : t.received = s.received := by
  obtain ⟨-, n, hcalls⟩ := h
  simp [Session.received, Journal.received, hcalls, Call.taken]

theorem shut (S : Sink σ) (h : Silenced s t) : Silenced s (t.shut S) := by
  obtain ⟨hp, n, hcalls⟩ := h
  refine ⟨hp, n + 1, ?_⟩
  simp [Session.shut, Sink.journaled, hcalls, List.replicate_succ']

/-- Whatever is done to a poisoned writer silences it. -/
theorem run (S : Sink σ) (hp : s.writer.poisoned = true) (steps : List (Step σ)) : Silenced s (s.run S steps) := by
  refine run_induction S ?_ ?_ (fun t _ h => h.shut S) (fun t f h => h) ⟨hp, 0, by simp⟩ steps
  · intro t b h
    rw [(write_of_poisoned h.1 b).1]
    exact h
  · intro t h
    rw [t.flush_of_poisoned S h.1]
    exact h

end Silenced

/-- A flush after which the writer is poisoned failed. -/
theorem flush_fails_of_poisoned (S : Sink σ) (hp : (s.flush S).2.writer.poisoned = true) : (s.flush S).1.isOk = false := by
  have hflush := s.flushing S
  generalize s.flush S = outcome at hflush hp ⊢
  cases hflush with
  | poisoned | closed | unsealed | broken => rfl
  | idle hunpoisoned => exact absurd (hunpoisoned.symm.trans hp) Bool.false_ne_true
  | whole fault inner ready hseal attempt =>
    cases fault with
    | none => cases hp
    | some fault => rfl

/-- What a writer answers once it is poisoned, and what it does to its sink when it is given up. -/
structure Inert (S : Sink σ) (t : Session σ) : Prop where
  canWrite : t.writer.canWrite = false
  write : ∀ b, b ≠ [] → (t.step S (.write b)).1.isOk = false ∧ (t.step S (.writeAll b)).1.isOk = false
  flush : (t.step S .flush).1.isOk = false ∧ (t.step S .flushFrame).1.isOk = false
  /-- The first close tells whether bytes are lost, and lets go of the sink and of the bytes in any case. -/
  close : t.writer.closed = false →
    ((t.step S .close).1.isOk = false ↔ t.writer.buffer ≠ []) ∧
    (t.step S .close).2.world.sink.calls = t.world.sink.calls ++ [.release] ∧
    (t.step S .close).2.writer.buffer = [] ∧
    ∀ more, ((t.step S .close).2.run S more).writer.closed = true
  close_again : t.writer.closed = true → t.step S .close = (.closed (.ok ()), t)
  finish : (t.writer.finish S.journaled t.world).1.isOk = false ∧
    ∃ n, (t.writer.finish S.journaled t.world).2.sink.calls = t.world.sink.calls ++ List.replicate n .release
  drop : ∃ n, (t.writer.drop S.journaled t.world).sink.calls = t.world.sink.calls ++ List.replicate n .release

/-- A poisoned writer that is closed calls nothing but the release of its sink. -/
theorem calls_close_of_poisoned (S : Sink σ) (hp : s.writer.poisoned = true) :
    ∃ n, (s.close S).2.world.sink.calls = s.world.sink.calls ++ List.replicate n .release := by
  cases hc : s.writer.closed with
  | true => exact ⟨0, by simp [s.close_of_closed S hc]⟩
  | false => exact ⟨1, by rw [close_of_poisoned S hp hc]; rfl⟩

/-- A poisoned writer can do nothing but let go of its sink. -/
theorem inert_of_poisoned (S : Sink σ) (hp : t.writer.poisoned = true) : Inert S t where
  canWrite := by simp [Writer.canWrite, hp]
  write b hb := by
    have hwrite := (write_of_poisoned hp b).2 hb
    refine ⟨hwrite, ?_⟩
    rw [step]
    cases h : (t.write b).1 with
    | error e => rfl
    | ok n =>
      rw [h] at hwrite
      cases hwrite
  flush := by simp [step, flush_of_poisoned S hp, Answer.isOk, Except.isOk, Except.toBool, Except.map, Except.mapError]
  close hopen := by
    simp only [step, close_of_poisoned S hp hopen]
    refine ⟨?_, rfl, rfl, fun more => closed_run S rfl more⟩
    by_cases hb : t.writer.buffer = [] <;> simp [hb, Answer.isOk, Except.isOk, Except.toBool]
  close_again hclosed := by rw [step, t.close_of_closed S hclosed]
  finish := by
    rw [finish_eq, flush_of_poisoned S hp]
    exact ⟨rfl, calls_close_of_poisoned S hp⟩
  drop := by
    rw [drop_eq]
    exact calls_close_of_poisoned S hp

/-- A step poisons a writer exactly if the sink tears a frame in it. From then on, whatever is done, the sink is neither
written to nor flushed, and the writer refuses everything; so it is too when the frame is torn by an attempt to finish. -/
theorem run_poisons (S : Sink σ) (recipient : Rsa.PublicKey) (inner : σ) (entropy : Entropy) (steps : List (Step σ)) :
    let s := (start recipient inner entropy).run S steps
    (s.writer.poisoned = false → ∀ x, Poisons s (s.step S x).2) ∧
    (s.writer.poisoned = true → ∀ later,
      Silenced s (s.run S later) ∧ (s.run S later).received = s.received ∧ Inert S (s.run S later)) ∧
    ((s.flush S).2.writer.poisoned = true → (s.writer.finish S.journaled s.world).1.isOk = false ∧
      ∃ n, (s.writer.finish S.journaled s.world).2.sink.calls =
        (s.flush S).2.world.sink.calls ++ List.replicate n .release) := by
  intro s
  refine ⟨fun hp x => step_poisons S hp x, fun hp later => ?_, fun hp => ?_⟩
  · have hsilenced := Silenced.run S hp later
    exact ⟨hsilenced, hsilenced.received, inert_of_poisoned S hsilenced.1⟩
  · have hfails := flush_fails_of_poisoned S hp
    rw [finish_eq]
    cases hresult : (s.flush S).1 with
    | ok b =>
      rw [hresult] at hfails
      cases hfails
    | error e => exact ⟨rfl, calls_close_of_poisoned S hp⟩

end Session

end EnvelopeLog

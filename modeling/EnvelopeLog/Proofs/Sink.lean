import EnvelopeLog.Proofs.Journal
import EnvelopeLog.Sink.Script

/-!
# What a sink took is counted

Whatever a sink does, `writeAll` comes to an end and counts the bytes that the sink took: they are the first ones, all of them if
nothing is reported, and otherwise what is reported is the first failure (`writeAll_counts`). Interruptions leave no trace. A sink
that is offered the same bytes until it answers otherwise (`outlast`) gives an answer, and two sinks of which all such answers are
the same (`AnswersLike`) take the same bytes and report the same, however often either of them interrupts.
-/

namespace EnvelopeLog

variable {σ τ : Type}

/-- A write fails if it reports a failure or takes nothing. -/
theorem Call.fault_write_iff {b : Bytes} {reply : WriteReply} {fault : IoFault} :
    (Call.write b reply).fault? = some fault ↔ reply = .failed fault ∨ reply = .took 0 ∧ fault = .writeZero := by
  rcases reply with (_ | n) | _ | reported
  · simp [Call.fault?, eq_comm]
  · simp [Call.fault?]
  · simp [Call.fault?]
  · simp [Call.fault?]

namespace Attempt

variable {b : Bytes} {made : List Call} {n : Nat} {fault : Option IoFault}

/-- No attempt hands over more than there is. -/
theorem le_length (h : Attempt b made n fault) : n ≤ b.length := by
  cases h with
  | whole => exact Nat.le_refl _
  | broken _ _ short => exact Nat.le_of_lt short

/-- An attempt does not fail exactly if everything was taken. -/
theorem eq_none_iff (h : Attempt b made n fault) : fault = none ↔ n = b.length := by
  cases h with
  | whole => exact ⟨fun _ => rfl, fun _ => rfl⟩
  | broken _ _ short => exact ⟨nofun, fun hn => absurd hn (Nat.ne_of_lt short)⟩

end Attempt

namespace Sink

/-! ## Interruptions -/

/-- The first answer to a write other than an interruption. -/
def outlast (S : Sink σ) (s : σ) (b : Bytes) : WriteReply × σ :=
  match _h : S.write s b with
  | (.interrupted, s') => S.outlast s' b
  | (.took n, s') => (.took n, s')
  | (.failed fault, s') => (.failed fault, s')
termination_by S.patience s b
decreasing_by exact S.patience_lt s b s' _h

/-- A write that is interrupted is answered as the next one is. -/
theorem outlast_interrupted {S : Sink σ} {s s' : σ} {b : Bytes} (hw : S.write s b = (.interrupted, s')) :
    S.outlast s b = S.outlast s' b := by
  rw [outlast]
  split <;> rename_i heq <;> rw [hw] at heq <;> cases heq
  rfl

/-- A write that is not interrupted is answered as it is. -/
theorem outlast_of_write {S : Sink σ} {s s' : σ} {b : Bytes} {reply : WriteReply} (hw : S.write s b = (reply, s'))
    (hreply : reply ≠ .interrupted) : S.outlast s b = (reply, s') := by
  rw [outlast]
  split <;> rename_i heq <;> rw [hw] at heq <;> cases heq
  · exact absurd rfl hreply
  · rfl
  · rfl

/-- The answer to a write after all interruptions is that of the sink at some moment, and to wait for this moment makes no
difference to a write of all bytes. -/
theorem exists_undisturbed (S : Sink σ) (s : σ) {b : Bytes} (hb : b ≠ []) :
    ∃ now, S.writeAll s b = S.writeAll now b ∧ S.write now b = S.outlast s b ∧ (S.outlast s b).1 ≠ .interrupted := by
  fun_induction S.outlast s b with
  | case1 s s' hw ih =>
    obtain ⟨now, hall, hnow, hreply⟩ := ih
    exact ⟨now, (S.writeAll_interrupted hb hw).trans hall, hnow, hreply⟩
  | case2 s n s' hw => exact ⟨s, rfl, hw, nofun⟩
  | case3 s fault s' hw => exact ⟨s, rfl, hw, nofun⟩

/-- Whether two sinks give the same answers, now and after any writes, when each write is repeated until it is not
interrupted. -/
def AnswersLike (S : Sink σ) (s : σ) (T : Sink τ) (t : τ) : Prop :=
  ∃ R : σ → τ → Prop, R s t ∧ ∀ s t, R s t → ∀ b ≠ [],
    (S.outlast s b).1 = (T.outlast t b).1 ∧ R (S.outlast s b).2 (T.outlast t b).2

section

variable {S : Sink σ} {T : Sink τ} {s : σ} {t : τ}

/-- Sinks that answer alike do so after a write. -/
theorem AnswersLike.outlast (h : AnswersLike S s T t) {b : Bytes} (hb : b ≠ []) :
    (S.outlast s b).1 = (T.outlast t b).1 ∧ AnswersLike S (S.outlast s b).2 T (T.outlast t b).2 := by
  obtain ⟨R, hst, hanswers⟩ := h
  obtain ⟨hreply, hafter⟩ := hanswers s t hst b hb
  exact ⟨hreply, R, hafter, hanswers⟩

/-- Sinks that answer alike, interruptions aside, take the same bytes and report the same. Each write that takes something
leaves fewer bytes, so the induction is on their number. -/
theorem AnswersLike.writeAll (h : AnswersLike S s T t) (b : Bytes) :
    (S.writeAll s b).1 = (T.writeAll t b).1 ∧ (S.writeAll s b).2.1 = (T.writeAll t b).2.1 ∧
      AnswersLike S (S.writeAll s b).2.2 T (T.writeAll t b).2.2 := by
  induction hlength : b.length using Nat.strongRecOn generalizing b s t with
  | ind length ih =>
    by_cases hb : b = []
    · rw [hb, writeAll_nil, writeAll_nil]
      exact ⟨rfl, rfl, h⟩
    obtain ⟨hreply, hafter⟩ := h.outlast hb
    obtain ⟨now, hall, hnow, hundisturbed⟩ := S.exists_undisturbed s hb
    obtain ⟨later, hall', hlater, -⟩ := T.exists_undisturbed t hb
    rw [hall, hall']
    rcases hs : S.outlast s b with ⟨reply, s'⟩
    rcases ht : T.outlast t b with ⟨reply', t'⟩
    rw [hs] at hnow hundisturbed
    rw [ht] at hlater
    rw [hs, ht] at hreply hafter
    dsimp only at hreply hafter hundisturbed
    subst hreply
    rcases reply with (_ | n) | _ | fault
    · rw [S.writeAll_failed hb hnow rfl, T.writeAll_failed hb hlater rfl]
      exact ⟨rfl, rfl, hafter⟩
    · have hshorter : (b.drop (n + 1)).length < length := by
        have := List.length_pos_iff.mpr hb
        rw [List.length_drop]
        omega
      obtain ⟨htaken, hfault, hlast⟩ := ih _ hshorter hafter _ rfl
      rw [S.writeAll_took hb hnow, T.writeAll_took hb hlater]
      exact ⟨congrArg (n + 1 + ·) htaken, hfault, hlast⟩
    · exact absurd rfl hundisturbed
    · rw [S.writeAll_failed hb hnow rfl, T.writeAll_failed hb hlater rfl]
      exact ⟨rfl, rfl, hafter⟩

end

/-! ## Counting -/

/-- What is reported is never an interruption. -/
theorem writeAll_kind (S : Sink σ) (s : σ) (b : Bytes) : ∀ f ∈ (S.writeAll s b).2.1, f.kind ≠ .interrupted := by
  fun_induction S.writeAll s b with
  | case1 => exact nofun
  | case2 =>
    rintro f ⟨⟩
    exact nofun
  | case3 s b hb n s' hw more fault after hmore ih =>
    rw [hmore] at ih
    exact ih
  | case4 s b hb s' hw ih => exact ih
  | case5 s b hb fault s' hw =>
    rintro f ⟨⟩
    exact S.failed_kind s b fault s' hw

/-- To write all bytes comes to an end, whether or not the sink keeps a journal. The sink holds as many of the bytes as are
counted, the first ones, in addition to what it held before, and nothing is reported exactly if these are all. What is reported
is the failure of the last call, which offered all other bytes and failed or took none of them; the calls before took some or
were interrupted. No interruption is reported, and a sink that answers alike, however often it interrupts, takes as many bytes
and reports the same. -/
theorem writeAll_counts (S : Sink σ) (j : Journal σ) (b : Bytes) :
    ∃ taken fault made after,
      S.writeAll j.inner b = (taken, fault, after) ∧ S.journaled.writeAll j b = (taken, fault, j.note made after) ∧
      (j.note made after).received = j.received ++ b.take taken ∧ taken ≤ b.length ∧
      (fault = none ↔ taken = b.length) ∧
      (∀ f ∈ fault, ∃ passed reply, made = passed ++ [.write (b.drop taken) reply] ∧ (∀ c ∈ passed, c.Passes) ∧
        (reply = .failed f ∨ reply = .took 0 ∧ f = .writeZero)) ∧
      (∀ f ∈ fault, f.kind ≠ .interrupted) ∧
      ∀ (τ : Type) (T : Sink τ) (t : τ), AnswersLike S j.inner T t →
        (T.writeAll t b).1 = taken ∧ (T.writeAll t b).2.1 = fault := by
  obtain ⟨made, transfer, hjournal⟩ := S.writeAll_transfer j b
  have halike (τ : Type) (T : Sink τ) (t : τ) (h : AnswersLike S j.inner T t) :
      (T.writeAll t b).1 = (S.writeAll j.inner b).1 ∧ (T.writeAll t b).2.1 = (S.writeAll j.inner b).2.1 := by
    obtain ⟨htaken, hfault, -⟩ := h.writeAll b
    exact ⟨htaken.symm, hfault.symm⟩
  have hkind := S.writeAll_kind j.inner b
  generalize S.writeAll j.inner b = outcome at transfer hjournal halike hkind
  obtain ⟨taken, fault, after⟩ := outcome
  refine ⟨taken, fault, made, after, rfl, hjournal, ?_, transfer.attempt.le_length,
    transfer.attempt.eq_none_iff, ?_, hkind, halike⟩
  · rw [Journal.received_note, transfer.attempt.taken_eq]
  · rintro f rfl
    obtain ⟨passed, reply, hmade, hpassed, hfails⟩ := transfer.exists_last
    exact ⟨passed, reply, hmade, hpassed, Call.fault_write_iff.mp hfails⟩

end Sink

namespace Script

/-- A sink that follows a plan answers in the end as if no interruptions were planned. -/
theorem outlast_sink (s : Script) (b : Bytes) : sink.outlast s b = sink.write { s with interrupts := 0 } b := by
  induction hi : s.interrupts generalizing s with
  | zero =>
    have hs : { s with interrupts := 0 } = s := by rw [← hi]
    have hreply : (sink.write s b).1 ≠ .interrupted := by
      simp only [sink, write, hi]
      split
      · split <;> exact nofun
      · exact nofun
    rw [hs]
    exact Sink.outlast_of_write rfl hreply
  | succ n ih =>
    have hw : sink.write s b = (.interrupted, { s with interrupts := n }) := by simp only [sink, write, hi]
    rw [Sink.outlast_interrupted hw]
    exact ih { s with interrupts := n } rfl

/-- Plans that differ in interruptions only are carried out alike. -/
theorem answersLike_of_interrupts (s : Script) (n : Nat) :
    Sink.AnswersLike sink s sink { s with interrupts := n } := by
  refine ⟨fun s t => { s with interrupts := 0 } = { t with interrupts := 0 }, rfl, ?_⟩
  intro s t hst b _
  rw [outlast_sink, outlast_sink, hst]
  exact ⟨rfl, rfl⟩

end Script

/-- A sink that takes two bytes, one at a time, and is full then; at first it interrupts three writes. -/
theorem Sink.writeAll_counts_sample :
    let s : Script := { budget := some 2, mostPerWrite := some 1, interrupts := 3 }
    AnswersLike Script.sink s Script.sink { s with interrupts := 0 } ∧
    ∃ made after, Script.sink.journaled.writeAll { inner := s } [1, 2, 3] =
        (2, some (.told .other "disk full"), Journal.note { inner := s } made after) ∧
      (Journal.note { inner := s } made after).received = [1, 2] := by
  intro s
  obtain ⟨taken, fault, made, after, -, hjournal, hreceived, -, -, -, -, halike⟩ :=
    writeAll_counts Script.sink { inner := s } [1, 2, 3]
  have hlike := Script.answersLike_of_interrupts s 0
  obtain ⟨htaken, hfault⟩ := halike Script Script.sink _ hlike
  have hcalm : Script.sink.writeAll { budget := some 2, mostPerWrite := some 1 } [1, 2, 3] =
      (2, some (.told .other "disk full"), { budget := some 0, mostPerWrite := some 1 }) := by
    have hfirst : Script.sink.write { budget := some 2, mostPerWrite := some 1 } [1, 2, 3] =
        (.took 1, { budget := some 1, mostPerWrite := some 1 }) := rfl
    have hsecond : Script.sink.write { budget := some 1, mostPerWrite := some 1 } [2, 3] =
        (.took 1, { budget := some 0, mostPerWrite := some 1 }) := rfl
    have hfull : Script.sink.write { budget := some 0, mostPerWrite := some 1 } [3] =
        (.failed (.told .other "disk full"), { budget := some 0, mostPerWrite := some 1 }) := rfl
    rw [Script.sink.writeAll_took (List.cons_ne_nil _ _) hfirst, List.drop_succ_cons, List.drop_zero,
      Script.sink.writeAll_took (List.cons_ne_nil _ _) hsecond, List.drop_succ_cons, List.drop_zero,
      Script.sink.writeAll_failed (List.cons_ne_nil _ _) hfull rfl]
    rfl
  rw [hcalm] at htaken hfault
  subst htaken hfault
  exact ⟨hlike, made, after, hjournal, hreceived⟩

end EnvelopeLog

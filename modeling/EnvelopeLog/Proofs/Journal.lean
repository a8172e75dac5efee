import EnvelopeLog.Sink

/-!
# Journals of sinks

A journal keeps the calls that a sink sees, each with its answer. A sink that keeps one answers as the sink without
(`writeAll_transfer`). From the calls the bytes that the sink holds are read off, and whether an attempt to write took all
bytes or broke off (`Attempt`), and where (`Transfer.exists_last`).
-/

namespace EnvelopeLog

/-- A call to a sink and its answer. -/
inductive Call where
  | write (offered : Bytes) (reply : WriteReply)
  | flush (fault : Option IoFault)
  | release
deriving DecidableEq, Repr

namespace Call

/-- The bytes that the sink took at a call. -/
def taken : Call → Bytes
  | .write offered (.took n) => offered.take n
  | _ => []

/-- Whether a call is a write. -/
def IsWrite : Call → Prop
  | .write _ _ => True
  | _ => False

/-- Why a call failed, if it failed: a write that takes no byte fails, an interrupted one does not. -/
def fault? : Call → Option IoFault
  | .write _ (.took 0) => some .writeZero
  | .write _ (.failed fault) => some fault
  | .flush fault => fault
  | _ => none

/-- Whether a call is a write that did not fail. -/
def Passes (c : Call) : Prop := c.IsWrite ∧ c.fault? = none

/-- A call that fails takes nothing. -/
theorem taken_of_fault {c : Call} {fault : IoFault} (h : c.fault? = some fault) : c.taken = [] := by
  unfold fault? at h
  split at h <;> first | rfl | cases h

end Call

/-- The state of a sink and the calls it saw. -/
structure Journal (σ : Type) where
  inner : σ
  calls : List Call := []

namespace Journal

variable {σ : Type}

/-- The bytes that the sink took. -/
def received (j : Journal σ) : Bytes := j.calls.flatMap Call.taken

/-- The journal after more calls. -/
def note (j : Journal σ) (made : List Call) (inner : σ) : Journal σ := { inner, calls := j.calls ++ made }

@[simp] theorem note_calls (j : Journal σ) (made : List Call) (inner : σ) :
    (j.note made inner).calls = j.calls ++ made := rfl

@[simp] theorem received_note (j : Journal σ) (made : List Call) (inner : σ) :
    (j.note made inner).received = j.received ++ made.flatMap Call.taken := List.flatMap_append

end Journal

/-- The sink that behaves like another and keeps a journal. -/
def Sink.journaled {σ : Type} (S : Sink σ) : Sink (Journal σ) where
  write j b := ((S.write j.inner b).1, j.note [.write b (S.write j.inner b).1] (S.write j.inner b).2)
  flush j := ((S.flush j.inner).1, j.note [.flush (S.flush j.inner).1] (S.flush j.inner).2)
  release j := j.note [.release] (S.release j.inner)
  patience j b := S.patience j.inner b
  took_le := by
    intro j b n j' h
    exact S.took_le j.inner b n _ (Prod.ext (Prod.ext_iff.mp h).1 rfl)
  patience_lt := by
    intro j b j' h
    obtain ⟨hreply, rfl⟩ := Prod.ext_iff.mp h
    exact S.patience_lt j.inner b _ (Prod.ext hreply rfl)
  failed_kind := by
    intro j b fault j' h
    exact S.failed_kind j.inner b fault _ (Prod.ext (Prod.ext_iff.mp h).1 rfl)

namespace Sink

variable {σ : Type} (S : Sink σ)

/-- A write is answered as by the sink, and noted. -/
theorem write_journaled {s s' : σ} {b : Bytes} {reply : WriteReply} (calls : List Call)
    (hw : S.write s b = (reply, s')) :
    S.journaled.write ⟨s, calls⟩ b = (reply, ⟨s', calls ++ [.write b reply]⟩) := by
  simp only [journaled, hw, Journal.note]

/-- A flush is answered as by the sink, and noted. -/
theorem flush_journaled (j : Journal σ) (made : List Call) (inner : σ) :
    S.journaled.flush (j.note made inner) =
      ((S.flush inner).1, j.note (made ++ [.flush (S.flush inner).1]) (S.flush inner).2) := by
  simp only [journaled, Journal.note, List.append_assoc]

end Sink

/-! ## Attempts to write -/

/-- The calls of an attempt to write some bytes, how many the sink took, and why it did not take the others. -/
inductive Attempt (b : Bytes) : List Call → Nat → Option IoFault → Prop
  | whole {made : List Call} (passes : ∀ c ∈ made, c.Passes) (taken : made.flatMap Call.taken = b) :
      Attempt b made b.length none
  | broken {made : List Call} {last : Call} {n : Nat} {fault : IoFault} (passes : ∀ c ∈ made, c.Passes)
      (taken : made.flatMap Call.taken = b.take n) (short : n < b.length) (write : last.IsWrite)
      (fails : last.fault? = some fault) : Attempt b (made ++ [last]) n (some fault)

namespace Attempt

/-- An attempt that goes on after a write that took the first bytes is an attempt to write all of them. -/
theorem took {b : Bytes} {made : List Call} {n m : Nat} {fault : Option IoFault}
    (h : Attempt (b.drop (n + 1)) made m fault) (hn : n + 1 ≤ b.length) :
    Attempt b (.write b (.took (n + 1)) :: made) (n + 1 + m) fault := by
  have hfirst : (Call.write b (.took (n + 1))).Passes := ⟨trivial, rfl⟩
  cases h with
  | whole passes taken =>
    rw [List.length_drop, Nat.add_sub_cancel' hn]
    exact .whole (List.forall_mem_cons.mpr ⟨hfirst, passes⟩)
      (by rw [List.flatMap_cons, taken, Call.taken, List.take_append_drop])
  | broken passes taken short write fails =>
    rw [List.length_drop] at short
    exact .broken (List.forall_mem_cons.mpr ⟨hfirst, passes⟩)
      (by rw [List.flatMap_cons, taken, Call.taken, ← List.take_add]) (by omega) write fails

/-- An attempt that goes on after an interrupted write is an attempt to write the same bytes. -/
theorem interrupted {b : Bytes} {made : List Call} {m : Nat} {fault : Option IoFault} (h : Attempt b made m fault) :
    Attempt b (.write b .interrupted :: made) m fault := by
  have hfirst : (Call.write b .interrupted).Passes := ⟨trivial, rfl⟩
  cases h with
  | whole passes taken => exact .whole (List.forall_mem_cons.mpr ⟨hfirst, passes⟩) taken
  | broken passes taken short write fails =>
    exact .broken (List.forall_mem_cons.mpr ⟨hfirst, passes⟩) taken short write fails

/-- An attempt whose first write fails took no byte. -/
theorem failed {b : Bytes} {reply : WriteReply} {fault : IoFault} (hb : b ≠ [])
    (h : (Call.write b reply).fault? = some fault) : Attempt b [.write b reply] 0 (some fault) :=
  @broken b [] _ 0 fault (by simp) rfl (List.length_pos_iff.mpr hb) trivial h

/-- All calls of an attempt are writes. -/
theorem isWrite {b : Bytes} {made : List Call} {n : Nat} {fault : Option IoFault} (h : Attempt b made n fault) :
    ∀ c ∈ made, c.IsWrite := by
  cases h with
  | whole passes taken => exact fun c hc => (passes c hc).1
  | broken passes taken short write fails =>
    intro c hc
    rcases List.mem_append.mp hc with hc | hc
    · exact (passes c hc).1
    · rwa [List.mem_singleton.mp hc]

/-- The sink took the first bytes, as many as are counted. -/
theorem taken_eq {b : Bytes} {made : List Call} {n : Nat} {fault : Option IoFault} (h : Attempt b made n fault) :
    made.flatMap Call.taken = b.take n := by
  cases h with
  | whole passes taken => rw [taken, List.take_length]
  | broken passes taken short write fails => simp [taken, Call.taken_of_fault fails]

/-- An attempt that fails breaks off before the last byte. -/
theorem lt_length {b : Bytes} {made : List Call} {n : Nat} {fault : IoFault} (h : Attempt b made n (some fault)) :
    n < b.length := by
  cases h with
  | broken passes taken short write fails => exact short

/-- An attempt that does not fail takes everything. -/
theorem taken_eq_all {b : Bytes} {made : List Call} {n : Nat} (h : Attempt b made n none) :
    made.flatMap Call.taken = b := by
  cases h with
  | whole passes taken => exact taken

end Attempt

/-! ## Writing all bytes, one write at a time -/

/-- The calls of an attempt, each of which offers what is left of the bytes, with how many of them were taken and why the others
were not. -/
inductive Transfer : Bytes → List Call → Nat → Option IoFault → Prop
  | done : Transfer [] [] 0 none
  | took {b : Bytes} {made : List Call} {n taken : Nat} {fault : Option IoFault} (le : n + 1 ≤ b.length)
      (rest : Transfer (b.drop (n + 1)) made taken fault) :
      Transfer b (.write b (.took (n + 1)) :: made) (n + 1 + taken) fault
  | interrupted {b : Bytes} {made : List Call} {taken : Nat} {fault : Option IoFault}
      (rest : Transfer b made taken fault) : Transfer b (.write b .interrupted :: made) taken fault
  | failed {b : Bytes} {reply : WriteReply} {fault : IoFault} (left : b ≠ [])
      (fails : (Call.write b reply).fault? = some fault) : Transfer b [.write b reply] 0 (some fault)

namespace Transfer

/-- Handing over bytes is an attempt to put them on the sink. -/
theorem attempt {b : Bytes} {made : List Call} {taken : Nat} {fault : Option IoFault} (h : Transfer b made taken fault) :
    Attempt b made taken fault := by
  induction h with
  | done => exact .whole (by simp) rfl
  | took le _ ih => exact ih.took le
  | interrupted _ ih => exact ih.interrupted
  | failed left fails => exact .failed left fails

/-- The call at which an attempt breaks off is the first that fails, and it offers all that was not taken. -/
theorem exists_last {b : Bytes} {made : List Call} {taken : Nat} {fault : IoFault}
    (h : Transfer b made taken (some fault)) :
    ∃ passed reply, made = passed ++ [.write (b.drop taken) reply] ∧ (∀ c ∈ passed, c.Passes) ∧
      (Call.write (b.drop taken) reply).fault? = some fault := by
  generalize hfault : some fault = result at h
  induction h with
  | done => cases hfault
  | @took b made n taken result le _ ih =>
    obtain ⟨passed, reply, hmade, hpassed, hlast⟩ := ih hfault
    rw [List.drop_drop] at hmade hlast
    refine ⟨.write b (.took (n + 1)) :: passed, reply, by rw [hmade, List.cons_append], ?_, hlast⟩
    exact List.forall_mem_cons.mpr ⟨⟨trivial, rfl⟩, hpassed⟩
  | @interrupted b made taken result _ ih =>
    obtain ⟨passed, reply, hmade, hpassed, hlast⟩ := ih hfault
    refine ⟨.write b .interrupted :: passed, reply, by rw [hmade, List.cons_append], ?_, hlast⟩
    exact List.forall_mem_cons.mpr ⟨⟨trivial, rfl⟩, hpassed⟩
  | @failed b reply result left fails =>
    cases hfault
    exact ⟨[], reply, rfl, by simp, fails⟩

end Transfer

namespace Sink

variable {σ : Type} (S : Sink σ) {s s' : σ} {b : Bytes}

theorem writeAll_nil (s : σ) : S.writeAll s [] = (0, none, s) := by
  rw [writeAll, if_pos rfl]

theorem writeAll_took {n : Nat} (hb : b ≠ []) (hw : S.write s b = (.took (n + 1), s')) :
    S.writeAll s b =
      (n + 1 + (S.writeAll s' (b.drop (n + 1))).1, (S.writeAll s' (b.drop (n + 1))).2) := by
  rw [writeAll, if_neg hb]
  split <;> rename_i heq <;> rw [hw] at heq <;> cases heq
  rfl

theorem writeAll_interrupted (hb : b ≠ []) (hw : S.write s b = (.interrupted, s')) :
    S.writeAll s b = S.writeAll s' b := by
  rw [writeAll, if_neg hb]
  split <;> rename_i heq <;> rw [hw] at heq <;> cases heq
  rfl

theorem writeAll_failed {reply : WriteReply} {fault : IoFault} (hb : b ≠ []) (hw : S.write s b = (reply, s'))
    (hfault : (Call.write b reply).fault? = some fault) : S.writeAll s b = (0, some fault, s') := by
  rw [writeAll, if_neg hb]
  split <;> rename_i heq <;> rw [hw] at heq <;> cases heq <;> cases hfault <;> rfl

/-- To write all bytes to a sink that keeps a journal is to write them to the sink, and the calls that are added are those made,
one after the other. The calls grow with every write, so the induction is over all journals at once. -/
theorem writeAll_transfer (j : Journal σ) (b : Bytes) :
    ∃ made, Transfer b made (S.writeAll j.inner b).1 (S.writeAll j.inner b).2.1 ∧
      S.journaled.writeAll j b =
        ((S.writeAll j.inner b).1, (S.writeAll j.inner b).2.1, j.note made (S.writeAll j.inner b).2.2) := by
  obtain ⟨s, calls⟩ := j
  have hfailed {s s' : σ} {b : Bytes} {calls : List Call} {reply : WriteReply} {fault : IoFault} (hb : b ≠ [])
      (hw : S.write s b = (reply, s')) (hfault : (Call.write b reply).fault? = some fault) :
      ∃ made, Transfer b made (S.writeAll s b).1 (S.writeAll s b).2.1 ∧ S.journaled.writeAll ⟨s, calls⟩ b =
        ((S.writeAll s b).1, (S.writeAll s b).2.1, Journal.note ⟨s, calls⟩ made (S.writeAll s b).2.2) := by
    rw [S.writeAll_failed hb hw hfault, S.journaled.writeAll_failed hb (S.write_journaled calls hw) hfault]
    exact ⟨_, .failed hb hfault, rfl⟩
  induction s, b using writeAll.induct S generalizing calls with
  | case1 s =>
    rw [writeAll_nil, writeAll_nil]
    exact ⟨[], .done, by simp [Journal.note]⟩
  | case2 s b hb s' hw => exact hfailed hb hw rfl
  | case3 s b hb n s' hw _ _ _ _ ih =>
    obtain ⟨made, hmade, hrest⟩ := ih (calls ++ [.write b (.took (n + 1))])
    rw [S.writeAll_took hb hw, S.journaled.writeAll_took hb (S.write_journaled calls hw), hrest]
    exact ⟨_, hmade.took (S.took_le s b (n + 1) s' hw), by simp [Journal.note]⟩
  | case4 s b hb s' hw ih =>
    obtain ⟨made, hmade, hrest⟩ := ih (calls ++ [.write b .interrupted])
    rw [S.writeAll_interrupted hb hw, S.journaled.writeAll_interrupted hb (S.write_journaled calls hw), hrest]
    exact ⟨_, hmade.interrupted, by simp [Journal.note]⟩
  | case5 s b hb fault s' hw => exact hfailed hb hw rfl

/-- The calls that are added to a journal are those of an attempt. -/
theorem writeAll_journaled (j : Journal σ) (b : Bytes) :
    ∃ made, Attempt b made (S.writeAll j.inner b).1 (S.writeAll j.inner b).2.1 ∧
      S.journaled.writeAll j b =
        ((S.writeAll j.inner b).1, (S.writeAll j.inner b).2.1, j.note made (S.writeAll j.inner b).2.2) := by
  obtain ⟨made, transfer, hwrite⟩ := S.writeAll_transfer j b
  exact ⟨made, transfer.attempt, hwrite⟩

end Sink

end EnvelopeLog

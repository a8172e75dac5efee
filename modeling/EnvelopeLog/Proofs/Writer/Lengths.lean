import EnvelopeLog.Proofs.Writer.Gain

/-!
# Only lengths show

Two runs with the same steps, but for the contents of what is written, on sinks that behave alike towards bytes of the same
lengths, cannot be told apart by anything but the bytes of the frames: every answer is the same, and so is whatever can be seen of
the writer, of its use of random bytes and of the calls that the sink saw (`Stream.trace_alike`). The reason is that a seal
succeeds or fails by lengths alone and makes frames of the same length (`Writer.sealBuffer_alike`).
-/

namespace EnvelopeLog

variable {σ τ : Type} {R : σ → τ → Prop} {S : Sink σ} {T : Sink τ}

/-! ## Sinks -/

/-- Two sinks behave alike towards bytes of the same lengths, as long as `R` relates their states, and it goes on to do so. -/
structure Sink.Mirrors (R : σ → τ → Prop) (S : Sink σ) (T : Sink τ) : Prop where
  write : ∀ {s t} {b c : Bytes}, R s t → b.length = c.length →
    (S.write s b).1 = (T.write t c).1 ∧ R (S.write s b).2 (T.write t c).2
  flush : ∀ {s t}, R s t → (S.flush s).1 = (T.flush t).1 ∧ R (S.flush s).2 (T.flush t).2
  release : ∀ {s t}, R s t → R (S.release s) (T.release t)

/-- A call with its bytes blotted out. -/
def Call.shape : Call → Call
  | .write offered reply => .write (List.replicate offered.length 0) reply
  | c => c

/-- Journals of sinks in related states with the same calls but for the bytes. -/
structure Journal.Alike (R : σ → τ → Prop) (j : Journal σ) (i : Journal τ) : Prop where
  inner : R j.inner i.inner
  calls : j.calls.map Call.shape = i.calls.map Call.shape

/-- How many bytes the sink took at some calls. -/
theorem Call.length_taken_shape (calls : List Call) :
    ((calls.map Call.shape).flatMap Call.taken).length = (calls.flatMap Call.taken).length := by
  induction calls with
  | nil => rfl
  | cons c calls ih =>
    have hhead : c.shape.taken.length = c.taken.length := by
      cases c with
      | write offered reply => cases reply <;> simp [Call.shape, Call.taken]
      | flush fault => rfl
      | release => rfl
    rw [List.map_cons, List.flatMap_cons, List.flatMap_cons, List.length_append, List.length_append, ih, hhead]

/-- Alike journals record sinks that received equally many bytes. -/
theorem Journal.Alike.length_received {j : Journal σ} {i : Journal τ} (h : j.Alike R i) :
    j.received.length = i.received.length := by
  rw [received, received, ← Call.length_taken_shape j.calls, ← Call.length_taken_shape i.calls, h.calls]

/-- Alike journals stay alike if calls of one shape are noted in both. -/
theorem Journal.Alike.note {j : Journal σ} {i : Journal τ} (h : j.Alike R i) {c d : Call} (hshape : c.shape = d.shape)
    {s : σ} {t : τ} (hst : R s t) : (j.note [c] s).Alike R (i.note [d] t) := by
  refine ⟨hst, ?_⟩
  rw [Journal.note_calls, Journal.note_calls, List.map_append, List.map_append, h.calls, List.map_singleton,
    List.map_singleton, hshape]

namespace Sink.Mirrors

/-- Sinks that behave alike go on to do so when journals are kept. -/
theorem journaled (h : Mirrors R S T) : Mirrors (Journal.Alike R) S.journaled T.journaled where
  write := by
    intro j i b c hji hlength
    obtain ⟨hreply, hst⟩ := h.write hji.inner hlength
    refine ⟨hreply, hji.note ?_ hst⟩
    rw [Call.shape, Call.shape, hlength]
    exact congrArg _ hreply
  flush := by
    intro j i hji
    obtain ⟨hfault, hst⟩ := h.flush hji.inner
    exact ⟨hfault, hji.note (congrArg (fun fault => (Call.flush fault).shape) hfault) hst⟩
  release := fun hji => hji.note rfl (h.release hji.inner)

/-- To write all of as many bytes comes to the same. -/
theorem writeAll (h : Mirrors R S T) {s : σ} {t : τ} (hst : R s t) {b c : Bytes} (hlength : b.length = c.length) :
    (S.writeAll s b).1 = (T.writeAll t c).1 ∧ (S.writeAll s b).2.1 = (T.writeAll t c).2.1 ∧
      R (S.writeAll s b).2.2 (T.writeAll t c).2.2 := by
  have hnil {b c : Bytes} (hlength : b.length = c.length) (hb : b ≠ []) : c ≠ [] := by
    rwa [← List.length_pos_iff, ← hlength, List.length_pos_iff]
  induction s, b using Sink.writeAll.induct S generalizing t c with
  | case1 s =>
    obtain rfl : c = [] := List.length_eq_zero_iff.mp hlength.symm
    rw [S.writeAll_nil, T.writeAll_nil]
    exact ⟨rfl, rfl, hst⟩
  | case2 s b hb s' hw =>
    obtain ⟨hreply, hnext⟩ := h.write hst hlength
    rw [hw] at hreply hnext
    rw [S.writeAll_failed hb hw rfl, T.writeAll_failed (hnil hlength hb) (Prod.ext hreply.symm rfl) rfl]
    exact ⟨rfl, rfl, hnext⟩
  | case3 s b hb n s' hw _ _ _ _ ih =>
    obtain ⟨hreply, hnext⟩ := h.write hst hlength
    rw [hw] at hreply hnext
    have hdrop : (b.drop (n + 1)).length = (c.drop (n + 1)).length := by rw [List.length_drop, List.length_drop, hlength]
    obtain ⟨hcount, hfault, hlast⟩ := ih hnext hdrop
    rw [S.writeAll_took hb hw, T.writeAll_took (hnil hlength hb) (Prod.ext hreply.symm rfl)]
    exact ⟨congrArg (n + 1 + ·) hcount, hfault, hlast⟩
  | case4 s b hb s' hw ih =>
    obtain ⟨hreply, hnext⟩ := h.write hst hlength
    rw [hw] at hreply hnext
    rw [S.writeAll_interrupted hb hw, T.writeAll_interrupted (hnil hlength hb) (Prod.ext hreply.symm rfl)]
    exact ih hnext hlength
  | case5 s b hb fault s' hw =>
    obtain ⟨hreply, hnext⟩ := h.write hst hlength
    rw [hw] at hreply hnext
    rw [S.writeAll_failed hb hw rfl, T.writeAll_failed (hnil hlength hb) (Prod.ext hreply.symm rfl) rfl]
    exact ⟨rfl, rfl, hnext⟩

end Sink.Mirrors

/-- A sink that follows a plan does not look at bytes. -/
theorem Script.mirrors_sink : Script.sink.Mirrors Eq Script.sink where
  write := by
    rintro s - b c rfl hlength
    have hwrite : s.write b = s.write c := by
      unfold write
      rw [hlength]
    exact ⟨congrArg Prod.fst hwrite, congrArg Prod.snd hwrite⟩
  flush := by
    rintro s - rfl
    exact ⟨rfl, rfl⟩
  release := by
    rintro s - rfl
    rfl

/-! ## Seals -/

/-- Whether a frame can be encoded, and how long its encoding is, is decided by the lengths of its fields. -/
theorem Frame.map_length_encode (f : Frame) :
    f.encode.map List.length =
      if 0x100000000 ≤ f.wrappedKey.length then .error (.tooLong .wrappedKey)
      else if 0x100000000 ≤ f.cipherText.length then .error (.tooLong .cipherText)
      else .ok f.size := by
  rw [encode]
  split
  · rfl
  · split
    · rfl
    · rw [Except.map, f.layout_length]

namespace Writer

/-- Writers that differ at most in the contents of what they hold. -/
def Alike (w v : Writer) : Prop := ∃ c : Bytes, w.buffer.length = c.length ∧ v = { w with buffer := c }

theorem Alike.refl (w : Writer) : w.Alike w := ⟨w.buffer, rfl, rfl⟩

theorem Alike.ready_iff {w v : Writer} (h : w.Alike v) : Session.Ready w ↔ Session.Ready v := by
  obtain ⟨c, hc, rfl⟩ := h
  have hnil : w.buffer ≠ [] ↔ c ≠ [] := by
    rw [← List.length_pos_iff, ← List.length_pos_iff, hc]
  exact ⟨fun hw => ⟨hw.unpoisoned, hnil.mp hw.filled, hw.opened⟩,
    fun hv => ⟨hv.unpoisoned, hnil.mpr hv.filled, hv.opened⟩⟩

/-- The length of what is held decides whether it can be sealed, and the length of its frame. -/
theorem sealBuffer_alike {w v : Writer} (h : w.Alike v) (e f : Entropy) :
    (w.sealBuffer e).1.map List.length = (v.sealBuffer f).1.map List.length := by
  obtain ⟨c, hc, rfl⟩ := h
  have hmap (x : Except FrameFault Bytes) (g : FrameFault → Error) :
      (x.mapError g).map List.length = (x.map List.length).mapError g := by cases x <;> rfl
  rw [sealBuffer_eq, sealBuffer_eq]
  by_cases hroom : w.recipient.Fits KeyMaterial.keySize
  · have hpayload (b : Bytes) (e : Entropy) : (Sealing.draw b e).payload = b := rfl
    simp only [if_pos hroom, hmap, Frame.map_length_encode, Frame.size, Sealing.frame_wrappedKey_length,
      Sealing.frame_cipherText_length, Sealing.frame_nonce_length, hpayload, hc]
  · simp only [if_neg hroom]

end Writer

/-! ## Operations -/

/-- Worlds with related sinks in which as many random bytes were drawn, `d` and `d'` of them before. -/
def World.Alike (R : σ → τ → Prop) (d d' : Nat) (world : World σ) (world' : World τ) : Prop :=
  R world.sink world'.sink ∧ ∃ n, world.entropy.drawn = d + n ∧ world'.entropy.drawn = d' + n

/-- Operations that differ at most in the contents of what is written. -/
inductive Operation.Alike : Operation → Operation → Prop where
  | write {b c : Bytes} (length : b.length = c.length) : Alike (.write b) (.write c)
  | writeAll {b c : Bytes} (length : b.length = c.length) : Alike (.writeAll b) (.writeAll c)
  | same (op : Operation) : Alike op op

namespace Writer

variable {w v : Writer} {d d' : Nat} {world : World σ} {world' : World τ}

/-- Alike writers answer writes of equal length alike, and stay alike. -/
theorem write_alike (h : w.Alike v) {b c : Bytes} (hlength : b.length = c.length) :
    (w.write b).1 = (v.write c).1 ∧ (w.write b).2.Alike (v.write c).2 := by
  obtain ⟨a, ha, rfl⟩ := h
  have hnil : b = [] ↔ c = [] := by rw [← List.length_eq_zero_iff, ← List.length_eq_zero_iff, hlength]
  unfold write
  by_cases hb : b = []
  · rw [if_pos hb, if_pos (hnil.mp hb)]
    exact ⟨rfl, a, ha, rfl⟩
  · rw [if_neg hb, if_neg fun hc => hb (hnil.mpr hc)]
    split
    · exact ⟨rfl, a, ha, rfl⟩
    · split
      · exact ⟨rfl, a, ha, rfl⟩
      · refine ⟨congrArg Except.ok hlength, a ++ c, ?_, rfl⟩
        rw [List.length_append, List.length_append, ha, hlength]

/-- Alike writers put frames of equal length on mirrored sinks with the same outcome. -/
theorem emit_alike (hsinks : S.Mirrors R T) (h : w.Alike v) {frame frame' : Bytes} (hlength : frame.length = frame'.length)
    {s : σ} {t : τ} (hst : R s t) :
    (w.emit S frame s).1 = (v.emit T frame' t).1 ∧ (w.emit S frame s).2.1.Alike (v.emit T frame' t).2.1 ∧
      R (w.emit S frame s).2.2 (v.emit T frame' t).2.2 := by
  obtain ⟨a, ha, rfl⟩ := h
  obtain ⟨hcount, hfault, hlast⟩ := hsinks.writeAll hst hlength
  unfold emit
  generalize S.writeAll s frame = x at hcount hfault hlast ⊢
  generalize T.writeAll t frame' = y at hcount hfault hlast ⊢
  obtain ⟨n, fault, s⟩ := x
  obtain ⟨m, fault', t⟩ := y
  obtain rfl : n = m := hcount
  obtain rfl : fault = fault' := hfault
  cases fault with
  | some fault => exact ⟨rfl, ⟨a, ha, rfl⟩, hlast⟩
  | none =>
    obtain ⟨hfault, hlast⟩ := hsinks.flush hlast
    dsimp only
    generalize S.flush s = x at hfault hlast ⊢
    generalize T.flush t = y at hfault hlast ⊢
    obtain ⟨fault, s⟩ := x
    obtain ⟨fault', t⟩ := y
    obtain rfl : fault = fault' := hfault
    cases fault with
    | none => exact ⟨rfl, ⟨[], rfl, rfl⟩, hlast⟩
    | some fault => exact ⟨rfl, ⟨[], rfl, rfl⟩, hlast⟩

/-- Alike writers flush with the same outcome. -/
theorem flush_alike (hsinks : S.Mirrors R T) (h : w.Alike v) (hworld : world.Alike R d d' world') :
    (w.flush S world).1 = (v.flush T world').1 ∧ (w.flush S world).2.1.Alike (v.flush T world').2.1 ∧
      (w.flush S world).2.2.Alike R d d' (v.flush T world').2.2 := by
  obtain ⟨hst, n, hdrawn, hdrawn'⟩ := hworld
  by_cases hready : Session.Ready w
  · have hlength := sealBuffer_alike h world.entropy world'.entropy
    have hrecipient : v.recipient = w.recipient := by
      obtain ⟨c, -, rfl⟩ := h
      rfl
    have hspent : (w.sealBuffer world.entropy).2.drawn = d + (n + w.recipient.sealWidth) := by
      rw [sealBuffer_eq, ← Nat.add_assoc, ← hdrawn]
    have hspent' : (v.sealBuffer world'.entropy).2.drawn = d' + (n + w.recipient.sealWidth) := by
      rw [sealBuffer_eq, ← Nat.add_assoc, ← hdrawn', hrecipient]
    rw [flush_of_ready hready, flush_of_ready (h.ready_iff.mp hready)]
    generalize w.sealBuffer world.entropy = x at hlength hspent ⊢
    generalize v.sealBuffer world'.entropy = y at hlength hspent' ⊢
    rcases x with ⟨e | frame, entropy⟩ <;> rcases y with ⟨e' | frame', entropy'⟩ <;>
      simp only [Except.map, reduceCtorEq, Except.error.injEq, Except.ok.injEq] at hlength
    · exact ⟨congrArg Except.error hlength, h, hst, _, hspent, hspent'⟩
    · obtain ⟨hresult, hwriters, hlast⟩ := emit_alike hsinks h hlength hst
      exact ⟨hresult, hwriters, hlast, _, hspent, hspent'⟩
  · rw [flush_of_not_ready hready, flush_of_not_ready fun hv => hready (h.ready_iff.mpr hv)]
    refine ⟨?_, h, hst, n, hdrawn, hdrawn'⟩
    obtain ⟨c, hc, rfl⟩ := h
    have hnil : w.buffer = [] ↔ c = [] := by rw [← List.length_eq_zero_iff, ← List.length_eq_zero_iff, hc]
    simp only [idleAnswer, hnil]

/-- Alike writers close with the same outcome. -/
theorem close_alike (hsinks : S.Mirrors R T) (h : w.Alike v) (hworld : world.Alike R d d' world') :
    (w.close S world).1 = (v.close T world').1 ∧ (w.close S world).2.1.Alike (v.close T world').2.1 ∧
      (w.close S world).2.2.Alike R d d' (v.close T world').2.2 := by
  obtain ⟨hresult, hwriters, hst, hdrawn⟩ := flush_alike hsinks h hworld
  have hclosed : v.closed = w.closed ∧ v.poisoned = w.poisoned ∧ (w.buffer = [] ↔ v.buffer = []) := by
    obtain ⟨c, hc, rfl⟩ := h
    exact ⟨rfl, rfl, by rw [← List.length_eq_zero_iff, ← List.length_eq_zero_iff, hc]⟩
  obtain ⟨hclosed, hpoisoned, hempty⟩ := hclosed
  cases hc : w.closed with
  | true =>
    rw [close_of_closed hc, close_of_closed (hclosed.trans hc)]
    exact ⟨rfl, h, hworld⟩
  | false =>
    rw [close_of_open hc, close_of_open (hclosed.trans hc)]
    refine ⟨?_, ?_, hsinks.release hst, hdrawn⟩
    · simp only [hpoisoned, hempty, hresult]
    · obtain ⟨c, -, heq⟩ := hwriters
      rw [heq]
      exact ⟨[], rfl, rfl⟩

/-- Alike writers finish with the same outcome. -/
theorem finish_alike (hsinks : S.Mirrors R T) (h : w.Alike v) (hworld : world.Alike R d d' world') :
    (w.finish S world).1 = (v.finish T world').1 ∧ (w.finish S world).2.Alike R d d' (v.finish T world').2 := by
  obtain ⟨hresult, hwriters, hworlds⟩ := flush_alike hsinks h hworld
  unfold finish
  generalize w.flush S world = x at hresult hwriters hworlds ⊢
  generalize v.flush T world' = y at hresult hwriters hworlds ⊢
  obtain ⟨result, w', after⟩ := x
  obtain ⟨result', v', after'⟩ := y
  obtain rfl : result = result' := hresult
  cases result with
  | error e => exact ⟨rfl, (close_alike hsinks hwriters hworlds).2.2⟩
  | ok b =>
    have hclosed : w'.closed = v'.closed := by
      obtain ⟨c, -, heq⟩ := hwriters
      exact (congrArg closed heq).symm
    exact ⟨by simp only [hclosed], hworlds⟩

theorem Alike.inspect_eq (h : w.Alike v) : w.inspect = v.inspect := by
  obtain ⟨c, hc, rfl⟩ := h
  unfold inspect
  rw [hc]

end Writer

/-- Operations that differ at most in contents are answered alike and leave writers and worlds alike. -/
theorem Operation.perform_alike (hsinks : S.Mirrors R T) {w v : Writer} (h : w.Alike v) {d d' : Nat} {world : World σ}
    {world' : World τ} (hworld : world.Alike R d d' world') {op op' : Operation} (hop : op.Alike op') :
    (op.perform S w world).1 = (op'.perform T v world').1 ∧
      Option.Rel Writer.Alike (op.perform S w world).2.1 (op'.perform T v world').2.1 ∧
      (op.perform S w world).2.2.Alike R d d' (op'.perform T v world').2.2 := by
  have hwrite {b c : Bytes} (hlength : b.length = c.length) :
      (w.write b).1 = (v.write c).1 ∧ (w.write b).2.Alike (v.write c).2 := Writer.write_alike h hlength
  have hflush := Writer.flush_alike hsinks h hworld
  cases hop with
  | write hlength => exact ⟨congrArg Reply.wrote (hwrite hlength).1, .some (hwrite hlength).2, hworld⟩
  | writeAll hlength =>
    exact ⟨congrArg (fun r : Except IoFault Nat => Reply.done (r.map fun _ => ())) (hwrite hlength).1,
      .some (hwrite hlength).2, hworld⟩
  | same op =>
    cases op with
    | write b => exact ⟨congrArg Reply.wrote (hwrite rfl).1, .some (hwrite rfl).2, hworld⟩
    | writeAll b =>
      exact ⟨congrArg (fun r : Except IoFault Nat => Reply.done (r.map fun _ => ())) (hwrite rfl).1,
        .some (hwrite rfl).2, hworld⟩
    | flush =>
      exact ⟨congrArg (fun r : Except Error Bool => Reply.done ((r.mapError Error.toIo).map fun _ => ())) hflush.1,
        .some hflush.2.1, hflush.2.2⟩
    | flushFrame => exact ⟨congrArg Reply.flushed hflush.1, .some hflush.2.1, hflush.2.2⟩
    | close =>
      have hclose := Writer.close_alike hsinks h hworld
      exact ⟨congrArg Reply.closed hclose.1, .some hclose.2.1, hclose.2.2⟩
    | finish =>
      have hfinish := Writer.finish_alike hsinks h hworld
      exact ⟨congrArg Reply.closed hfinish.1, .none, hfinish.2⟩
    | drop => exact ⟨rfl, .none, (Writer.close_alike hsinks h hworld).2.2⟩
    | inspect => exact ⟨congrArg Reply.shown h.inspect_eq, .some h, hworld⟩
    | lacking op => exact ⟨rfl, .some h, hworld⟩

/-! ## Streams -/

/-- A writer in use, until it is given up, on a sink that keeps a journal. -/
structure Stream (σ : Type) where
  writer : Option Writer
  world : World (Journal σ)

/-- What can be seen of a writer. -/
structure WriterView where
  canWrite : Bool
  closed : Bool
  poisoned : Bool
  buffered : Nat
  frames : Nat
  shown : String

def Writer.view (w : Writer) : WriterView where
  canWrite := w.canWrite
  closed := w.closed
  poisoned := w.poisoned
  buffered := w.buffer.length
  frames := w.frames
  shown := w.inspect

theorem Writer.Alike.view_eq {w v : Writer} (h : w.Alike v) : w.view = v.view := by
  have hshown := h.inspect_eq
  obtain ⟨c, hc, rfl⟩ := h
  unfold view
  rw [hshown, hc]
  rfl

/-- What can be seen after a step without a look at the bytes of frames. -/
structure Observation where
  /-- The answer, if there is still a writer to give one. -/
  reply : Option Reply
  view : Option WriterView
  /-- How many random bytes were drawn. -/
  drawn : Nat
  /-- The calls that the sink saw, without their bytes. -/
  calls : List Call
  /-- How many bytes the sink took. -/
  bytes : Nat
  flushes : Nat
  releases : Nat

namespace Stream

/-- What can be done with a stream. -/
inductive Step (σ : Type) where
  | operate (op : Operation)
  /-- Someone else changes the sink. -/
  | change (f : σ → σ)

/-- Steps that differ at most in the contents of what is written, and in how they change sinks in related states. -/
inductive Step.Alike (R : σ → τ → Prop) : Step σ → Step τ → Prop where
  | operate {op op' : Operation} (alike : op.Alike op') : Alike R (.operate op) (.operate op')
  | change {f : σ → σ} {g : τ → τ} (related : ∀ s t, R s t → R (f s) (g t)) : Alike R (.change f) (.change g)

/-- A stream for a recipient on a sink that took nothing yet. -/
def start (recipient : Rsa.PublicKey) (inner : σ) (entropy : Entropy) : Stream σ where
  writer := some { recipient }
  world := { sink := { inner }, entropy }

/-- The answer to a step and the stream after it. -/
def step (S : Sink σ) (s : Stream σ) : Step σ → Option Reply × Stream σ
  | .operate op =>
    match s.writer with
    | none => (none, s)
    | some w =>
      let (reply, writer, world) := op.perform S.journaled w s.world
      (some reply, { writer, world })
  | .change f => (none, { s with world := { s.world with sink := { s.world.sink with inner := f s.world.sink.inner } } })

/-- What is seen after a step, `before` random bytes having been drawn when the stream was started. -/
def observe (before : Nat) (reply : Option Reply) (s : Stream σ) : Observation where
  reply := reply
  view := s.writer.map Writer.view
  drawn := s.world.entropy.drawn - before
  calls := s.world.sink.calls.map Call.shape
  bytes := s.world.sink.received.length
  flushes := s.world.sink.calls.countP fun | .flush _ => true | _ => false
  releases := s.world.sink.calls.countP fun | .release => true | _ => false

/-- The stream after some steps. -/
def run (S : Sink σ) (s : Stream σ) (steps : List (Step σ)) : Stream σ := steps.foldl (fun s x => (s.step S x).2) s

/-- What is seen after each of some steps. -/
def trace (S : Sink σ) (before : Nat) : Stream σ → List (Step σ) → List Observation
  | _, [] => []
  | s, x :: steps => observe before (s.step S x).1 (s.step S x).2 :: trace S before (s.step S x).2 steps

/-- Streams that differ at most in contents. -/
structure Alike (R : σ → τ → Prop) (d d' : Nat) (s : Stream σ) (t : Stream τ) : Prop where
  writer : Option.Rel Writer.Alike s.writer t.writer
  world : s.world.Alike (Journal.Alike R) d d' t.world

/-- Of alike streams the same is observed. -/
theorem Alike.observe_eq {d d' : Nat} {s : Stream σ} {t : Stream τ} (h : s.Alike R d d' t) (reply : Option Reply) :
    s.observe d reply = t.observe d' reply := by
  obtain ⟨hwriter, hsink, n, hdrawn, hdrawn'⟩ := h
  have hview : s.writer.map Writer.view = t.writer.map Writer.view := by
    generalize s.writer = x at hwriter ⊢
    generalize t.writer = y at hwriter ⊢
    cases hwriter with
    | none => rfl
    | some halike => exact congrArg some halike.view_eq
  have hcount (p : Call → Bool) (hp : ∀ c, p c.shape = p c) : s.world.sink.calls.countP p = t.world.sink.calls.countP p := by
    have hshape (calls : List Call) : (calls.map Call.shape).countP p = calls.countP p := by
      rw [List.countP_map]
      exact List.countP_congr fun c _ => by rw [Function.comp_apply, hp]
    rw [← hshape, ← hshape t.world.sink.calls, hsink.calls]
  simp only [observe, hview, hdrawn, hdrawn', Nat.add_sub_cancel_left, hsink.length_received, hsink.calls,
    Observation.mk.injEq, true_and]
  exact ⟨hcount _ fun c => by cases c <;> rfl, hcount _ fun c => by cases c <;> rfl⟩

/-- Steps that differ at most in contents are answered alike and leave streams alike. -/
theorem Alike.step (hsinks : S.Mirrors R T) {d d' : Nat} {s : Stream σ} {t : Stream τ} (h : s.Alike R d d' t)
    {x : Step σ} {y : Step τ} (hxy : x.Alike R y) :
    (s.step S x).1 = (t.step T y).1 ∧ (s.step S x).2.Alike R d d' (t.step T y).2 := by
  cases hxy with
  | operate halike =>
    obtain ⟨sw, sworld⟩ := s
    obtain ⟨tw, tworld⟩ := t
    obtain ⟨hwriter, hworld⟩ := h
    dsimp only at hwriter
    cases hwriter with
    | none => exact ⟨rfl, .none, hworld⟩
    | some hw =>
      obtain ⟨hreply, hafter, hworlds⟩ := Operation.perform_alike hsinks.journaled hw hworld halike
      exact ⟨congrArg some hreply, hafter, hworlds⟩
  | change hrelated =>
    exact ⟨rfl, h.writer, ⟨hrelated _ _ h.world.1.inner, h.world.1.calls⟩, h.world.2⟩

/-- Runs of alike steps leave the same trace. -/
theorem Alike.trace_eq (hsinks : S.Mirrors R T) {d d' : Nat} {xs : List (Step σ)} {ys : List (Step τ)}
    (hsteps : List.Forall₂ (Step.Alike R) xs ys) {s : Stream σ} {t : Stream τ} (h : s.Alike R d d' t) :
    trace S d s xs = trace T d' t ys := by
  induction hsteps generalizing s t with
  | nil => rfl
  | cons hxy _ ih =>
    obtain ⟨hreply, hafter⟩ := h.step hsinks hxy
    rw [trace, trace, hreply, hafter.observe_eq, ih hafter]

/-- A stream's writer, as long as there is one, seals for the stream's recipient. -/
def Settled (recipient : Rsa.PublicKey) (s : Stream σ) : Prop := ∀ w, s.writer = some w → w.Settled recipient

theorem Settled.step {recipient : Rsa.PublicKey} {s : Stream σ} (h : s.Settled recipient) (S : Sink σ) (x : Step σ) :
    (s.step S x).2.Settled recipient := by
  cases x with
  | change f => exact h
  | operate op =>
    obtain ⟨writer, world⟩ := s
    cases writer with
    | none => exact h
    | some w => exact fun v hv => Operation.perform_settled (h w rfl) S.journaled world op hv

/-- A settled stream stays settled. -/
theorem Settled.run {recipient : Rsa.PublicKey} {s : Stream σ} (h : s.Settled recipient) (S : Sink σ)
    (steps : List (Step σ)) : (s.run S steps).Settled recipient := by
  induction steps generalizing s with
  | nil => exact h
  | cons x steps ih => exact ih (h.step S x)

/-- Two streams for one recipient, with the same steps but for the contents of what is written, with any random bytes, on sinks
that behave alike towards bytes of the same lengths: what is seen after every step is the same, and every flush that succeeds
adds 36 bytes, a wrapped key and what was held, unless nothing was held. -/
theorem trace_alike (hsinks : S.Mirrors R T) {inner : σ} {inner' : τ} (hinner : R inner inner') {xs : List (Step σ)}
    {ys : List (Step τ)} (hsteps : List.Forall₂ (Step.Alike R) xs ys) (recipient : Rsa.PublicKey) (e f : Entropy) :
    trace S e.drawn (start recipient inner e) xs = trace T f.drawn (start recipient inner' f) ys ∧
    let s := (start recipient inner e).run S xs
    ∀ w op, s.writer = some w → op.Flushes → (op.perform S.journaled w s.world).1.succeeded = true →
      (s.step S (.operate op)).2.world.sink.received.length =
        s.world.sink.received.length + if w.buffer = [] then 0 else recipient.size + 36 + w.buffer.length := by
  have hstart : (start recipient inner e).Alike R e.drawn f.drawn (start recipient inner' f) :=
    ⟨.some (.refl _), ⟨hinner, rfl⟩, 0, rfl, rfl⟩
  refine ⟨hstart.trace_eq hsinks hsteps, ?_⟩
  intro s w op hwriter hflushes hsucceeded
  have hfresh : (start recipient inner e).Settled recipient := by
    rintro w ⟨⟩
    exact ⟨rfl, fun _ => rfl⟩
  have hw : w.Settled recipient := hfresh.run S xs w hwriter
  have hgain := Operation.perform_gain hw hflushes hsucceeded
  rw [Writer.gain, hw.recipient] at hgain
  rw [step, hwriter]
  exact hgain

/-- A sink that takes seven bytes at a time and runs full within the second frame. -/
theorem trace_alike_sample :
    let R : Script → Script → Prop := Eq
    let xs : List (Step Script) := [.operate (.write [1, 2, 3]), .operate .flush, .operate (.write [4]), .operate .close]
    let ys : List (Step Script) := [.operate (.write [7, 8, 9]), .operate .flush, .operate (.write [0]), .operate .close]
    let inner : Script := { budget := some 200, mostPerWrite := some 7 }
    Script.sink.Mirrors R Script.sink ∧ R inner inner ∧ List.Forall₂ (Step.Alike R) xs ys ∧
    trace Script.sink 0 (start Sample.key.toPublicKey inner (.cycle [7])) xs =
      trace Script.sink 0 (start Sample.key.toPublicKey inner (.cycle [8])) ys ∧
    let s := (start Sample.key.toPublicKey inner (.cycle [7])).run Script.sink xs
    ∀ w op, s.writer = some w → op.Flushes → (op.perform Script.sink.journaled w s.world).1.succeeded = true →
      (s.step Script.sink (.operate op)).2.world.sink.received.length =
        s.world.sink.received.length + if w.buffer = [] then 0 else Sample.key.toPublicKey.size + 36 + w.buffer.length := by
  intro R xs ys inner
  have hsteps : List.Forall₂ (Step.Alike R) xs ys :=
    .cons (.operate (.write rfl)) <| .cons (.operate (.same _)) <| .cons (.operate (.write rfl)) <|
      .cons (.operate (.same _)) .nil
  exact ⟨Script.mirrors_sink, rfl, hsteps, trace_alike Script.mirrors_sink rfl hsteps Sample.key.toPublicKey _ _⟩

/-- A flush of a writer that holds nothing succeeds, but there is no frame of nothing. -/
theorem flush_without_frame :
    let s := start Sample.key.toPublicKey ({} : Script) (.cycle [7])
    ∃ w, s.writer = some w ∧ (Operation.flush.perform Script.sink.journaled w s.world).1.succeeded = true ∧
      (s.step Script.sink (.operate .flush)).2.world.sink.received.length ≠
        s.world.sink.received.length + (Sample.key.toPublicKey.size + 36 + w.buffer.length) := by
  intro s
  have hbefore : s.world.sink.received = [] := rfl
  have hafter : (s.step Script.sink (.operate .flush)).2.world.sink.received = [] := rfl
  refine ⟨{ recipient := Sample.key.toPublicKey }, rfl, rfl, ?_⟩
  rw [hbefore, hafter]
  simp

end Stream

end EnvelopeLog

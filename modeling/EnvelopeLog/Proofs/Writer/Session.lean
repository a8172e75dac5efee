import EnvelopeLog.Proofs.Envelope
import EnvelopeLog.Proofs.Journal
import EnvelopeLog.Writer

/-!
# Sessions of a writer

A session is a writer at work on a sink that keeps a journal, together with what became of the bytes that it accepted: which
segments went into frames, and what a close that failed forgot. Steps of a session are the operations of the writer, in any
order, and changes of the sink by others. All that a step does is a write, a flush, a change, or a flush after which the
writer is shut (`run_induction`), and a flush does one of six things (`Flushing`).
-/

namespace EnvelopeLog

/-! ## Seals of the buffer -/

namespace Writer

/-- A seal of the buffer only draws from the sequence of random bytes. -/
theorem byte_of_sealBuffer {w : Writer} {entropy entropy' : Entropy} {result : Except Error Bytes}
    (h : w.sealBuffer entropy = (result, entropy')) : entropy'.byte = entropy.byte := by
  obtain rfl := congrArg Prod.snd h
  rw [sealBuffer, sealFrame_eq]
  by_cases hroom : w.recipient.Fits KeyMaterial.keySize
  · simp only [if_pos hroom]
  · simp only [if_neg hroom]

/-- A seal of the buffer is a seal of its bytes. -/
theorem sealed_of_sealBuffer {w : Writer} {entropy entropy' : Entropy} {frame : Bytes}
    (h : w.sealBuffer entropy = (.ok frame, entropy')) : Sealed w.recipient entropy.byte w.buffer frame := by
  unfold sealBuffer at h
  split at h
  · cases h
  · rename_i f _ hf
    refine ⟨entropy.drawn, f, congrArg Prod.fst hf, ?_⟩
    have hencode := congrArg Prod.fst h
    cases he : f.encode with
    | error e => rw [he] at hencode; cases hencode
    | ok b => rw [he] at hencode; cases hencode; rfl

/-- A segment can be sealed if the recipient's modulus has room for a key and no field of the frame is too long. -/
theorem sealBuffer_succeeds {w : Writer} (hroom : w.recipient.Fits KeyMaterial.keySize)
    (hkey : w.recipient.size < 256 ^ Frame.lengthSize) (htext : w.buffer.length + Gcm.tagSize < 256 ^ Frame.lengthSize)
    (entropy : Entropy) : ∃ frame entropy', w.sealBuffer entropy = (.ok frame, entropy') := by
  have hencodable : ((Sealing.draw w.buffer entropy).frame w.recipient).Encodable :=
    ⟨by rwa [Sealing.frame_wrappedKey_length], by rwa [Sealing.frame_cipherText_length]⟩
  refine ⟨((Sealing.draw w.buffer entropy).frame w.recipient).layout, { entropy with drawn := entropy.drawn + 76 }, ?_⟩
  rw [sealBuffer, sealFrame_eq, if_pos hroom]
  dsimp only
  rw [Frame.encode_eq_ok_iff.mpr ⟨hencodable, rfl⟩]
  rfl

end Writer

/-! ## The journal is kept unnoticed -/

/-- What a journal is kept of, without the journal. -/
def World.forget {σ : Type} (world : World (Journal σ)) : World σ :=
  { sink := world.sink.inner, entropy := world.entropy }

namespace Writer

variable {σ : Type}

/-- A frame is put on a journaled sink as on the sink itself. -/
theorem emit_journaled (S : Sink σ) (w : Writer) (frame : Bytes) (j : Journal σ) :
    w.emit S frame j.inner =
      ((w.emit S.journaled frame j).1, (w.emit S.journaled frame j).2.1, (w.emit S.journaled frame j).2.2.inner) := by
  obtain ⟨made, -, heq⟩ := S.writeAll_journaled j frame
  simp only [emit, heq]
  rcases S.writeAll j.inner frame with ⟨n, _ | fault, inner⟩
  · simp only [S.flush_journaled]
    rcases S.flush inner with ⟨_ | fault, inner⟩ <;> rfl
  · rfl

/-- A flush of a writer answers and does the same, whether or not the sink keeps a journal. -/
theorem flush_journaled (S : Sink σ) (w : Writer) (world : World (Journal σ)) :
    w.flush S world.forget =
      ((w.flush S.journaled world).1, (w.flush S.journaled world).2.1, (w.flush S.journaled world).2.2.forget) := by
  unfold flush
  split
  · rfl
  split
  · rfl
  split
  · rfl
  rcases hseal : w.sealBuffer world.entropy with ⟨e | frame, entropy⟩ <;> simp only [World.forget, hseal]
  simp only [emit_journaled S w frame world.sink]

end Writer

/-! ## Sessions -/

/-- A writer at work, and what became of the bytes that it accepted. -/
structure Session (σ : Type) where
  writer : Writer
  world : World (Journal σ)
  /-- All bytes that were accepted, in order. -/
  accepted : Bytes := []
  /-- The payloads of the frames that were written, in order. -/
  segments : List Bytes := []
  /-- What a close that failed forgot. -/
  discarded : Bytes := []

/-- What can be done to a writer and its sink, short of giving the writer up. -/
inductive Step (σ : Type) where
  | write (b : Bytes)
  | writeAll (b : Bytes)
  | flush
  | flushFrame
  | close
  /-- Someone else changes the sink: a disk runs full, or there is room again. -/
  | change (f : σ → σ)

/-- What a step answers. -/
inductive Answer where
  | wrote (result : Except IoFault Nat)
  | done (result : Except IoFault Unit)
  | flushed (result : Except Error Bool)
  | closed (result : Except Error Unit)
  | changed

/-- Whether a step went well. -/
def Answer.isOk : Answer → Bool
  | .wrote result => result.isOk
  | .done result => result.isOk
  | .flushed result => result.isOk
  | .closed result => result.isOk
  | .changed => true

namespace Session

variable {σ : Type}

/-- A session that begins: nothing has been written, and the sink has taken nothing. -/
def start (recipient : Rsa.PublicKey) (inner : σ) (entropy : Entropy) : Session σ where
  writer := { recipient }
  world := { sink := { inner }, entropy }

/-- The session after a write. -/
def write (s : Session σ) (b : Bytes) : Except IoFault Nat × Session σ :=
  let (result, writer) := s.writer.write b
  let count := match result with
    | .ok n => n
    | .error _ => 0
  (result, { s with writer, accepted := s.accepted ++ b.take count })

/-- The session after the writer did something other than accept bytes. What left its buffer went into a frame, if a frame
was written, and is forgotten otherwise. -/
def track (s : Session σ) (writer : Writer) (world : World (Journal σ)) : Session σ :=
  if writer.frames ≠ s.writer.frames then { s with writer, world, segments := s.segments ++ [s.writer.buffer] }
  else if writer.buffer = [] then { s with writer, world, discarded := s.discarded ++ s.writer.buffer }
  else { s with writer, world }

/-- The session after a flush. -/
def flush (S : Sink σ) (s : Session σ) : Except Error Bool × Session σ :=
  let (result, writer, world) := s.writer.flush S.journaled s.world
  (result, s.track writer world)

/-- The session after a close. -/
def close (S : Sink σ) (s : Session σ) : Except Error Unit × Session σ :=
  let (result, writer, world) := s.writer.close S.journaled s.world
  (result, s.track writer world)

/-- The session after someone else changed the sink. -/
def change (s : Session σ) (f : σ → σ) : Session σ :=
  { s with world := { s.world with sink := { s.world.sink with inner := f s.world.sink.inner } } }

/-- The answer to a step and the session after it. -/
def step (S : Sink σ) (s : Session σ) : Step σ → Answer × Session σ
  | .write b => (.wrote (s.write b).1, (s.write b).2)
  | .writeAll b => (.done ((s.write b).1.map fun _ => ()), (s.write b).2)
  | .flush => (.done (((s.flush S).1.mapError Error.toIo).map fun _ => ()), (s.flush S).2)
  | .flushFrame => (.flushed (s.flush S).1, (s.flush S).2)
  | .close => (.closed (s.close S).1, (s.close S).2)
  | .change f => (.changed, s.change f)

/-- The session after some steps. -/
def run (S : Sink σ) (s : Session σ) (steps : List (Step σ)) : Session σ := steps.foldl (fun s x => (s.step S x).2) s

/-- The bytes that the sink took. -/
def received (s : Session σ) : Bytes := s.world.sink.received

/-! ## Writes -/

/-- Bytes are accepted all together or not at all, and not after the writer was closed or poisoned. -/
theorem write_eq (s : Session σ) (b : Bytes) :
    s.write b =
      if b = [] then (.ok 0, s)
      else if s.writer.closed then (.error Writer.closedFault, s)
      else if s.writer.poisoned then (.error Writer.poisonedFault, s)
      else (.ok b.length, { s with writer := { s.writer with buffer := s.writer.buffer ++ b },
                                   accepted := s.accepted ++ b }) := by
  unfold write Writer.write
  by_cases hb : b = []
  · simp [hb]
  · cases hc : s.writer.closed <;> cases hp : s.writer.poisoned <;> simp [hb, hc, hp]

/-! ## Flushes -/

/-- A writer that seals and emits when it is flushed. -/
structure Ready (w : Writer) : Prop where
  unpoisoned : w.poisoned = false
  filled : w.buffer ≠ []
  opened : w.closed = false

/-- The session after a frame of all that was buffered was written. -/
def emitted (s : Session σ) (poisoned : Bool) (made : List Call) (inner : σ) (entropy : Entropy) : Session σ :=
  { s with
    writer := { s.writer with buffer := [], frames := s.writer.frames + 1, poisoned }
    world := { sink := s.world.sink.note made inner, entropy }
    segments := s.segments ++ [s.writer.buffer] }

/-- The session after a frame was not or not wholly written. -/
def refused (s : Session σ) (poisoned : Bool) (made : List Call) (inner : σ) (entropy : Entropy) : Session σ :=
  { s with
    writer := { s.writer with poisoned }
    world := { sink := s.world.sink.note made inner, entropy } }

/-- What a flush can come to. -/
inductive Flushing (s : Session σ) : Except Error Bool × Session σ → Prop
  | poisoned (poisoned : s.writer.poisoned = true) : Flushing s (.error (.io Writer.poisonedFault), s)
  | idle (unpoisoned : s.writer.poisoned = false) (empty : s.writer.buffer = []) : Flushing s (.ok false, s)
  | closed (filled : s.writer.buffer ≠ []) (closed : s.writer.closed = true) :
      Flushing s (.error (.io Writer.closedFault), s)
  | unsealed {e : Error} {entropy : Entropy} (ready : Ready s.writer)
      (sealed : s.writer.sealBuffer s.world.entropy = (.error e, entropy)) :
      Flushing s (.error e, { s with world := { s.world with entropy } })
  /-- The sink took the whole frame and was flushed, well or not. -/
  | whole {frame : Bytes} {entropy : Entropy} {made : List Call} {n : Nat} (fault : Option IoFault) (inner : σ)
      (ready : Ready s.writer) (sealed : s.writer.sealBuffer s.world.entropy = (.ok frame, entropy))
      (attempt : Attempt frame made n none) :
      Flushing s (match fault with | none => .ok true | some f => .error (.io f),
        s.emitted fault.isSome (made ++ [.flush fault]) inner entropy)
  /-- The sink failed within the frame or before it. -/
  | broken {frame : Bytes} {entropy : Entropy} {made : List Call} {n : Nat} {fault : IoFault} (inner : σ)
      (ready : Ready s.writer) (sealed : s.writer.sealBuffer s.world.entropy = (.ok frame, entropy))
      (attempt : Attempt frame made n (some fault)) :
      Flushing s (.error (.io fault), s.refused (decide (0 < n)) made inner entropy)

theorem track_same (s : Session σ) {world : World (Journal σ)} : s.track s.writer world = { s with world } := by
  by_cases hb : s.writer.buffer = [] <;> simp [track, hb]

@[simp] theorem track_writer (s : Session σ) (writer : Writer) (world : World (Journal σ)) :
    (s.track writer world).writer = writer := by
  unfold track
  split
  · rfl
  · split <;> rfl

@[simp] theorem track_world (s : Session σ) (writer : Writer) (world : World (Journal σ)) :
    (s.track writer world).world = world := by
  unfold track
  split
  · rfl
  · split <;> rfl

/-- Every flush is of one of the kinds. -/
theorem flushing (S : Sink σ) (s : Session σ) : Flushing s (s.flush S) := by
  unfold flush Writer.flush
  by_cases hp : s.writer.poisoned = true
  · simp only [if_pos hp, track_same]
    exact .poisoned hp
  rw [Bool.not_eq_true] at hp
  by_cases hb : s.writer.buffer = []
  · simp only [hp, Bool.false_eq_true, if_false, if_pos hb, track_same]
    exact .idle hp hb
  by_cases hc : s.writer.closed = true
  · simp only [hp, Bool.false_eq_true, if_false, if_neg hb, if_pos hc, track_same]
    exact .closed hb hc
  have ready : Ready s.writer := ⟨hp, hb, by simpa using hc⟩
  simp only [hp, Bool.false_eq_true, if_false, if_neg hb, if_neg hc]
  rcases hseal : s.writer.sealBuffer s.world.entropy with ⟨e | frame, entropy⟩
  · simp only [track_same]
    exact .unsealed ready hseal
  · obtain ⟨made, attempt, heq⟩ := S.writeAll_journaled s.world.sink frame
    simp only [Writer.emit, heq]
    generalize S.writeAll s.world.sink.inner frame = outcome at attempt
    rcases outcome with ⟨n, _ | fault, inner⟩
    · simp only [S.flush_journaled]
      have hwhole := Flushing.whole (S.flush inner).1 (S.flush inner).2 ready hseal attempt
      generalize S.flush inner = answer at hwhole
      rcases answer with ⟨_ | fault, inner⟩ <;> simpa [track, emitted, hp] using hwhole
    · have hbroken := Flushing.broken inner ready hseal attempt
      simpa [track, refused, hb] using hbroken

/-- A frame that was written whole comes after what the sink held. -/
theorem received_emitted (s : Session σ) {frame : Bytes} {made : List Call} (htaken : made.flatMap Call.taken = frame)
    (fault : Option IoFault) (poisoned : Bool) (inner : σ) (entropy : Entropy) :
    (s.emitted poisoned (made ++ [.flush fault]) inner entropy).received = s.received ++ frame := by
  rw [received, emitted, Journal.received_note, List.flatMap_append, htaken]
  simp [received, Call.taken]

/-- A flush that succeeds finds nothing buffered, or puts a frame of what is buffered on the sink and flushes it. -/
theorem flush_ok (S : Sink σ) {s : Session σ} {b : Bool} (h : (s.flush S).1 = .ok b) :
    b = false ∧ s.writer.buffer = [] ∧ (s.flush S).2 = s ∨
    b = true ∧ Ready s.writer ∧ ∃ frame made n inner entropy,
      Sealed s.writer.recipient s.world.entropy.byte s.writer.buffer frame ∧ Attempt frame made n none ∧
      (s.flush S).2 = s.emitted false (made ++ [.flush none]) inner entropy := by
  have hflush := s.flushing S
  generalize s.flush S = outcome at hflush h ⊢
  cases hflush with
  | poisoned | closed | unsealed | broken => cases h
  | idle _ hempty =>
    cases h
    exact .inl ⟨rfl, hempty, rfl⟩
  | whole fault inner ready hseal attempt =>
    cases fault with
    | some fault => cases h
    | none =>
      cases h
      exact .inr ⟨rfl, ready, _, _, _, inner, _, Writer.sealed_of_sealBuffer hseal, attempt, rfl⟩

/-! ## Closes -/

/-- The session after its writer let go of the sink and forgot what was buffered. -/
def shut (S : Sink σ) (s : Session σ) : Session σ :=
  { s with
    writer := { s.writer with buffer := [], closed := true }
    world := { s.world with sink := S.journaled.release s.world.sink }
    discarded := s.discarded ++ s.writer.buffer }

/-- A flush neither closes a writer nor opens it, and does not change whom it seals for. -/
theorem flush_writer (S : Sink σ) (s : Session σ) :
    (s.flush S).2.writer.closed = s.writer.closed ∧ (s.flush S).2.writer.recipient = s.writer.recipient := by
  have h := s.flushing S
  generalize s.flush S = outcome at h ⊢
  cases h <;> exact ⟨rfl, rfl⟩

/-- Closing twice is closing once. -/
theorem close_of_closed (S : Sink σ) (s : Session σ) (h : s.writer.closed = true) : s.close S = (.ok (), s) := by
  simp only [close, Writer.close, h, if_true, track_same]

/-- To close an open writer is to flush it and to shut it. Only a writer that is poisoned already and holds nothing is not
asked how the flush went. -/
theorem close_of_open (S : Sink σ) (s : Session σ) (h : s.writer.closed = false) :
    s.close S =
      (if s.writer.poisoned ∧ s.writer.buffer = [] then .ok () else (s.flush S).1.map fun _ => (),
        (s.flush S).2.shut S) := by
  have hclose : s.close S =
      (if s.writer.poisoned ∧ s.writer.buffer = [] then .ok () else (s.flush S).1.map fun _ => (),
        s.track { (s.flush S).2.writer with buffer := [], closed := true }
          { (s.flush S).2.world with sink := S.journaled.release (s.flush S).2.world.sink }) := by
    cases hp : s.writer.poisoned <;> by_cases hb : s.writer.buffer = [] <;>
      simp [close, flush, Writer.close, Writer.flush, h, hp, hb, Except.map]
  rw [hclose]
  have hflush := s.flushing S
  generalize s.flush S = outcome at hflush ⊢
  cases hflush <;> simp [track, shut, emitted, refused]

/-! ## Runs -/

/-- A run of steps goes on from where the steps before it led. -/
theorem run_append (S : Sink σ) (s : Session σ) (before after : List (Step σ)) :
    s.run S (before ++ after) = (s.run S before).run S after := List.foldl_append

/-- What holds of a session after a step if it held before. -/
theorem step_induction (S : Sink σ) {P : Session σ → Prop} (hwrite : ∀ s b, P s → P (s.write b).2)
    (hflush : ∀ s, P s → P (s.flush S).2) (hshut : ∀ s, s.writer.closed = false → P s → P (s.shut S))
    (hchange : ∀ s f, P s → P (s.change f)) {s : Session σ} (h : P s) (x : Step σ) : P (s.step S x).2 := by
  cases x with
  | write b => exact hwrite s b h
  | writeAll b => exact hwrite s b h
  | flush => exact hflush s h
  | flushFrame => exact hflush s h
  | close =>
    rw [step]
    cases hc : s.writer.closed with
    | true => rwa [s.close_of_closed S hc]
    | false =>
      rw [s.close_of_open S hc]
      exact hshut _ ((s.flush_writer S).1.trans hc) (hflush s h)
  | change f => exact hchange s f h

/-- What holds of every session in a run: it holds at the start, and writes, flushes, shutting an open writer and changes
preserve it. -/
theorem run_induction (S : Sink σ) {P : Session σ → Prop} (hwrite : ∀ s b, P s → P (s.write b).2)
    (hflush : ∀ s, P s → P (s.flush S).2) (hshut : ∀ s, s.writer.closed = false → P s → P (s.shut S))
    (hchange : ∀ s f, P s → P (s.change f)) {s : Session σ} (h : P s) (steps : List (Step σ)) :
    P (s.run S steps) := by
  induction steps generalizing s with
  | nil => exact h
  | cons x steps ih => exact ih (step_induction S hwrite hflush hshut hchange h x)

/-- A closed writer stays closed. -/
theorem closed_run (S : Sink σ) {s : Session σ} (h : s.writer.closed = true) (steps : List (Step σ)) :
    (s.run S steps).writer.closed = true := by
  refine run_induction S ?_ (fun t ht => (t.flush_writer S).1.trans ht) (fun _ _ _ => rfl) (fun _ _ ht => ht) h steps
  intro t b ht
  rw [write_eq, if_pos ht]
  split <;> exact ht

/-! ## Giving a writer up -/

/-- To drop a writer is to close it. -/
theorem drop_eq (S : Sink σ) (s : Session σ) : s.writer.drop S.journaled s.world = (s.close S).2.world := by
  simp only [close, Writer.drop, track_world]

/-- To finish a writer is to flush it, and to drop it if that fails. -/
theorem finish_eq (S : Sink σ) (s : Session σ) :
    s.writer.finish S.journaled s.world =
      match (s.flush S).1 with
      | .error e => (.error e, ((s.flush S).2.close S).2.world)
      | .ok _ => (if s.writer.closed then .error (.io Writer.closedFault) else .ok (), (s.flush S).2.world) := by
  rw [← (s.flush_writer S).1, ← drop_eq]
  unfold Writer.finish flush
  rcases s.writer.flush S.journaled s.world with ⟨e | b, writer, world⟩ <;> simp only [track_writer, track_world]

end Session

end EnvelopeLog

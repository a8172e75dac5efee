import EnvelopeLog.Proofs.Writer.Session

/-!
# Operations on a writer

All that a user can do with a writer, with what is answered: also what a writer lacks, and what gives the writer up. Whatever
is done, the only thing that seals is a flush of a writer that is ready (`flush_of_not_ready`), and a seal draws a number of
random bytes that the recipient's modulus decides (`sealBuffer_eq`).
-/

namespace EnvelopeLog

/-- What can be done with a writer. -/
inductive Operation where
  | write (b : Bytes)
  | writeAll (b : Bytes)
  | flush
  | flushFrame
  | close
  | finish
  | drop
  | inspect
  | lacking (op : Writer.Unsupported)

/-- What is answered. -/
inductive Reply where
  | wrote (result : Except IoFault Nat)
  | done (result : Except IoFault Unit)
  | flushed (result : Except Error Bool)
  | closed (result : Except Error Unit)
  | shown (text : String)
  | refused (fault : Fault)
  | dropped

/-- Whether an answer reports a success. -/
def Reply.succeeded : Reply → Bool
  | .wrote result => result.isOk
  | .done result => result.isOk
  | .flushed result => result.isOk
  | .closed result => result.isOk
  | .shown _ | .refused _ | .dropped => false

namespace Operation

variable {σ : Type}

/-- Whether an operation flushes, at least if there is something to flush. -/
def Flushes : Operation → Prop
  | .flush | .flushFrame | .close | .finish | .drop => True
  | .write _ | .writeAll _ | .inspect | .lacking _ => False

/-- The answer to an operation, the writer unless it is given up, and the world after it. -/
def perform (S : Sink σ) (w : Writer) (world : World σ) : Operation → Reply × Option Writer × World σ
  | .write b => (.wrote (w.write b).1, some (w.write b).2, world)
  | .writeAll b => (.done ((w.write b).1.map fun _ => ()), some (w.write b).2, world)
  | .flush =>
    let (result, w, world) := w.flush S world
    (.done ((result.mapError Error.toIo).map fun _ => ()), some w, world)
  | .flushFrame =>
    let (result, w, world) := w.flush S world
    (.flushed result, some w, world)
  | .close =>
    let (result, w, world) := w.close S world
    (.closed result, some w, world)
  | .finish =>
    let (result, world) := w.finish S world
    (.closed result, none, world)
  | .drop => (.dropped, none, w.drop S world)
  | .inspect => (.shown w.inspect, some w, world)
  | .lacking op => (.refused (Writer.unsupported op), some w, world)

end Operation

/-! ## Seals -/

/-- How many random bytes a seal for a recipient draws: a key, a nonce and, if the modulus leaves room for the key, a seed. -/
def Rsa.PublicKey.sealWidth (k : Rsa.PublicKey) : Nat := if k.Fits KeyMaterial.keySize then 76 else 44

namespace Writer

open Session (Ready)

variable {σ : Type}

instance (w : Writer) : Decidable (Ready w) :=
  decidable_of_iff (w.poisoned = false ∧ w.buffer ≠ [] ∧ w.closed = false)
    ⟨fun ⟨hp, hb, hc⟩ => ⟨hp, hb, hc⟩, fun ⟨hp, hb, hc⟩ => ⟨hp, hb, hc⟩⟩

/-- What a seal of the buffer comes to and what it draws. -/
theorem sealBuffer_eq (w : Writer) (entropy : Entropy) :
    w.sealBuffer entropy =
      (if w.recipient.Fits KeyMaterial.keySize then
        ((Sealing.draw w.buffer entropy).frame w.recipient).encode.mapError fun e => .library (.framing (.cause e))
      else .error (.library (.rsa (.encryption .messageTooLong))),
      { entropy with drawn := entropy.drawn + w.recipient.sealWidth }) := by
  rw [sealBuffer, sealFrame_eq, Rsa.PublicKey.sealWidth]
  by_cases hroom : w.recipient.Fits KeyMaterial.keySize
  · simp only [if_pos hroom]
  · simp only [if_neg hroom]

/-! ## Flushes and closes -/

/-- A writer that is ready seals its buffer and puts the frame on the sink. -/
theorem flush_of_ready {w : Writer} (h : Ready w) (S : Sink σ) (world : World σ) :
    w.flush S world =
      match w.sealBuffer world.entropy with
      | (.error e, entropy) => (.error e, w, { world with entropy })
      | (.ok frame, entropy) =>
        ((w.emit S frame world.sink).1, (w.emit S frame world.sink).2.1,
          { sink := (w.emit S frame world.sink).2.2, entropy }) := by
  rewrite [flush, if_neg (by simp [h.unpoisoned]), if_neg h.filled, if_neg (by simp [h.opened])]
  rcases w.sealBuffer world.entropy with ⟨e | frame, entropy⟩ <;> rfl

/-- What a writer that is not ready answers to a flush. -/
def idleAnswer (w : Writer) : Except Error Bool :=
  if w.poisoned then .error (.io poisonedFault)
  else if w.buffer = [] then .ok false
  else .error (.io closedFault)

/-- A writer that is not ready does nothing when it is flushed. -/
theorem flush_of_not_ready {w : Writer} (h : ¬Ready w) (S : Sink σ) (world : World σ) :
    w.flush S world = (w.idleAnswer, w, world) := by
  unfold flush idleAnswer
  split
  · rfl
  split
  · rfl
  rename_i hpoisoned hbuffer
  have hclosed : w.closed = true := by
    by_contra hopen
    exact h ⟨by simpa using hpoisoned, hbuffer, by simpa using hopen⟩
  rw [if_pos hclosed]

/-- To close an open writer is to flush it and to let go of the sink. Only one that is poisoned already and holds nothing is not
asked how the flush went. -/
theorem close_of_open {w : Writer} (h : w.closed = false) (S : Sink σ) (world : World σ) :
    w.close S world =
      (if w.poisoned ∧ w.buffer = [] then .ok () else (w.flush S world).1.map fun _ => (),
        { (w.flush S world).2.1 with buffer := [], closed := true },
        { (w.flush S world).2.2 with sink := S.release (w.flush S world).2.2.sink }) := by
  cases hp : w.poisoned <;> by_cases hb : w.buffer = [] <;> simp [close, flush, h, hp, hb, Except.map]

/-- Closing twice is closing once. -/
theorem close_of_closed {w : Writer} (h : w.closed = true) (S : Sink σ) (world : World σ) :
    w.close S world = (.ok (), w, world) := by
  rw [close, if_pos h]

end Writer

end EnvelopeLog

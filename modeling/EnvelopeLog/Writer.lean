import EnvelopeLog.Envelope
import EnvelopeLog.Sink

/-!
# Writers

A writer collects what is written to it and, whenever it is flushed, seals all of that into one frame on its sink. It can
only be written to: there is no reading back and no position. Flushing without anything collected does nothing. If a sink
fails before it takes the first byte of a frame, what was collected stays and the next flush tries again; if it fails later,
the writer is poisoned and touches the sink no more, because no reader could find its way past a torn frame. Closing flushes
once more and lets go of the sink, whether or not the flush succeeds.
-/

namespace EnvelopeLog

/-- What a writer acts on: a sink and a source of random bytes. -/
structure World (σ : Type) where
  sink : σ
  entropy : Entropy

/-- A writer that seals for one recipient. -/
structure Writer where
  recipient : Rsa.PublicKey
  /-- What was written since the last frame. -/
  buffer : Bytes := []
  /-- How many frames were written. -/
  frames : Nat := 0
  /-- Whether the sink failed within a frame. -/
  poisoned : Bool := false
  closed : Bool := false
deriving DecidableEq, Repr

namespace Writer

variable {σ : Type}

/-- The fault of an operation on a closed writer. -/
def closedFault : IoFault := .told .brokenPipe "encrypting stream is closed"

/-- The fault of an operation on a poisoned writer. -/
def poisonedFault : IoFault := .told .brokenPipe "encrypting stream is poisoned by a partially written frame"

/-- The operations that a writer lacks. -/
inductive Unsupported where
  | read
  | seek
  | length
  | setLength
  | position
  | setPosition
deriving DecidableEq, Repr

/-- The fault of an operation that a writer lacks. -/
def unsupported (op : Unsupported) : Fault :=
  .unsupported <| match op with
    | .read => "read"
    | .seek => "seek"
    | .length => "length"
    | .setLength => "set_length"
    | .position => "position"
    | .setPosition => "set_position"

/-- Whether bytes may still be written. -/
def canWrite (w : Writer) : Bool := !w.closed && !w.poisoned

/-- A writer as it is shown to developers. -/
def inspect (w : Writer) : String :=
  let shown := [
    s!"buffered_len: {w.buffer.length}",
    s!"frames_written: {w.frames}",
    s!"closed: {w.closed}",
    s!"poisoned: {w.poisoned}"]
  "EncryptingAppendStream \x7b " ++ ", ".intercalate shown ++ " \x7d"

/-- Collects bytes and tells how many; to collect none is possible at any time. -/
def write (w : Writer) (b : Bytes) : Except IoFault Nat × Writer :=
  if b = [] then (.ok 0, w)
  else if w.closed then (.error closedFault, w)
  else if w.poisoned then (.error poisonedFault, w)
  else (.ok b.length, { w with buffer := w.buffer ++ b })

/-- The bytes of the frame that holds what was collected. -/
def sealBuffer (w : Writer) (entropy : Entropy) : Except Error Bytes × Entropy :=
  match sealFrame w.recipient w.buffer entropy with
  | (.error e, entropy) => (.error (.library e), entropy)
  | (.ok frame, entropy) => (frame.encode.mapError fun e => .library (.framing (.cause e)), entropy)

/-- Puts the bytes of a frame on the sink and flushes it. The writer is poisoned if the sink fails after the first byte. -/
def emit (S : Sink σ) (w : Writer) (frame : Bytes) (sink : σ) : Except Error Bool × Writer × σ :=
  match S.writeAll sink frame with
  | (taken, some fault, sink) => (.error (.io fault), { w with poisoned := decide (0 < taken) }, sink)
  | (_, none, sink) =>
    let w := { w with buffer := [], frames := w.frames + 1 }
    match S.flush sink with
    | (some fault, sink) => (.error (.io fault), { w with poisoned := true }, sink)
    | (none, sink) => (.ok true, w, sink)

/-- Seals what was collected into a frame and tells whether there was anything to seal. -/
def flush (S : Sink σ) (w : Writer) (world : World σ) : Except Error Bool × Writer × World σ :=
  if w.poisoned then (.error (.io poisonedFault), w, world)
  else if w.buffer = [] then (.ok false, w, world)
  else if w.closed then (.error (.io closedFault), w, world)
  else
    match w.sealBuffer world.entropy with
    | (.error e, entropy) => (.error e, w, { world with entropy })
    | (.ok frame, entropy) =>
      let (result, w, sink) := w.emit S frame world.sink
      (result, w, { sink, entropy })

/-- Flushes once more, lets go of the sink and forgets what is still collected; to close again does nothing. -/
def close (S : Sink σ) (w : Writer) (world : World σ) : Except Error Unit × Writer × World σ :=
  if w.closed then (.ok (), w, world)
  else
    let (result, after, world) : Except Error Unit × Writer × World σ :=
      if w.poisoned then (if w.buffer = [] then .ok () else .error (.io poisonedFault), w, world)
      else
        let (result, after, world) := w.flush S world
        (result.map fun _ => (), after, world)
    (result, { after with buffer := [], closed := true }, { world with sink := S.release world.sink })

/-- What happens when the last user of a writer lets go of it: it is closed, and a failure goes unnoticed. -/
def drop (S : Sink σ) (w : Writer) (world : World σ) : World σ := (w.close S world).2.2

/-- Flushes once more and hands the sink to the caller; after a failure the writer is dropped instead. -/
def finish (S : Sink σ) (w : Writer) (world : World σ) : Except Error Unit × World σ :=
  match w.flush S world with
  | (.error e, w, world) => (.error e, w.drop S world)
  | (.ok _, w, world) => (if w.closed then .error (.io closedFault) else .ok (), world)

end Writer

end EnvelopeLog

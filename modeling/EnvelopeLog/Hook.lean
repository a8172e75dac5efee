import EnvelopeLog.Writer

/-!
# Hooks

Whoever opens a log asks a hook what to write to. The hook sees the name of the log, the encoding of its text and the sink,
and answers with a channel: the sink itself, or a writer that seals what is written before it reaches the sink. A hook may
also write to the sink first, or refuse and let go of it.
-/

namespace EnvelopeLog

/-- What is written to instead of a sink. -/
inductive Channel where
  | plain
  | encrypting (writer : Writer)
deriving DecidableEq, Repr

namespace Channel

variable {σ : Type}

/-- Writes all bytes and tells how many they are. -/
def write (S : Sink σ) (c : Channel) (world : World σ) (b : Bytes) : Except IoFault Nat × Channel × World σ :=
  match c with
  | .plain =>
    match S.writeAll world.sink b with
    | (_, some fault, sink) => (.error fault, c, { world with sink })
    | (taken, none, sink) => (.ok taken, c, { world with sink })
  | .encrypting w =>
    let (result, w) := w.write b
    (result, .encrypting w, world)

/-- Flushes what was written. -/
def flush (S : Sink σ) (c : Channel) (world : World σ) : Except IoFault Unit × Channel × World σ :=
  match c with
  | .plain =>
    match S.flush world.sink with
    | (some fault, sink) => (.error fault, c, { world with sink })
    | (none, sink) => (.ok (), c, { world with sink })
  | .encrypting w =>
    let (result, w, world) := w.flush S world
    match result with
    | .error e => (.error e.toIo, .encrypting w, world)
    | .ok _ => (.ok (), .encrypting w, world)

/-- What happens when the last user of a channel lets go of it. -/
def drop (S : Sink σ) (c : Channel) (world : World σ) : World σ :=
  match c with
  | .plain => { world with sink := S.release world.sink }
  | .encrypting w => w.drop S world

end Channel

/-- What answers with a channel when a log is opened: a function of the name, the encoding, the sink and the world. -/
abbrev Hook (σ : Type) := String → String → Sink σ → World σ → Except Error Channel × World σ

namespace Hook

variable {σ : Type}

/-- The hook that seals everything for one recipient. -/
def encrypting (recipient : Rsa.PublicKey) : Hook σ := fun _ _ _ world => (.ok (.encrypting { recipient }), world)

/-- The hook that answers with the sink itself. -/
def plain : Hook σ := fun _ _ _ world => (.ok .plain, world)

/-- The hook that writes a banner to the sink and answers with the sink itself. -/
def announcing (banner : Bytes) : Hook σ := fun _ _ S world =>
  let (result, c, world) := Channel.plain.write S world banner
  match result with
  | .error e => (.error (.io e), c.drop S world)
  | .ok _ => (.ok c, world)

/-- The hook that refuses every log. -/
def refusing (fault : Fault) : Hook σ := fun _ _ S world => (.error (.library fault), Channel.plain.drop S world)

end Hook

end EnvelopeLog

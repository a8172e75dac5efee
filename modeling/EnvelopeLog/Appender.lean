import EnvelopeLog.Hook

/-!
# Appenders

An appender adds entries to a log and flushes after each, so that with an encrypting hook every entry that is not empty
becomes a frame of its own. Closing flushes, reports the failure of that flush and lets go of the channel in any case.
-/

namespace EnvelopeLog

/-- An open or closed log that entries are added to. -/
structure Appender (σ : Type) where
  path : String
  sink : Sink σ
  /-- What entries are written to while the appender is open. -/
  channel : Option Channel
  /-- How many entries were added. -/
  entries : Nat := 0

namespace Appender

variable {σ : Type}

/-- The encoding that hooks are told. -/
def encoding : String := "utf-8"

/-- The fault of adding to a closed appender. -/
def closedFault : IoFault := .told .brokenPipe "log appender is closed"

/-- An appender on a sink, with the channel that a hook answers with. -/
def onSink (S : Sink σ) (path : String) (hook : Hook σ) (world : World σ) : Except Error (Appender σ) × World σ :=
  match hook path encoding S world with
  | (.error e, world) => (.error e, world)
  | (.ok c, world) => (.ok { path, sink := S, channel := some c }, world)

/-- Adds an entry as it is. -/
def append (a : Appender σ) (world : World σ) (entry : Bytes) : Except Error Unit × Appender σ × World σ :=
  match a.channel with
  | none => (.error (.io closedFault), a, world)
  | some c =>
    match c.write a.sink world entry with
    | (.error e, c, world) => (.error (.io e), { a with channel := some c }, world)
    | (.ok _, c, world) =>
      match c.flush a.sink world with
      | (.error e, c, world) => (.error (.io e), { a with channel := some c }, world)
      | (.ok _, c, world) => (.ok (), { a with channel := some c, entries := a.entries + 1 }, world)

/-- Adds a line of text and its end. -/
def appendLine (a : Appender σ) (world : World σ) (line : String) : Except Error Unit × Appender σ × World σ :=
  a.append world (Bytes.ofText line ++ [10])

/-- Flushes and lets go of the channel; to close again does nothing. -/
def close (a : Appender σ) (world : World σ) : Except Error Unit × Appender σ × World σ :=
  match a.channel with
  | none => (.ok (), a, world)
  | some c =>
    let (result, c, world) := c.flush a.sink world
    (result.mapError .io, { a with channel := none }, c.drop a.sink world)

/-- What happens when the last user of an appender lets go of it: it is closed, and a failure goes unnoticed. -/
def drop (a : Appender σ) (world : World σ) : World σ := (a.close world).2.2

end Appender

end EnvelopeLog

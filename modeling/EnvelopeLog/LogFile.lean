import EnvelopeLog.FileSystem.Access
import EnvelopeLog.Appender
import EnvelopeLog.KeyBlob
import EnvelopeLog.Log

/-!
# Log files

What is done with keys, settings and logs that are files. Encrypting a file reads it slice by slice and makes a frame of
each; decrypting a file finds out the whole payload before the output is opened, so a failure leaves all files as they are.
-/

namespace EnvelopeLog

/-! ## Keys and settings in files -/

/-- The public key in a file; a file with a private key serves too. -/
def loadPublicKey (fs : FileSystem) (path : String) : Except Error Rsa.PublicKey :=
  match fs.readText path with
  | .error e => .error (.io e)
  | .ok text => (Rsa.PublicKey.ofText text).mapError fun e => .library (.key (.cause e))

/-- The private key in a file. -/
def loadPrivateKey (fs : FileSystem) (path : String) : Except Error Rsa.PrivateKey :=
  match fs.readText path with
  | .error e => .error (.io e)
  | .ok text => (Rsa.PrivateKey.ofText text).mapError fun e => .library (.key (.cause e))

/-- The settings in a file, if they are within the limits. -/
def loadSettings (fs : FileSystem) (path : String) : Except Error Settings :=
  match fs.readText path with
  | .error e => .error (.io e)
  | .ok text => (Settings.parseChecked text).mapError .library

namespace LogFile

/-! ## Encrypting -/

/-- The slice size for users who do not choose one. -/
def defaultChunk : Nat := 4096

/-- The slice size from which on no memory could hold a slice. -/
def chunkBound : Nat := 0x8000000000000000

/-- Seals the slices of an open file from a position on, until a slice is empty. The writer is dropped after a failure and
closed at the end. No more than `rounds` slices are read: an input that grows with every frame, because it is also the
output, would fill any device. -/
def sealSlices (l : Location) (chunk : Nat) (S : Sink FileSystem) :
    Nat → Nat → Writer → World FileSystem → Except Error Nat × World FileSystem
  | 0, _, w, world => (.error (.io (.os .storageFull)), w.drop S world)
  | rounds + 1, position, w, world =>
    match ((world.sink.sourceAt l position).readUpTo chunk).1 with
    | .error e => (.error (.io e), w.drop S world)
    | .ok slice =>
      if slice = [] then
        let (result, _, world) := w.close S world
        (result.map fun _ => w.frames, world)
      else
        match w.write slice with
        | (.error e, w) => (.error (.io e), w.drop S world)
        | (.ok _, w) =>
          match w.flush S world with
          | (.error e, w, world) => (.error e, w.drop S world)
          | (.ok _, w, world) => sealSlices l chunk S rounds (position + slice.length) w world

/-- Encrypts a file slice by slice and tells how many frames that made. The output keeps what it holds only if it is opened
for appending. -/
def encrypt (recipient : Rsa.PublicKey) (input output : String) (chunk : Nat) (opening : FileSystem.Opening)
    (world : World FileSystem) : Except Error Nat × World FileSystem :=
  if chunk = 0 then (.error (.library (.settings (.cause .zeroChunk))), world)
  else
    match world.sink.openRead input with
    | .error e => (.error (.io (.os e)), world)
    | .ok source =>
      match world.sink.openWrite output opening FileSystem.fileMode with
      | .error e => (.error (.io (.os e)), world)
      | .ok (target, fs) =>
        let world := { world with sink := fs }
        if chunkBound ≤ chunk then (.error (.library (.settings (.cause .chunkTooLarge))), world)
        else
          let length := ((fs.contentAt source).toOption.getD []).length
          sealSlices source chunk (FileSystem.sinkAt target) (length / chunk + 2) 0 { recipient } world

/-! ## Decrypting -/

/-- Decrypts a file and tells how long its payload is. -/
def decrypt (k : Rsa.PrivateKey) (limit : Nat) (input output : String) (fs : FileSystem) :
    Except Error Nat × FileSystem :=
  match fs.openRead input with
  | .error e => (.error (.io (.os e)), fs)
  | .ok l =>
    match (Log.decrypt k limit (fs.sourceAt l 0)).1 with
    | .error e => (.error e, fs)
    | .ok payload =>
      match fs.writeFile output payload with
      | .error e => (.error (.io (.os e)), fs)
      | .ok fs => (.ok payload.length, fs)

end LogFile

/-! ## Appending -/

/-- An appender on the end of a file, which is made if it is missing. -/
def Appender.onFile (path : String) (hook : Hook FileSystem) (world : World FileSystem) :
    Except Error (Appender FileSystem) × World FileSystem :=
  match world.sink.openWrite path .append FileSystem.fileMode with
  | .error e => (.error (.io (.os e)), world)
  | .ok (l, fs) => Appender.onSink (FileSystem.sinkAt l) path hook { world with sink := fs }

end EnvelopeLog

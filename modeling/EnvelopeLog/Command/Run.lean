import EnvelopeLog.Command.Help
import EnvelopeLog.KeyPair

/-!
# Running commands

A command line is run on a file system and a source of random bytes. It answers with an exit code, what is printed, and the
file system after it. A failure is told with what was being done and with all the faults behind it.
-/

namespace EnvelopeLog.Command

/-- Why an action failed, and what was being done. -/
structure Failure where
  context : String
  error : Error
deriving DecidableEq, Repr

/-- The words for a failure: what was being done, the error, and the faults behind it. -/
def Failure.message (f : Failure) : String := ": ".intercalate (f.context :: f.error.message :: f.error.causes)

/-- The error of a user who asks for slices that no memory could hold. -/
def hopeless : Error := .library (.settings (.cause .chunkTooLarge))

/-- How a program ends. -/
structure Outcome where
  code : Nat
  stdout : String := ""
  stderr : String := ""
deriving DecidableEq, Repr

/-- Names what was being done when an error occurred. -/
def within {α : Type} (context : String) : Except Error α → Except Failure α := Except.mapError fun error => { context, error }

/-- The settings in a file, or the default settings without a file. -/
def settingsOf (path : Option String) (fs : FileSystem) : Except Failure Settings :=
  match path with
  | none => .ok {}
  | some path => within s!"failed to load config {path}" (loadSettings fs path)

/-- Takes an action and tells what was done. -/
def act (s : Settings) (a : Action) (world : World FileSystem) : Except Failure String × World FileSystem :=
  match a with
  | .generate directory keyBits =>
    let bits := keyBits.getD s.keyBits.toNat
    let (result, world) := KeyPair.generateInto directory bits world
    let told (paths : KeyPaths) : String :=
      s!"Generated {bits}-bit key pair:\n  public:  {paths.publicKey}\n  private: {paths.privateKey}"
    ((within s!"failed to generate keys in {directory}" result).map told, world)
  | .decrypt privateKey input output =>
    match within s!"failed to load private key {privateKey}" (loadPrivateKey world.sink privateKey) with
    | .error e => (.error e, world)
    | .ok k =>
      let (result, sink) := LogFile.decrypt k s.maxFieldLength.toNat input output world.sink
      let told (length : Nat) : String := s!"Decrypted {length} bytes to {output}"
      ((within s!"failed to decrypt {input}" result).map told, { world with sink })
  | .encrypt publicKey input output chunk opening =>
    match within s!"failed to load public key {publicKey}" (loadPublicKey world.sink publicKey) with
    | .error e => (.error e, world)
    | .ok k =>
      let (result, world) := LogFile.encrypt k input output chunk opening world
      let told (frames : Nat) : String := s!"Encrypted {input} into {frames} frame(s) at {output}"
      ((within s!"failed to encrypt {input}" result).map told, world)

/-- Loads the settings and takes the action. -/
def invoke (i : Invocation) (world : World FileSystem) : Except Failure String × World FileSystem :=
  match settingsOf i.settings world.sink with
  | .error e => (.error e, world)
  | .ok s => act s i.action world

/-- Runs a command line. -/
def run (args : List String) (world : World FileSystem) : Outcome × World FileSystem :=
  match parse args with
  | .error .usage => ({ code := 2, stderr := usageText }, world)
  | .error (.help topic) => ({ code := 0, stdout := helpText topic }, world)
  | .error .version => ({ code := 0, stdout := versionText }, world)
  | .ok i =>
    match invoke i world with
    | (.ok told, world) => ({ code := 0, stdout := told ++ "\n" }, world)
    | (.error e, world) =>
      if e.error = hopeless then ({ code := 101, stderr := e.error.message ++ "\n" }, world)
      else ({ code := 1, stderr := s!"error: {e.message}\n" }, world)

end EnvelopeLog.Command

import EnvelopeLog.FileSystem.Access
import EnvelopeLog.KeyBlob
import EnvelopeLog.Rsa.Prime
import EnvelopeLog.Writer

/-!
# Key pairs

A fresh key pair is handed out as the texts of its two halves, and is saved as two files of fixed names in a directory of the
user's choice: the public half first, then the private half, which is its owner's alone.
-/

namespace EnvelopeLog

/-- A fresh private key of the given size, if the size is within the limits. -/
def Rsa.PrivateKey.fresh (bits : Nat) (entropy : Entropy) : Except KeyFault Rsa.PrivateKey × Entropy :=
  match Settings.checkKeyBits bits with
  | .error e => (.error (.size (.cause e)), entropy)
  | .ok () =>
    let (result, entropy) := Rsa.generate bits 100 entropy
    (result.mapError .generation, entropy)

/-- The texts of the two halves of a key pair. -/
structure KeyPair where
  publicKey : String
  privateKey : String
deriving DecidableEq, Repr, Inhabited

/-- The paths of the files of a key pair. -/
structure KeyPaths where
  publicKey : String
  privateKey : String
deriving DecidableEq, Repr, Inhabited

namespace KeyPair

/-- A fresh key pair with a modulus of the given size. -/
def generate (bits : Nat) (entropy : Entropy) : Except Fault KeyPair × Entropy :=
  match Settings.checkKeyBits bits with
  | .error e => (.error (.settings (.cause e)), entropy)
  | .ok () =>
    match Rsa.PrivateKey.fresh bits entropy with
    | (.error e, entropy) => (.error (.rsa e), entropy)
    | (.ok k, entropy) =>
      match k.toText with
      | .error e => (.error (.rsa e), entropy)
      | .ok privateKey => (.ok { publicKey := k.toPublicKey.toText, privateKey }, entropy)

/-- A key pair as it is shown to developers, without the private half. -/
def inspect (p : KeyPair) : String :=
  let shown := [
    "public_key: " ++ Text.quoted p.publicKey,
    "private_key: " ++ Text.quoted "[REDACTED]"]
  "KeyPairBlobs \x7b " ++ ", ".intercalate shown ++ " \x7d"

/-- Where the files of a key pair are in a directory. -/
def pathsIn (directory : String) : KeyPaths where
  publicKey := Path.join directory "public_key.json"
  privateKey := Path.join directory "private_key.json"

/-- What goes wrong with the two files of a key pair. -/
structure Troubles where
  publicKey : FileSystem.Trouble := {}
  privateKey : FileSystem.Trouble := {}
deriving DecidableEq, Repr

/-- Saves a key pair in a directory, which is made if it is missing. The first fault ends it, and nothing is taken back. -/
def save (p : KeyPair) (directory : String) (fs : FileSystem) (troubles : Troubles := {}) :
    Except Error KeyPaths × FileSystem :=
  match fs.makeDirectories directory with
  | (some e, fs) => (.error (.io (.os e)), fs)
  | (none, fs) =>
    let paths := pathsIn directory
    match fs.replaceFile paths.publicKey (Bytes.ofText p.publicKey) troubles.publicKey with
    | (some fault, fs) => (.error (.io fault), fs)
    | (none, fs) =>
      match fs.replacePrivateFile paths.privateKey (Bytes.ofText p.privateKey) troubles.privateKey with
      | (some fault, fs) => (.error (.io fault), fs)
      | (none, fs) => (.ok paths, fs)

/-- Saves a fresh key pair in a directory. -/
def generateInto (directory : String) (bits : Nat) (world : World FileSystem) :
    Except Error KeyPaths × World FileSystem :=
  match generate bits world.entropy with
  | (.error e, entropy) => (.error (.library e), { world with entropy })
  | (.ok pair, entropy) =>
    let (result, sink) := pair.save directory world.sink
    (result, { sink, entropy })

end KeyPair

end EnvelopeLog

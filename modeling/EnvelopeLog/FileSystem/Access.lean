import EnvelopeLog.FileSystem.Basic
import EnvelopeLog.Sink
import EnvelopeLog.Source

/-!
# Access to files

Files are opened before they are read or written: a failing open leaves everything as it is. A file opened for reading is a
source from any position on, delivered in the manner of the file system. A file opened for writing is made if it is missing and
may be emptied. What is written to an open file is added at its end. Where it matters, the calls on an open file may fail too
(`Trouble`).
-/

namespace EnvelopeLog.FileSystem

/-! ## Reading -/

/-- Where the file is that a path leads to; a directory may be opened too, but not read. -/
def openRead (fs : FileSystem) (path : String) : Except OsFault Location := (fs.find path).map (·.1)

/-- What an open file holds. -/
def contentAt (fs : FileSystem) (l : Location) : Except OsFault Bytes :=
  match fs.node? l with
  | some (.file _ content) => .ok content
  | some (.directory _) => .error .isADirectory
  | none => .error .notFound

/-- What an open file delivers to a reader from a position on. -/
def sourceAt (fs : FileSystem) (l : Location) (position : Nat) : Source :=
  match fs.contentAt l with
  | .ok content =>
    { unread := content.drop position, position, mostPerRead := fs.delivery.mostPerRead, interrupts := fs.delivery.interrupts }
  | .error e => Source.failing (.os e) e.kind_ne_interrupted

/-- What a file holds. -/
def readBytes (fs : FileSystem) (path : String) : Except IoFault Bytes :=
  match fs.openRead path with
  | .error e => .error (.os e)
  | .ok l => (fs.contentAt l).mapError .os

/-- The text that a file holds. -/
def readText (fs : FileSystem) (path : String) : Except IoFault String :=
  match fs.readBytes path with
  | .error e => .error e
  | .ok b =>
    match Bytes.text? b with
    | some text => .ok text
    | none => .error (.told .invalidData "stream did not contain valid UTF-8")

/-! ## Writing -/

/-- Whether an open file keeps what it holds. -/
inductive Opening where
  | append
  | truncate
deriving DecidableEq, Repr

/-- Opens a file for writing; a missing file is made with the given permissions. -/
def openWrite (fs : FileSystem) (path : String) (opening : Opening) (mode : Nat) :
    Except OsFault (Location × FileSystem) :=
  match fs.locate path with
  | .error e => .error e
  | .ok place =>
    match fs.node? place.location with
    | some (.directory _) => .error .isADirectory
    | some (.file old _) =>
      if place.directoryOnly then .error .notADirectory
      else
        match opening with
        | .append => .ok (place.location, fs)
        | .truncate => .ok (place.location, fs.set place.location (.file old []))
    | none =>
      if place.directoryOnly then .error .isADirectory
      else .ok (place.location, fs.set place.location (.file mode []))

/-- Adds bytes to an open file. -/
def appendAt (fs : FileSystem) (l : Location) (b : Bytes) : FileSystem :=
  match fs.node? l with
  | some (.file mode content) => fs.set l (.file mode (content ++ b))
  | _ => fs

/-- Replaces what a file holds, the file being made if it is missing. -/
def writeFile (fs : FileSystem) (path : String) (b : Bytes) : Except OsFault FileSystem :=
  match fs.openWrite path .truncate fileMode with
  | .error e => .error e
  | .ok (l, fs) => .ok (fs.appendAt l b)

/-- Changes the permissions of what is at a location. -/
def setModeAt (fs : FileSystem) (l : Location) (mode : Nat) : FileSystem :=
  match fs.node? l with
  | some (.file _ content) => fs.set l (.file mode content)
  | some (.directory _) => fs.set l (.directory mode)
  | none => fs

/-! ## Trouble with a file -/

/-- What goes wrong with a file that is written anew: it cannot be opened, its permissions cannot be set, writing it breaks off
after so many bytes, or what was written cannot be made to last. -/
structure Trouble where
  opening : Option IoFault := none
  permissions : Option IoFault := none
  writing : Option (Nat × IoFault) := none
  lasting : Option IoFault := none
deriving DecidableEq, Repr

/-- After how many of some bytes writing them breaks off, and why; a break behind the last byte is none. -/
def Trouble.cut (trouble : Trouble) (b : Bytes) : Option (Nat × IoFault) := trouble.writing.filter (·.1 < b.length)

/-- Opens a file to be written anew; if that fails, everything is left as it is. -/
def openAnew (fs : FileSystem) (path : String) (mode : Nat) (trouble : Trouble) : Except IoFault (Location × FileSystem) :=
  match trouble.opening with
  | some fault => .error fault
  | none => (fs.openWrite path .truncate mode).mapError .os

/-- Writes to an open file until everything is written or writing breaks off. -/
def fillAt (fs : FileSystem) (l : Location) (b : Bytes) (trouble : Trouble) : Option IoFault × FileSystem :=
  match trouble.cut b with
  | some (n, fault) => (some fault, fs.appendAt l (b.take n))
  | none => (none, fs.appendAt l b)

/-- Replaces what a file holds, as far as that goes well. -/
def replaceFile (fs : FileSystem) (path : String) (b : Bytes) (trouble : Trouble) : Option IoFault × FileSystem :=
  match fs.openAnew path fileMode trouble with
  | .error fault => (some fault, fs)
  | .ok (l, fs) => fs.fillAt l b trouble

/-- Replaces what a file holds by something that is its owner's alone, also if the file was there before, and makes it last, as
far as that goes well. -/
def replacePrivateFile (fs : FileSystem) (path : String) (b : Bytes) (trouble : Trouble) : Option IoFault × FileSystem :=
  match fs.openAnew path privateMode trouble with
  | .error fault => (some fault, fs)
  | .ok (l, fs) =>
    match trouble.permissions with
    | some fault => (some fault, fs)
    | none =>
      match (fs.setModeAt l privateMode).fillAt l b trouble with
      | (some fault, fs) => (some fault, fs)
      | (none, fs) => (trouble.lasting, fs)

/-! ## Open files as sinks -/

/-- The end of an open file as a sink: it takes all that it is given. -/
def sinkAt (l : Location) : Sink FileSystem where
  write fs b := (.took b.length, fs.appendAt l b)
  flush fs := (none, fs)
  release fs := fs
  patience _ _ := 0
  took_le := by
    intro fs b n fs' h
    simp only [Prod.mk.injEq, WriteReply.took.injEq] at h
    omega
  patience_lt := by
    intro fs b fs' h
    simp at h
  failed_kind := by
    intro fs b fault fs' h
    simp at h

/-! ## Directories -/

/-- Makes a directory in a directory that is there. -/
def makeDirectory (fs : FileSystem) (path : String) : Except OsFault FileSystem :=
  match fs.locate path with
  | .error e => .error e
  | .ok place =>
    match fs.node? place.location with
    | some _ => .error .alreadyExists
    | none => .ok (fs.set place.location (.directory directoryMode))

/-- Makes the first of the given directories; where the way to it is missing, the others are made before, the last one first. -/
def makeFirst (fs : FileSystem) : List String → Option OsFault × FileSystem
  | [] => (none, fs)
  | path :: ancestors =>
    match fs.makeDirectory path with
    | .ok made => (none, made)
    | .error .notFound =>
      match fs.makeFirst ancestors with
      | (some e, fs) => (some e, fs)
      | (none, fs) =>
        match fs.makeDirectory path with
        | .ok made => (none, made)
        | .error e => (if fs.isDirectory path then none else some e, fs)
    | .error e => (if fs.isDirectory path then none else some e, fs)

/-- Makes a directory and the directories on the way to it, as far as they are missing. -/
def makeDirectories (fs : FileSystem) (path : String) : Option OsFault × FileSystem :=
  if path = "" then (none, fs) else fs.makeFirst (path :: (Path.ofText path).ancestors)

/-! ## Properties -/

/-- The permissions of a file or directory. -/
def mode (fs : FileSystem) (path : String) : Except OsFault Nat :=
  (fs.find path).map fun found =>
    match found.2 with
    | .file mode _ | .directory mode => mode

/-- Changes the permissions of a file or directory. -/
def setMode (fs : FileSystem) (path : String) (mode : Nat) : Except OsFault FileSystem :=
  (fs.find path).map fun found => fs.setModeAt found.1 mode

/-- The length of what a file holds. -/
def size (fs : FileSystem) (path : String) : Except OsFault Nat :=
  (fs.find path).map fun found =>
    match found.2 with
    | .file _ content => content.length
    | .directory _ => 4096

/-- Cuts what a file holds to a length, or fills it up with zeros. -/
def resize (fs : FileSystem) (path : String) (length : Nat) : Except OsFault FileSystem :=
  match fs.find path with
  | .error e => .error e
  | .ok (_, .directory _) => .error .isADirectory
  | .ok (l, .file mode content) =>
    .ok (fs.set l (.file mode (content.take length ++ List.replicate (length - content.length) 0)))

end EnvelopeLog.FileSystem

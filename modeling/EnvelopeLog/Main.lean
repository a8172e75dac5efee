import EnvelopeLog.Command.Run

/-!
# The program

The files that a command line names are read into a file system, the command is run on it with random bytes that the
operating system seeds, and what changed is written back.
-/

namespace EnvelopeLog

namespace Disk

/-- The path of a location. -/
def pathOf (l : Location) : String := "/" ++ "/".intercalate l

/-- The number of the operating system's refusal to read a directory as a file. -/
def isDirectoryCode : UInt32 := 21

/-- What is found at a location, if it can be read. -/
def probe (l : Location) : IO (Option Node) := do
  try
    let content ← IO.FS.readBinFile (pathOf l)
    return some (.file FileSystem.fileMode content.data.toList)
  catch e =>
    match e with
    | .inappropriateType _ code _ =>
      return if code = isDirectoryCode then some (.directory FileSystem.directoryMode) else none
    | _ => return none

/-- Adds what is found at a location, unless it is known. -/
def record (fs : FileSystem) (l : Location) : IO FileSystem := do
  if (fs.node? l).isSome then return fs
  else
    match ← probe l with
    | some n => return fs.set l n
    | none => return fs

/-- Adds what is found on the way from a location along names. -/
def follow (fs : FileSystem) (l : Location) : List String → IO FileSystem
  | [] => return fs
  | name :: rest => do
    let l := if name = "." then l else if name = ".." then l.dropLast else l ++ [name]
    follow (← record fs l) l rest

/-- Adds what is found on the way along a path. -/
def recordPath (fs : FileSystem) (path : String) : IO FileSystem :=
  let p := Path.ofText path
  follow fs (if p.absolute then [] else fs.workingDirectory) p.names

/-- What is found along the given paths and on the way to the working directory. -/
def load (paths : List String) : IO FileSystem := do
  let here := (Path.ofText (toString (← IO.currentDir))).names
  let fs ← follow { workingDirectory := here } [] here
  paths.foldlM recordPath fs

/-- Writes what a file holds, only its end if the file held the rest before. -/
def storeFile (l : Location) (old : Option Node) (mode : Nat) (content : Bytes) : IO Unit := do
  let path := pathOf l
  match old with
  | some (.file _ before) =>
    if before.isPrefixOf content then
      IO.FS.withFile path .append fun h => h.write ⟨(content.drop before.length).toArray⟩
    else IO.FS.writeBinFile path ⟨content.toArray⟩
  | _ =>
    IO.FS.writeBinFile path ⟨#[]⟩
    if mode = FileSystem.privateMode then IO.setAccessRights path { user := { read := true, write := true } }
    IO.FS.writeBinFile path ⟨content.toArray⟩
  if mode = FileSystem.privateMode then IO.setAccessRights path { user := { read := true, write := true } }

/-- Writes back what differs between two file systems, what was made first before what was made later. -/
def store (before after : FileSystem) : IO Unit :=
  after.nodes.reverse.forM fun (l, n) => do
    if before.node? l ≠ some n then
      match n with
      | .directory _ => IO.FS.createDirAll (pathOf l)
      | .file mode content => storeFile l (before.node? l) mode content

end Disk

/-- The paths that an invocation may read or write. -/
def Command.Invocation.paths (i : Command.Invocation) : List String :=
  i.settings.toList ++
    match i.action with
    | .generate directory _ =>
      let paths := KeyPair.pathsIn directory
      [directory, paths.publicKey, paths.privateKey]
    | .decrypt privateKey input output => [privateKey, input, output]
    | .encrypt publicKey input output _ _ => [publicKey, input, output]

end EnvelopeLog

open EnvelopeLog in
/-- Runs the command line on the disk. -/
def main (args : List String) : IO UInt32 := do
  let paths :=
    match Command.parse args with
    | .ok i => i.paths
    | .error _ => []
  let fs ← Disk.load paths
  let seed ← IO.getRandomBytes 32
  let (outcome, world) := Command.run args { sink := fs, entropy := .expand seed.data.toList }
  Disk.store fs world.sink
  IO.print outcome.stdout
  IO.eprint outcome.stderr
  return outcome.code.toUInt32

import EnvelopeLog.Fault
import EnvelopeLog.FileSystem.Path

/-!
# File systems

A file system is a tree of directories and files. The tree is kept as the list of what is found at each location, a location
being the names on the way from the root; the root is always a directory. `locate` follows a path as far as it leads through
directories, and tells why it leads nowhere.
-/

namespace EnvelopeLog

/-- What is found at a location; a mode holds the permissions. -/
inductive Node where
  | directory (mode : Nat)
  | file (mode : Nat) (content : Bytes)
deriving DecidableEq, Repr

/-- The names on the way from the root. -/
abbrev Location := List String

/-- The manner in which the content of files reaches a reader. -/
structure Delivery where
  /-- The most bytes that one read returns, if there is a limit. -/
  mostPerRead : Option Nat := none
  /-- The positions at which a read is interrupted. -/
  interrupts : List Nat := []
  /-- Before the end of the content a read returns something. -/
  progress : mostPerRead ≠ some 0 := by decide
deriving DecidableEq, Repr

/-- A tree of directories and files, and the directory where relative paths begin. -/
structure FileSystem where
  nodes : List (Location × Node) := []
  workingDirectory : Location := []
  delivery : Delivery := {}
deriving DecidableEq, Repr

namespace FileSystem

/-- The permissions of the root and of new directories. -/
def directoryMode : Nat := 0o755

/-- The permissions of new files unless asked otherwise. -/
def fileMode : Nat := 0o644

/-- The permissions of a file that is its owner's alone. -/
def privateMode : Nat := 0o600

/-- What is found at a location. -/
def node? (fs : FileSystem) (l : Location) : Option Node :=
  if l = [] then some (.directory directoryMode) else fs.nodes.lookup l

/-- The file system with something else at a location. -/
def set (fs : FileSystem) (l : Location) (n : Node) : FileSystem :=
  { fs with nodes := (l, n) :: fs.nodes.filter fun entry => entry.1 ≠ l }

theorem lookup_filter_ne (nodes : List (Location × Node)) {l l' : Location} (h : l' ≠ l) :
    (nodes.filter fun entry => entry.1 ≠ l).lookup l' = nodes.lookup l' := by
  induction nodes with
  | nil => rfl
  | cons entry rest ih =>
    obtain ⟨k, n⟩ := entry
    by_cases hk : k = l
    · subst hk
      rw [List.filter_cons_of_neg (by simp), ih, List.lookup_cons, beq_eq_false_iff_ne.mpr h]
    · rw [List.filter_cons_of_pos (by simpa using hk), List.lookup_cons, List.lookup_cons, ih]

/-- Something new is found where it was put, and everywhere else what was there before. -/
theorem node?_set (fs : FileSystem) {l : Location} (hl : l ≠ []) (n : Node) (l' : Location) :
    (fs.set l n).node? l' = if l' = l then some n else fs.node? l' := by
  unfold node? set
  by_cases h : l' = l
  · subst h
    simp [hl]
  · rw [List.lookup_cons, beq_eq_false_iff_ne.mpr h, lookup_filter_ne _ h, if_neg h]

/-! ## Following paths -/

/-- The greatest number of bytes of a name. -/
def maxNameSize : Nat := 255

/-- The number of bytes that paths stay below. -/
def maxPathSize : Nat := 4096

/-- The directory that a name leads to. -/
def enter (fs : FileSystem) (l : Location) (name : String) : Except OsFault Location :=
  if name = "." then .ok l
  else if name = ".." then .ok l.dropLast
  else if maxNameSize < name.utf8ByteSize then .error .nameTooLong
  else
    match fs.node? (l ++ [name]) with
    | none => .error .notFound
    | some (.file _ _) => .error .notADirectory
    | some (.directory _) => .ok (l ++ [name])

/-- The directory that names lead to one after the other. -/
def enterAll (fs : FileSystem) : Location → List String → Except OsFault Location
  | l, [] => .ok l
  | l, name :: rest =>
    match fs.enter l name with
    | .error e => .error e
    | .ok l => fs.enterAll l rest

/-- Where a path leads, whether or not anything is there. -/
structure Place where
  location : Location
  /-- Whether only a directory may be there. -/
  directoryOnly : Bool
deriving DecidableEq, Repr

/-- Where a path leads. -/
def locate (fs : FileSystem) (path : String) : Except OsFault Place :=
  let p := Path.ofText path
  let start := if p.absolute then [] else fs.workingDirectory
  if path = "" then .error .notFound
  else if '\x00' ∈ path.toList then .error .nulInPath
  else if maxPathSize ≤ path.utf8ByteSize then .error .nameTooLong
  else
    match p.names.getLast? with
    | none => .ok ⟨start, true⟩
    | some last =>
      match fs.enterAll start p.names.dropLast with
      | .error e => .error e
      | .ok l =>
        if last = "." then .ok ⟨l, true⟩
        else if last = ".." then .ok ⟨l.dropLast, true⟩
        else if maxNameSize < last.utf8ByteSize then .error .nameTooLong
        else .ok ⟨l ++ [last], p.slash⟩

/-- What a path leads to, and where. -/
def find (fs : FileSystem) (path : String) : Except OsFault (Location × Node) :=
  match fs.locate path with
  | .error e => .error e
  | .ok place =>
    match fs.node? place.location with
    | none => .error .notFound
    | some (.file mode content) =>
      if place.directoryOnly then .error .notADirectory else .ok (place.location, .file mode content)
    | some (.directory mode) => .ok (place.location, .directory mode)

/-- Whether a path leads to a directory. -/
def isDirectory (fs : FileSystem) (path : String) : Bool :=
  match fs.find path with
  | .ok (_, .directory _) => true
  | _ => false

/-! ## Listing -/

/-- The order in which a tree is listed: a directory before what is in it, names in the order of their characters. -/
def locationLe : Location → Location → Bool
  | [], _ => true
  | _ :: _, [] => false
  | a :: l, b :: m => a < b || (a == b && locationLe l m)

/-- All that is in the working directory and in the directories below it, directories with a slash at the end. -/
def list (fs : FileSystem) : List String :=
  let depth := fs.workingDirectory.length
  let below := fs.nodes.filter fun entry => fs.workingDirectory.isPrefixOf entry.1 && depth < entry.1.length
  let sorted := below.mergeSort fun a b => locationLe a.1 b.1
  sorted.map fun entry =>
    let name := "/".intercalate (entry.1.drop depth)
    match entry.2 with
    | .directory _ => name ++ "/"
    | .file _ _ => name

end FileSystem

end EnvelopeLog

import EnvelopeLog.Bytes

/-!
# Paths

A path is a text that names a file or a directory by the names on the way to it, separated by slashes. `join` puts a name
behind a path, and `ancestors` gives the paths of the directories on the way, the nearest first.
-/

namespace EnvelopeLog

/-- A path by its parts. -/
structure Path where
  /-- Whether the way begins at the root. -/
  absolute : Bool
  /-- The names on the way, none of them empty. -/
  names : List String
  /-- Whether the path ends in a slash, so that it names a directory. -/
  slash : Bool
deriving DecidableEq, Repr

namespace Path

/-- The parts of a text between slashes. -/
def cut : List Char → List (List Char)
  | [] => [[]]
  | c :: rest =>
    if c = '/' then [] :: cut rest
    else
      match cut rest with
      | [] => [[c]]
      | first :: more => (c :: first) :: more

/-- The parts of a path. -/
def ofText (s : String) : Path where
  absolute := s.toList.head? = some '/'
  names := ((cut s.toList).filter (· ≠ [])).map String.ofList
  slash := s.toList.getLast? = some '/'

/-- The path of a name in a directory; no slash is doubled. -/
def join (directory name : String) : String :=
  if directory = "" ∨ (ofText directory).slash then directory ++ name else directory ++ "/" ++ name

/-- The text of a path without a slash at its end. -/
def toText (p : Path) : String :=
  (if p.absolute then "/" else "") ++ "/".intercalate p.names

/-- The names on the way as far as they stand for steps: dots count at the very beginning of a relative path only. -/
def steps (p : Path) : List String :=
  match p.absolute, p.names with
  | false, first :: rest => first :: rest.filter (· ≠ ".")
  | _, names => names.filter (· ≠ ".")

/-- The paths of the directories on the way, the nearest first, without the place where a relative path begins. -/
def ancestors (p : Path) : List String :=
  let shorter (n : Nat) : String := { p with names := p.steps.take n : Path }.toText
  ((List.range p.steps.length).map shorter).reverse.filter (· ≠ "")

end Path

end EnvelopeLog

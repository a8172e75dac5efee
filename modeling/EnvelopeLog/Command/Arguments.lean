import EnvelopeLog.LogFile

/-!
# Command-line arguments

A command line is a command among options. An option is written with two dashes and its name, or with one dash and its letter
if it has one. A value follows as the next argument, after an equals sign, or directly after the letter; a next argument that
begins with a dash is no value, unless it is the dash alone. No option may be given twice at one level, and what is given
after the command counts more than what is given before it. Arguments are read from left to right, and a request for help
or for the version ends the reading.
-/

namespace EnvelopeLog.Command

/-- The commands, as far as help can be given on them. -/
inductive Topic where
  | generate
  | decrypt
  | encrypt
  | help
deriving DecidableEq, Repr

/-- The word for a command. -/
def Topic.word : Topic → String
  | .generate => "generate"
  | .decrypt => "decrypt"
  | .encrypt => "encrypt"
  | .help => "help"

/-- All commands in the order in which they are listed. -/
def topics : List Topic := [.generate, .decrypt, .encrypt, .help]

/-- What to do, with everything that needs to be known for it. -/
inductive Action where
  | generate (directory : String) (keyBits : Option Nat)
  | decrypt (privateKey input output : String)
  | encrypt (publicKey input output : String) (chunk : Nat) (opening : FileSystem.Opening)
deriving DecidableEq, Repr

/-- An action and the options that all actions share. -/
structure Invocation where
  settings : Option String := none
  logLevel : String := "warn"
  action : Action
deriving DecidableEq, Repr

/-- Why there is no action to take. -/
inductive Stop where
  /-- The arguments are none that the program knows. -/
  | usage
  /-- Help was asked for, on one command or on all. -/
  | help (topic : Option Topic)
  | version
deriving DecidableEq, Repr

/-! ## Options -/

/-- What may follow an option. -/
inductive Expected where
  | nothing
  | text
  /-- A text that is not empty. -/
  | path
  /-- A number that fits 64 bits. -/
  | count
  /-- Nothing, because reading ends at the option. -/
  | stop (why : Stop)
deriving DecidableEq, Repr

/-- An option that a command knows. -/
structure Switch where
  name : String
  letter : Option Char := none
  expected : Expected
  mandatory : Bool := false
  about : String
deriving DecidableEq, Repr

/-- The value of an option. -/
inductive Value where
  | present
  | text (s : String)
  | count (n : Nat)
deriving DecidableEq, Repr

/-- The options that were given, by name. -/
abbrev Given := List (String × Value)

/-- The options that all commands share. -/
def sharedSwitches : List Switch := [
  { name := "config", expected := .path, about := "Path to a JSON configuration file" },
  { name := "log-level", expected := .text, about := "Log level (trace, debug, info, warn, error) [default: warn]" }]

/-- The request for help on a command or on all. -/
def helpSwitch (topic : Option Topic) : Switch :=
  { name := "help", letter := some 'h', expected := .stop (.help topic), about := "Print help" }

/-- The options before the command. -/
def topSwitches : List Switch :=
  sharedSwitches ++ [helpSwitch none,
    { name := "version", letter := some 'V', expected := .stop .version, about := "Print version" }]

/-- The options of a command that it does not share with others. -/
def ownSwitches : Topic → List Switch
  | .generate => [
    { name := "output-dir", letter := some 'o', expected := .path, mandatory := true
      about := "Directory that receives public_key.json and private_key.json" },
    { name := "key-size", letter := some 'k', expected := .count
      about := "RSA modulus size in bits (defaults to the configured size)" }]
  | .decrypt => [
    { name := "private-key", letter := some 'p', expected := .path, mandatory := true, about := "Private key file" },
    { name := "input", letter := some 'i', expected := .path, mandatory := true, about := "Encrypted log file" },
    { name := "output", letter := some 'o', expected := .path, mandatory := true
      about := "Destination for the plaintext" }]
  | .encrypt => [
    { name := "public-key", letter := some 'k', expected := .path, mandatory := true, about := "Public key file" },
    { name := "input", letter := some 'i', expected := .path, mandatory := true, about := "Plaintext input file" },
    { name := "output", letter := some 'o', expected := .path, mandatory := true, about := "Destination log file" },
    { name := "chunk-size", expected := .count, about := "Plaintext bytes per frame [default: 4096]" },
    { name := "append", expected := .nothing
      about := "Append frames to an existing output file instead of replacing it" }]
  | .help => []

/-- The options after a command. -/
def switches (t : Topic) : List Switch := ownSwitches t ++ sharedSwitches ++ [helpSwitch (some t)]

/-! ## Reading -/

/-- The number below `2 ^ 64` that decimal digits spell, with a plus sign or without. -/
def count? (s : String) : Option Nat :=
  let digits :=
    match s.toList with
    | '+' :: rest => rest
    | cs => cs
  if digits ≠ [] ∧ digits.all Char.isDigit then
    let n := digits.foldl (fun n c => 10 * n + (c.toNat - 48)) 0
    if n < 0x10000000000000000 then some n else none
  else none

/-- The value that a text is to an option. -/
def readValue (expected : Expected) (s : String) : Except Stop Value :=
  match expected with
  | .text => .ok (.text s)
  | .path => if s = "" then .error .usage else .ok (.text s)
  | .count =>
    match count? s with
    | some n => .ok (.count n)
    | none => .error .usage
  | .nothing | .stop _ => .error .usage

/-- Adds an option that was not given before. -/
def give (given : Given) (name : String) (value : Value) : Except Stop Given :=
  if (given.lookup name).isSome then .error .usage else .ok ((name, value) :: given)

/-- Whether an argument may be the value of the option before it. -/
def mayBeValue (s : String) : Bool :=
  match s.toList with
  | '-' :: _ :: _ => false
  | _ => true

/-- Takes in an option with the value attached to it, if there is one, or else with the next argument for its value. The
result holds the arguments that are left. -/
def takeSwitch (given : Given) (switch : Switch) (attached : Option String) (rest : List String) :
    Except Stop (Given × List String) := do
  match switch.expected, attached with
  | .stop why, none => .error why
  | .nothing, none => return (← give given switch.name .present, rest)
  | expected, some s => return (← give given switch.name (← readValue expected s), rest)
  | expected, none =>
    match rest with
    | [] => .error .usage
    | next :: rest =>
      if mayBeValue next then return (← give given switch.name (← readValue expected next), rest) else .error .usage

/-- A text up to its first equals sign, and what follows that sign. -/
def splitEquals (cs : List Char) : String × Option String :=
  match cs.dropWhile (· ≠ '=') with
  | [] => (String.ofList cs, none)
  | _ :: value => (String.ofList (cs.takeWhile (· ≠ '=')), some (String.ofList value))

/-- Finds the option that an argument stands for and what is attached to it; an argument that stands for none is a word. -/
def asSwitch (known : List Switch) (arg : String) : Except Stop (Option (Switch × Option String)) :=
  match arg.toList with
  | '-' :: '-' :: cs =>
    let (name, attached) := splitEquals cs
    match known.find? (·.name = name) with
    | some switch => .ok (some (switch, attached))
    | none => .error .usage
  | '-' :: c :: cs =>
    match known.find? (·.letter = some c) with
    | none => .error .usage
    | some switch =>
      match switch.expected, cs with
      | .stop why, _ => .error why
      | _, [] => .ok (some (switch, none))
      | _, '=' :: value => .ok (some (switch, some (String.ofList value)))
      | _, value => .ok (some (switch, some (String.ofList value)))
  | _ => .ok none

/-- Reads options up to the first word, and tells what is left from that word on; after two dashes alone nothing may be
left. No more than `rounds` options are read. -/
def scan (known : List Switch) : Nat → Given → List String → Except Stop (Given × List String)
  | _, given, [] => .ok (given, [])
  | 0, given, args => .ok (given, args)
  | rounds + 1, given, arg :: rest =>
    if arg = "--" then (if rest = [] then .ok (given, []) else .error .usage)
    else
      match asSwitch known arg with
      | .error why => .error why
      | .ok none => .ok (given, arg :: rest)
      | .ok (some (switch, attached)) =>
        match takeSwitch given switch attached rest with
        | .error why => .error why
        | .ok (given, rest) => scan known rounds given rest

/-- The text given for an option. -/
def Given.text? (given : Given) (name : String) : Option String :=
  match given.lookup name with
  | some (.text s) => some s
  | _ => none

/-- The number given for an option. -/
def Given.count? (given : Given) (name : String) : Option Nat :=
  match given.lookup name with
  | some (.count n) => some n
  | _ => none

/-- The text given for an option that may not be missing. -/
def Given.require (given : Given) (name : String) : Except Stop String :=
  match given.text? name with
  | some s => .ok s
  | none => .error .usage

/-- The action of a command with its options. -/
def action (t : Topic) (given : Given) : Except Stop Action := do
  match t with
  | .generate => return .generate (← given.require "output-dir") (given.count? "key-size")
  | .decrypt => return .decrypt (← given.require "private-key") (← given.require "input") (← given.require "output")
  | .encrypt =>
    let opening : FileSystem.Opening := if (given.lookup "append").isSome then .append else .truncate
    return .encrypt (← given.require "public-key") (← given.require "input") (← given.require "output")
      ((given.count? "chunk-size").getD LogFile.defaultChunk) opening
  | .help => .error (.help none)

/-- The command of the given word. -/
def topic? (word : String) : Option Topic := topics.find? (·.word = word)

/-- What the words after the command for help ask for. -/
def helpOn : List String → Stop
  | [] => .help none
  | [word] =>
    match topic? word with
    | some t => .help (some t)
    | none => .usage
  | _ => .usage

/-- What command-line arguments ask for. -/
def parse (args : List String) : Except Stop Invocation := do
  let (before, rest) ← scan topSwitches args.length [] args
  match rest with
  | [] => .error .usage
  | word :: rest =>
    match topic? word with
    | none => .error .usage
    | some .help => .error (helpOn rest)
    | some t =>
      let (after, extra) ← scan (switches t) rest.length [] rest
      if extra ≠ [] then .error .usage
      else
        let action ← action t after
        let settings := (after.text? "config").or (before.text? "config")
        let logLevel := ((after.text? "log-level").or (before.text? "log-level")).getD "warn"
        return { settings, logLevel, action }

end EnvelopeLog.Command

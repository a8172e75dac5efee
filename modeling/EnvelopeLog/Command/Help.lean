import EnvelopeLog.Command.Arguments

/-!
# Help

The texts that explain the commands and their options, laid out in two columns.
-/

namespace EnvelopeLog.Command

/-- The name under which the program is called. -/
def programName : String := "seal-log"

/-- The answer to the question for the version. -/
def versionText : String := s!"{programName} 0.1.0\n"

/-- What a command does. -/
def Topic.about : Topic → String
  | .generate => "Generate a new RSA key pair"
  | .decrypt => "Decrypt an encrypted log file"
  | .encrypt => "Encrypt a plaintext file into the log format"
  | .help => "Print this message or the help of the given subcommand(s)"

/-- A text filled up with blanks to a width. -/
def padded (width : Nat) (s : String) : String := s ++ String.ofList (List.replicate (width - s.length) ' ')

/-- Two columns, the second beginning two blanks after the longest entry of the first. -/
def columns (rows : List (String × String)) : String :=
  let width := (rows.map (·.1.length)).foldl max 0
  String.join (rows.map fun row => s!"  {padded width row.1}  {row.2}\n")

/-- The name of an option's value in help texts. -/
def Switch.placeholder (s : Switch) : String :=
  String.ofList (s.name.toList.map fun c => if c = '-' then '_' else c.toUpper)

/-- How an option is written. -/
def Switch.form (s : Switch) : String :=
  match s.expected with
  | .nothing | .stop _ => s!"--{s.name}"
  | _ => s!"--{s.name} <{s.placeholder}>"

/-- A line of the list of options. -/
def Switch.row (s : Switch) : String × String :=
  let letter :=
    match s.letter with
    | some c => s!"-{c}, "
    | none => "    "
  (letter ++ s.form, s.about)

/-- The list of options. -/
def optionsText (known : List Switch) : String := "Options:\n" ++ columns (known.map Switch.row)

/-- The pattern of all command lines. -/
def usageText : String := s!"Usage: {programName} [OPTIONS] <COMMAND>\n"

/-- The explanation of a command, or of the whole program. -/
def helpText : Option Topic → String
  | none =>
    "Encrypt log files with RSA + AES-GCM envelopes and decrypt them again\n\n" ++ usageText ++ "\nCommands:\n" ++
      columns (topics.map fun t => (t.word, t.about)) ++ "\n" ++ optionsText topSwitches
  | some t =>
    let mandatory := String.join (((switches t).filter (·.mandatory)).map fun s => " " ++ s.form)
    s!"{t.about}\n\nUsage: {programName} {t.word} [OPTIONS]{mandatory}\n\n" ++ optionsText (switches t)

end EnvelopeLog.Command

import Worksheet.CommandLine.Arguments
import Worksheet.Journal
import Worksheet.Profile.Bundled

/-!
# Requests

What the command line asks for: a command with the names of files, the settings
under which it is carried out, and what the journal is to keep.

* `Request.read` reads the arguments of the program.
-/

namespace Worksheet

/-- The form in which findings are printed. -/
inductive Format where
  | text
  | json
deriving DecidableEq, Repr

namespace Format

/-- All of them. -/
def all : List Format := [.text, .json]

/-- The name on the command line. -/
def name : Format → Text
  | text => lit "text"
  | json => lit "json"

/-- The one with a given name. -/
def ofName? (t : Text) : Option Format := all.find? (·.name = t)

end Format

/-- What is to be done with files. -/
inductive Task where
  /-- Print their findings. -/
  | check (format : Format)
  /-- Apply their corrections; in a dry run no file is written. -/
  | fix (dryRun : Bool)
deriving DecidableEq, Repr

/-- What the command line asks for. -/
structure Request where
  task : Task
  /-- The files, by their normal names. -/
  files : List Text
  /-- The file with the settings, if the settings are not those of a bundled
  profile. -/
  config : Option Text := none
  /-- The bundled profile. -/
  profile : Text := lit "default"
  /-- What the journal is to keep. -/
  journal : JournalRequest := {}

namespace Request

/-- The flag that asks for help. -/
def helpFlag : Flag := ⟨[lit "-h", lit "--help"], .help⟩

/-- The arguments of the program itself. -/
def programGrammar : Grammar where
  program := About.program
  flags := [helpFlag, ⟨[lit "--version"], .version⟩]
  operands := .command (lit "command") [lit "check", lit "fix"]

/-- The flags of every command. -/
def sharedFlags : List Flag :=
  [helpFlag, ⟨[lit "--profile"], .value (some Profile.names)⟩, ⟨[lit "--config"], .value none⟩,
   ⟨[lit "--log-level"], .value (some (Level.all.map Level.name))⟩,
   ⟨[lit "--log-channel"], .value none⟩]

/-- The arguments of a command that has a flag of its own. -/
def grammarOf (command : Text) (own : Flag) : Grammar where
  program := About.program ++ ' ' :: command
  flags := sharedFlags ++ [own]
  operands := .some (lit "paths")

/-- The arguments of the command that prints findings. -/
def checkGrammar : Grammar :=
  grammarOf (lit "check") ⟨[lit "--format"], .value (some (Format.all.map Format.name))⟩

/-- The arguments of the command that applies corrections. -/
def fixGrammar : Grammar := grammarOf (lit "fix") ⟨[lit "--dry-run"], .switch⟩

/-- The value of a flag, if the flag is given. Without a value it is at fault. -/
def valueOr (f : Fault) : Option (Option Text) → Except Fault (Option Text)
  | none => .ok none
  | some none => .error f
  | some (some t) => .ok (some t)

/-- The fault of something that is looked up by a flag without a value. -/
def unkeyed : Fault := .notHashable (lit "list")

/-- What the journal is to keep; channels are named with commas between them. -/
def journalOf (p : Parsed) : Except Fault JournalRequest := do
  let level ← valueOr unkeyed (p.last? (lit "--log-level"))
  let channels := match (p.last? (lit "--log-channel")).join with
    | none | some [] => none
    | some names => some (Channel.ofNames (names.splitOn (· == ',')))
  return { level := level.map Level.ofName, channels }

/-- The request for a task with the arguments of its command. If there is a file
with settings, the profile does not count. -/
def ofParsed (task : Task) (p : Parsed) : Except Fault Request := do
  let journal ← journalOf p
  let config ← valueOr (.notPath (lit "list")) (p.last? (lit "--config"))
  let profile ←
    if config.isSome then pure none else valueOr unkeyed (p.last? (lit "--profile"))
  return {
    task, journal
    files := p.operands.map FileName.normal
    config := config.map FileName.normal
    profile := profile.getD (lit "default") }

/-- The request for a command with its arguments, and the arguments that were not
understood. -/
def ofCommand (command : Text) (args : List Text) :
    Except Stop (Except Fault Request × List Text) := do
  if command = lit "check" then
    let p ← checkGrammar.read args
    let format := ((p.last? (lit "--format")).join.bind Format.ofName?).getD .text
    return (ofParsed (.check format) p, p.extra)
  else
    let p ← fixGrammar.read args
    return (ofParsed (.fix (p.has (lit "--dry-run"))) p, p.extra)

/-- Complains about arguments that were not understood. -/
def checkExtra : List Text → Except Stop Unit
  | [] => .ok ()
  | extra => programGrammar.misuse (lit "unrecognized arguments: " ++ Text.join [' '] extra)

/-- Reads the arguments of the program. Without a command there is no request. -/
def read (args : List Text) : Except Stop (Option Request) := do
  let p ← programGrammar.read args
  match p.operands with
  | [] =>
    checkExtra p.extra
    return none
  | command :: args =>
    let (r, extra) ← ofCommand command args
    checkExtra (p.extra ++ extra)
    return some (← r.mapError .fault)

end Request

end Worksheet

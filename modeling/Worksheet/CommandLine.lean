import Worksheet.CommandLine.Check
import Worksheet.CommandLine.Fix
import Worksheet.CommandLine.Help
import Worksheet.Profile.File

/-!
# The command line

* `CommandLine.run` is the program: it reads its arguments, sets up the journal and
  the engine, and carries the command out.
-/

namespace Worksheet.CommandLine

variable {m : Type → Type} [Monad m]

/-- The help on a program. -/
def helpOn (program : Text) : Text :=
  if program = Request.checkGrammar.program then Help.check
  else if program = Request.fixGrammar.program then Help.fix
  else Help.program

/-- How the program ends when its arguments are not read to their end. -/
def stopped : Stop → Ending
  | .help program => { exit := .ok Ending.fine, out := [helpOn program] }
  | .version =>
    { exit := .ok Ending.fine, out := [About.program ++ ' ' :: About.version] }
  | .misuse program message =>
    { exit := .ok Ending.trouble, err := [program ++ lit ": error: " ++ message] }
  | .fault f => { exit := .error f }

/-- The settings under which a request is carried out. -/
def settings (h : Host m) (r : Request) : m Reading := do
  match r.config with
  | some name => return Profile.ofContents name (← h.read name)
  | none => return Profile.loadBundled r.profile

/-- Carries a request out. -/
def perform (h : Host m) (env : Environment) (r : Request) : m Ending := do
  let reading ← settings h r
  let j := (({} : Journal).configure env r.journal true).recordAll reading.calls
  match reading.result with
  | .error f => return Ending.ofFault j f
  | .ok s =>
    match r.task with
    | .check format => Check.run h (Engine.stock s) format r.files j
    | .fix dryRun => Fix.run h (Engine.stock s) dryRun r.files j

/-- Runs the program with its arguments. Without any it explains itself. -/
def run (h : Host m) (env : Environment) (args : List Text) : m Ending := do
  match Request.read args with
  | .error stop => return stopped stop
  | .ok none => return stopped (.help About.program)
  | .ok (some r) => perform h env r

end Worksheet.CommandLine

import Worksheet.CommandLine.Ending
import Worksheet.CommandLine.Request
import Worksheet.Report.Json

/-!
# Checking files

The command that prints the findings of documents. It writes no file.

* `Check.run` carries the command out;
* `Check.block` is what is printed about a document, `Check.print` prints one after the
  other, and `Check.exitCode` tells how the command ends.
-/

namespace Worksheet.Check

variable {m : Type → Type} [Monad m] {α : Type} [Alphabet α]

/-- The reports on documents. -/
def reports (h : Host m α) (e : Engine α) : List (Document α) → Journal → m (List (Report α) × Journal)
  | [], j => return ([], j)
  | d :: ds, j => do
    let (r, j) ← e.examine h d j
    let (rs, j) ← reports h e ds j
    return (r :: rs, j)

/-- What is printed about a document; nothing if there are no findings. -/
def block (r : Report α) : List (Text α) :=
  if r.diagnostics.isEmpty then [] else [Diagnostic.lines r.document r.diagnostics]

/-- The lines about the rules that failed. -/
def failures (r : Report α) : List Text :=
  r.failedRules.map fun rule =>
    Alphabet.shown r.document ++ lit ": rule " ++ rule ++ lit " failed to run"

/-- What is printed about documents, and what cannot be printed. -/
structure Printed where
  out : List Text := []
  err : List Text := []
  stop : Option Utf8.Unwritable := none

/-- Prints about one document after the other, up to the first block that cannot be
printed. -/
def print : List (Report α) → Printed
  | [] => {}
  | r :: rs =>
    match (block r).mapM Alphabet.narrow with
    | .error f => { stop := some f }
    | .ok out => { print rs with out := out ++ (print rs).out, err := failures r ++ (print rs).err }

/-- What is printed in a format. Reports are printed as characters whatever they hold. -/
def printAs (format : Format) (rs : List (Report α)) : Printed :=
  match format with
  | .text => print rs
  | .json => { out := [Report.list rs] }

/-- The number with which the command ends, if it does not stop before. -/
def exitCode (is : List (Intake α)) (rs : List (Report α)) : Nat :=
  if is.any (·.isUnread) then Ending.trouble
  else if rs.any fun r => r.diagnostics.any (·.severity = .error) then Ending.findings
  else Ending.fine

/-- How the command ends, given what became of the files, and the reports. -/
def ending (format : Format) (is : List (Intake α)) (rs : List (Report α)) (j : Journal) : Ending :=
  let printed := printAs format rs
  { exit := match printed.stop with
      | none => .ok (exitCode is rs)
      | some f => .error (.notWritable f)
    out := printed.out
    err := Intake.complaints is ++ printed.err
    journal := j }

/-- Carries the command out. -/
def run [DecidableEq α] (h : Host m α) (e : Engine α) (format : Format) (names : List (Text α))
    (j : Journal) : m Ending := do
  let is ← Intake.all h e.settings names
  match is.findSome? (·.refusal?) with
  | some f => return Ending.refused is j f
  | none =>
    let (rs, j) ← reports h e (Intake.documents is) (j.recordAll (Intake.calls is))
    return ending format is rs j

end Worksheet.Check

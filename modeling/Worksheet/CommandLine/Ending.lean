import Worksheet.CommandLine.Intake
import Worksheet.Engine

/-!
# Endings

How a command ends: with a number for those who called it, after what it has
printed.

* `Ending.refused` and `Ending.ofFault` are the endings of commands that cannot do
  their work;
* `Engine.examine` checks a document on a host.
-/

namespace Worksheet

/-- How a command ends. The output is made of characters alone: a command that is to
print anything else stops there with a fault. -/
structure Ending where
  /-- The number for those who called the command, or a fault that nobody
  expected. -/
  exit : Except Fault Nat
  /-- The lines of the output. -/
  out : List Text := []
  /-- The lines of complaint. -/
  err : List Text := []
  journal : Journal := {}

namespace Ending

/-- The number of a command that did its work and found nothing wrong. -/
def fine : Nat := 0

/-- The number of a command that found errors. -/
def findings : Nat := 1

/-- The number of a command that could not read or write all that it should. -/
def trouble : Nat := 2

variable {α : Type} [Alphabet α]

/-- The ending of a command that is called with a name that no file can have. -/
def refused (is : List (Intake α)) (j : Journal) (f : Fault) : Ending where
  exit := .error f
  err := Intake.complaints (Intake.accepted is)
  journal := j.recordAll (Intake.calls (Intake.accepted is))

/-- The ending of a command whose settings cannot be used. Faults of the settings
file are complained about. -/
def ofFault (j : Journal) (f : Fault) : Ending :=
  if f.kind = lit "ConfigError" ∨ f.kind = lit "FileNotFoundError" then
    { exit := .ok trouble, err := [About.program ++ lit ": " ++ f.message], journal := j }
  else { exit := .error f, journal := j }

end Ending

variable {m : Type → Type} [Monad m]

/-- The report on a document, and the journal with the events of the check. -/
def Engine.examine {α : Type} [Alphabet α] (h : Host m α) (e : Engine α) (d : Document α)
    (j : Journal) : m (Report α × Journal) := do
  let (os, moment, duration) ← h.timed fun _ => e.outcomes d
  return Engine.conclude d os moment duration j

end Worksheet

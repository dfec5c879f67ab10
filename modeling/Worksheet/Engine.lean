import Worksheet.Image.Rule
import Worksheet.Marks
import Worksheet.Report

/-!
# The engine

The engine holds the rules, in the order in which their names were first
registered, and runs them over a document. A rule that fails takes no other one
down: its name is noted, and the findings of the others stay.

* `Engine.register` adds or replaces a rule, `Engine.registerStock` the rules for
  grading annotations and images;
* `Engine.validate` checks a document. What it reports does not depend on the
  journal; the events that it leaves there are those of `Engine.calls`, with the
  name of the document.
-/

namespace Worksheet

/-- The rules and the settings under which they run. -/
structure Engine (α : Type := Char) [Alphabet α] where
  settings : Settings := {}
  rules : List (Rule α) := []

namespace Engine

variable {α : Type} [Alphabet α]

/-- Rules with one more of them. A rule of the same name is replaced where it
stands. -/
def insert (r : Rule α) : List (Rule α) → List (Rule α)
  | [] => [r]
  | q :: qs => if q.name = r.name then r :: qs else q :: insert r qs

/-- The engine with one more rule. -/
def register (e : Engine α) (r : Rule α) : Engine α := { e with rules := insert r e.rules }

/-- The names of the rules, in their order. -/
def ruleNames (e : Engine α) : List Text := e.rules.map (·.name)

/-- The rules that every engine of the program has. -/
def stockRules [DecidableEq α] : List (Rule α) := [Marks.rule, Images.rule]

/-- The engine with the stock rules. -/
def registerStock [DecidableEq α] (e : Engine α) : Engine α := stockRules.foldl register e

/-- An engine with the stock rules. -/
def stock [DecidableEq α] (s : Settings := {}) : Engine α := registerStock { settings := s }

/-- The rules that are to run. -/
def enabled (e : Engine α) : List (Rule α) := e.rules.filter fun r => e.settings.enables r.name

/-- The rules that are to run, each with what comes out of it. -/
def outcomes (e : Engine α) (d : Document α) : List (Text × Outcome α) :=
  e.enabled.map fun r => (r.name, r.run d e.settings)

/-- The findings of the rules that did not fail, with their ranges. -/
def found (d : Document α) (os : List (Text × Outcome α)) : List (Diagnostic α) :=
  os.flatMap fun o =>
    match o.2.result with
    | .ok ds => Diagnostic.locateAll d ds
    | .error _ => []

/-- The names of the rules that failed. -/
def failed (os : List (Text × Outcome α)) : List Text :=
  os.filterMap fun o =>
    match o.2.result with
    | .ok _ => none
    | .error _ => some o.1

/-- How a check went, by the rules that failed and the findings. -/
def statusOf (failed : List Text) (ds : List (Diagnostic α)) : Status :=
  if !failed.isEmpty then .incomplete else if !ds.isEmpty then .issues else .clean

/-- The report on a document, for a check that started at a time and took a
number of milliseconds. -/
def reportOf (d : Document α) (os : List (Text × Outcome α)) (moment : Moment) (duration : Binary64) :
    Report α :=
  let ds := found d os
  { document := d.name
    moment
    status := statusOf (failed os) ds
    diagnostics := ds
    failedRules := failed os
    duration }

/-! ## Calls -/

/-- The call that tells that a rule starts. -/
def startedCall (rule : Text) : Call where
  logger := Logger.ofChannel .engine
  urgency := .verbose
  event := lit "rule_started"
  fields := [(lit "rule_name", .text rule)]

/-- The call that tells that a rule has come to its end, with what was measured. -/
def completedCall (rule : Text) (metrics : Fields) : Call where
  logger := Logger.ofChannel .engine
  urgency := .verbose
  event := lit "rule_completed"
  fields := (lit "rule_name", .text rule) :: metrics

/-- The call that tells that a rule failed. -/
def failedCall (rule : Text) (f : Fault) : Call where
  logger := Logger.ofChannel .system
  urgency := .error
  event := lit "rule_failed"
  fields :=
    [(lit "rule_name", .text rule), (lit "error", .text f.message),
     (lit "error_type", .text f.kind)]

/-- The call that tells that a document has been checked, with what was
measured. -/
def finishedCall (status : Text) (metrics : Fields) : Call where
  logger := Logger.ofChannel .engine
  urgency := .info
  event := lit "validation_complete"
  fields := (lit "status", .text status) :: metrics

/-- The calls around and within the run of a rule. -/
def outcomeCalls (name : Text) (o : Outcome α) : List Call :=
  startedCall name :: o.calls ++
    [match o.result with
      | .ok ds => completedCall name [(lit "diagnostics", .int ds.length)]
      | .error f => failedCall name f]

/-- The calls that are made while a document is checked. -/
def calls (os : List (Text × Outcome α)) (r : Report α) : List Call :=
  (os.flatMap fun o => outcomeCalls o.1 o.2) ++
    [finishedCall r.status.name
      [(lit "diagnostics", .int r.diagnostics.length), (lit "errors", .int r.errorCount),
       (lit "warnings", .int r.warningCount)]]

/-- The report on a document by what came out of the rules, and the journal with
the events of the check. They carry the name of the document, which is forgotten
afterwards. -/
def conclude (d : Document α) (os : List (Text × Outcome α)) (moment : Moment) (duration : Binary64)
    (j : Journal) : Report α × Journal :=
  let r := reportOf d os moment duration
  (r, ((j.bind [(lit "document", .ofText d.name)]).recordAll (calls os r)).clear)

/-- The report on a document, for a check that started at a time and took a
number of milliseconds, and the journal with the events of the check. -/
def validate (e : Engine α) (d : Document α) (moment : Moment) (duration : Binary64) (j : Journal) :
    Report α × Journal :=
  conclude d (e.outcomes d) moment duration j

end Engine

end Worksheet

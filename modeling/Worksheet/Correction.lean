import Worksheet.Diagnostic
import Worksheet.Journal

/-!
# Applying corrections

* `Correction.overlaps` tells which corrections cannot be applied together: those
  that touch the same text, and those that start at the same place;
* `Correction.select` picks corrections that can; where two of them overlap, the
  one of the earlier finding is taken;
* `Correction.applyAll` puts the replacements into a text, from back to front so
  that the offsets of those still to come stay valid.
-/

namespace Worksheet.Correction

variable {α : Type}

/-- Whether two corrections cannot be applied together. -/
def overlaps (a b : Correction α) : Bool :=
  a.start == b.start || (a.start < b.stop && b.start < a.stop)

/-- A correction that is picked, or one that is passed over with its finding. -/
inductive Choice (α : Type := Char) where
  | taken (c : Correction α)
  | passed (d : Diagnostic α) (c : Correction α)

/-- The correction that is picked. -/
def Choice.taken? : Choice α → Option (Correction α)
  | taken c => some c
  | passed .. => none

/-- What is decided about the corrections of findings, given those that have
been picked already. -/
def choices (picked : List (Correction α)) : List (Diagnostic α) → List (Choice α)
  | [] => []
  | d :: ds =>
    match d.fix with
    | none => choices picked ds
    | some c =>
      if picked.any (overlaps c) then .passed d c :: choices picked ds
      else .taken c :: choices (picked ++ [c]) ds

/-- The corrections of findings that are applied together. -/
def select (ds : List (Diagnostic α)) : List (Correction α) := (choices [] ds).filterMap (·.taken?)

/-- A text with a correction put in. -/
def apply (t : Text α) (c : Correction α) : Text α := t.take c.start ++ c.replacement ++ t.drop c.stop

/-- Corrections from back to front; those that start at the same place stay in
their order. -/
def backToFront (cs : List (Correction α)) : List (Correction α) :=
  cs.mergeSort fun a b => b.start ≤ a.start

/-- A text with the corrections of findings put in, and their number. -/
def applyAll (t : Text α) (ds : List (Diagnostic α)) : Text α × Nat :=
  let cs := select ds
  ((backToFront cs).foldl apply t, cs.length)

/-- The call that tells of a correction that is passed over. -/
def passedCall (d : Diagnostic α) (c : Correction α) : Call where
  logger := Logger.ofChannel .fix
  urgency := .verbose
  event := lit "fix_skipped_overlap"
  fields := [(lit "code", .text d.code.name), (lit "start", .int c.start), (lit "end", .int c.stop)]

/-- The call that tells of a correction that is applied. -/
def appliedCall [Alphabet α] (c : Correction α) : Call where
  logger := Logger.ofChannel .fix
  urgency := .debug
  event := lit "fix_applied"
  fields :=
    [(lit "start", .int c.start), (lit "end", .int c.stop),
     (lit "replacement", .ofText (c.replacement.take 50))]

/-- The calls that are made while corrections are picked. -/
def selectCalls (ds : List (Diagnostic α)) : List Call :=
  (choices [] ds).filterMap fun
    | .taken _ => none
    | .passed d c => some (passedCall d c)

/-- The calls that are made while corrections are applied. -/
def calls [Alphabet α] (ds : List (Diagnostic α)) : List Call :=
  selectCalls ds ++ (backToFront (select ds)).map appliedCall

end Worksheet.Correction

import Worksheet.Document
import Worksheet.Journal

/-!
# Rules

A rule looks at a document and reports findings. What comes out of a run is an
`Outcome`: the calls that the rule made to the journal, and its findings, or the
fault that stopped it.

* `checkedSpan` turns two numbers into the span of a finding; a span cannot start
  or end before the text.
-/

namespace Worksheet

/-- What comes out of a run of a rule. -/
structure Outcome (α : Type := Char) where
  calls : List Call := []
  result : Except Fault (List (Diagnostic α))

/-- A rule with its name. -/
structure Rule (α : Type := Char) [Alphabet α] where
  name : Text
  run : Document α → Settings → Outcome α

/-- The two ends of a span, as places that are not before the text. -/
def checkedSpan (start stop : Int) : Except Fault (Nat × Nat) :=
  let wrong (name : Text) (i : Int) : List Violation :=
    if i < 0 then [⟨[.field name], lit "greater_than_equal"⟩] else []
  match wrong (lit "start_offset") start ++ wrong (lit "end_offset") stop with
  | [] => .ok (start.toNat, stop.toNat)
  | violations => .error (.invalid violations)

end Worksheet

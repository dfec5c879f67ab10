import Worksheet.Number.Decimal
import Worksheet.Pattern
import Worksheet.Rule
import Worksheet.Text.Blank

/-!
# Grading annotations

Every question closes with a right-aligned line that gives its marks, such as
`(Total for question = 3 marks)`. One mark is a "mark", more than one are
"marks"; there is no right unit for zero.

* `GradingLine.all` finds the annotations of a text;
* `GradingLine.agrees` is the rule for the unit, `GradingLine.unitFor` the unit to
  use, and `GradingLine.canonical` the line as it should be written;
* `Marks.rule` reports the annotations with the wrong unit, each with a
  correction that writes the whole line anew.
-/

namespace Worksheet

/-- A line that gives the marks of a question. -/
structure GradingLine where
  fullText : Text
  points : Nat
  unit : Text
  start : Nat
deriving DecidableEq, Repr

namespace GradingLine

/-- The offset just past an annotation. -/
def stop (a : GradingLine) : Nat := a.start + a.fullText.length

/-- What an annotation looks like. Its groups are the number and the unit. -/
def pattern : Pattern :=
  .all [.anyCase (lit "<p"), .oneOrMore isBlank,
    .anyCase (lit "align=\"right\"><b>(total for question"), .most isBlank, .exactly (lit "="),
    .most isBlank, .group (.oneOrMore isDecimal), .most isBlank,
    .group (.either (.anyCase (lit "mark")) (.anyCase (lit "marks"))),
    .anyCase (lit ")</b></p>")]

/-- The annotation that was read. -/
def ofMatch (m : Match) : Except Fault GradingLine := do
  let points ← readDigits (m.group 0)
  return { fullText := m.text, points, unit := Text.lower (m.group 1), start := m.start }

/-- The annotations of a text from left to right. -/
def all (t : Text) : Except Fault (List GradingLine) := (pattern.scan t).mapM ofMatch

/-- Whether a unit is the right one for a number of points. -/
def agrees (points : Int) (unit : Text) : Bool :=
  (points == 1 && unit == lit "mark") || (points > 1 && unit == lit "marks")

/-- The unit to use for a number of points. -/
def unitFor (points : Int) : Text := if points = 1 then lit "mark" else lit "marks"

/-- The line for a number of points, as it should be written. -/
def canonical (points : Int) : Text :=
  lit "<p align=\"right\"><b>(Total for question = " ++ signedDecimal points ++ [' '] ++
    unitFor points ++ lit ")</b></p>"

end GradingLine

namespace Marks

/-- The name of the rule. -/
def ruleName : Text := lit "r10_marks"

/-- The finding for an annotation with the wrong unit. -/
def finding (s : Settings) (a : GradingLine) : Diagnostic where
  severity := .warning
  code := .markTerm
  message := lit "Use \"" ++ GradingLine.unitFor a.points ++ lit "\" for " ++ decimal a.points ++
    lit " point" ++ if a.points > 1 then ['s'] else []
  source := s.source
  rule := ruleName
  start := a.start
  stop := a.stop
  fix := some ⟨a.start, a.stop, GradingLine.canonical a.points, none⟩

/-- The annotations with the wrong unit. -/
def wrong (as : List GradingLine) : List GradingLine :=
  as.filter fun a => !GradingLine.agrees a.points a.unit

/-- The findings in a text. -/
def findings (t : Text) (s : Settings) : Except Fault (List Diagnostic) := do
  return (wrong (← GradingLine.all t)).map (finding s)

/-- The call that tells how many annotations there are. -/
def countCall (as : List GradingLine) : Call where
  logger := Logger.ofRule ruleName Channel.extract
  urgency := .debug
  event := lit "annotations_extracted"
  fields := [(lit "count", .int as.length)]

/-- The call that tells of an annotation with the wrong unit. -/
def wrongCall (a : GradingLine) : Call where
  logger := Logger.ofRule ruleName
  urgency := .verbose
  event := lit "mark_term_mismatch"
  fields :=
    [(lit "points", .int a.points), (lit "found", .text a.unit),
     (lit "expected", .text (GradingLine.unitFor a.points)), (lit "offset", .int a.start)]

/-- The calls that are made for the annotations of a text. -/
def calls (as : List GradingLine) : List Call := countCall as :: (wrong as).map wrongCall

/-- The rule for grading annotations. -/
def rule {α : Type} [Alphabet α] : Rule α where
  name := ruleName
  run d s :=
    { calls := match GradingLine.all d.text with
        | .ok as => calls as
        | .error _ => []
      result := do return (← findings d.text s).map Diagnostic.embed }

theorem result_run_rule (d : Document) (s : Settings) : (rule.run d s).result = findings d.text s := by
  simp only [rule, Diagnostic.embed_char, List.map_id]
  cases findings d.text s <;> rfl

end Marks

end Worksheet

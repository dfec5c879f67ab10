import Worksheet.Diagnostic.Json
import Worksheet.Json.Reader
import Worksheet.Json.Writer
import Worksheet.Report

/-!
# Reports in JSON

* `Report.write` saves a report as a JSON text, and `Report.read` reads it again.
  A report in another version of the format is refused;
* `Report.list` is the list of several reports as the command line prints it.
-/

namespace Worksheet

/-- The text of a time within a report. -/
def Moment.iso (t : Moment) : Text := t.written 'T' ['Z']

namespace Report

/-- A report as JSON. -/
def toJson {α : Type} [Alphabet α] (r : Report α) : Json :=
  .object
    [(lit "version", .text r.version), (lit "document", .ofText r.document),
     (lit "timestamp", .text r.moment.iso), (lit "status", .text r.status.name),
     (lit "diagnostics", .list (r.diagnostics.map Diagnostic.toJson)),
     (lit "failed_rules", .list (r.failedRules.map .text)),
     (lit "processing_duration_ms", .real r.duration)]

/-- The report that JSON stands for. -/
def ofJson : Json → Checked Report :=
  Json.record fun ms =>
    Report.mk <$> ms.given "version" formatVersion Json.string
      <*> ms.required "document" Json.string
      <*> ms.required "timestamp" Json.moment
      <*> ms.required "status" (Json.choice Status.ofName?)
      <*> ms.given "diagnostics" [] (Json.elements Diagnostic.ofJson)
      <*> ms.given "failed_rules" [] (Json.elements Json.string)
      <*> ms.given "processing_duration_ms" .zero Json.number

/-- In saved reports numbers are written without an exponent from five digits
after the point up to sixteen digits before it; what is no number or infinite is
written as `null`. -/
def floatFormat : FloatFormat where
  fewestBefore := -4
  mostBefore := 16
  plusSign := true
  exponentWidth := 1
  positiveInfinity := lit "null"
  negativeInfinity := lit "null"
  notANumber := lit "null"

/-- The text under which a report is saved. -/
def write (indent : Option Nat) (r : Report) : Text :=
  JsonStyle.write { indent, floats := floatFormat } r.toJson

/-- The report that was saved under a text. -/
def read (t : Text) : Except Fault Report := do
  match Json.read? t with
  | none => throw (.invalid [⟨[], lit "json_invalid"⟩])
  | some v =>
    let r ← (ofJson v).toExcept
    if isReadable r.version then return r else throw (.unreadableVersion r.version)

/-- In lists of reports numbers are written as values are shown in messages. -/
def listFormat : FloatFormat where
  fewestBefore := -3
  mostBefore := 16
  plusSign := true
  exponentWidth := 2
  positiveInfinity := lit "Infinity"
  negativeInfinity := lit "-Infinity"
  notANumber := lit "NaN"

/-- The text of a list of reports, in printable ASCII characters. -/
def list {α : Type} [Alphabet α] (rs : List (Report α)) : Text :=
  JsonStyle.write { indent := some 2, asciiOnly := true, floats := listFormat }
    (.list (rs.map toJson))

end Report

end Worksheet

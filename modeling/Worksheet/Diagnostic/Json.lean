import Worksheet.Diagnostic
import Worksheet.Json.Checked

/-!
# Diagnostics in JSON

Diagnostics and their parts are written as objects and read from them. In what is
written all members are there, those without a value as `null`; what is read may
leave out the members for which there is a default.
-/

namespace Worksheet

/-- A value that may be missing. -/
def Json.ofOption {α : Type} (write : α → Json) : Option α → Json
  | none => .null
  | some a => write a

namespace Position

/-- A place as JSON. -/
def toJson (p : Position) : Json :=
  .object [(lit "line", .int p.line), (lit "column", .int p.column)]

/-- The place that JSON stands for. -/
def ofJson : Json → Checked Position :=
  Json.record fun ms =>
    Position.mk <$> ms.required "line" Json.natural <*> ms.required "column" Json.natural

end Position

namespace TextRange

/-- A range as JSON. -/
def toJson (r : TextRange) : Json :=
  .object [(lit "start", r.start.toJson), (lit "end", r.stop.toJson)]

/-- The range that JSON stands for. -/
def ofJson : Json → Checked TextRange :=
  Json.record fun ms =>
    TextRange.mk <$> ms.required "start" Position.ofJson <*> ms.required "end" Position.ofJson

end TextRange

namespace Correction

/-- A correction as JSON. -/
def toJson {α : Type} [Alphabet α] (c : Correction α) : Json :=
  .object
    [(lit "start_offset", .int c.start), (lit "end_offset", .int c.stop),
     (lit "replacement", .ofText c.replacement), (lit "range", .ofOption TextRange.toJson c.range)]

/-- The correction that JSON stands for. -/
def ofJson : Json → Checked Correction :=
  Json.record fun ms =>
    Correction.mk <$> ms.required "start_offset" Json.natural
      <*> ms.required "end_offset" Json.natural
      <*> ms.required "replacement" Json.string
      <*> ms.given "range" none (Json.optional TextRange.ofJson)

end Correction

namespace Diagnostic

/-- A finding as JSON. -/
def toJson {α : Type} [Alphabet α] (d : Diagnostic α) : Json :=
  .object
    [(lit "severity", .text d.severity.name), (lit "code", .text d.code.name),
     (lit "message", .ofText d.message), (lit "source", .text d.source), (lit "rule", .text d.rule),
     (lit "start_offset", .int d.start), (lit "end_offset", .int d.stop),
     (lit "range", .ofOption TextRange.toJson d.range),
     (lit "fix", .ofOption Correction.toJson d.fix)]

/-- The finding that JSON stands for. -/
def ofJson : Json → Checked Diagnostic :=
  Json.record fun ms =>
    Diagnostic.mk <$> ms.required "severity" (Json.choice Severity.ofName?)
      <*> ms.required "code" (Json.choice Code.ofName?)
      <*> ms.required "message" Json.string
      <*> ms.given "source" About.source Json.string
      <*> ms.required "rule" Json.string
      <*> ms.required "start_offset" Json.natural
      <*> ms.required "end_offset" Json.natural
      <*> ms.given "range" none (Json.optional TextRange.ofJson)
      <*> ms.given "fix" none (Json.optional Correction.ofJson)

end Diagnostic

end Worksheet

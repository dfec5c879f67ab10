import Worksheet.About
import Worksheet.Alphabet

/-!
# Diagnostics

What a rule reports: a span of the text, given by offsets, how bad it is, which
kind of finding it is, a message, and possibly a correction that would resolve
it. Lines and columns are filled in afterwards. What is said about a name, or put in
for it, is a text in the alphabet of names.

* `TextRange.contains` and `Diagnostic.covers` tell whether a place belongs to a
  range or a span; both ends belong to it.
-/

namespace Worksheet

/-- How bad a finding is. -/
inductive Severity where
  /-- The document is almost certainly broken. -/
  | error
  /-- The markup is valid, but probably not what was meant. -/
  | warning
  /-- Advice. -/
  | info
deriving DecidableEq, Repr

/-- The kinds of findings. -/
inductive Code where
  | markTerm
  | imageTagTypo
  | imagePathOutsideTag
  | imageFolder
  | imageDuplicateNumber
  | imageNumberStart
  | imageNumberGap
deriving DecidableEq, Repr

namespace Severity

/-- All severities. -/
def all : List Severity := [.error, .warning, .info]

/-- The name of a severity in reports. -/
def name : Severity → Text
  | error => lit "error"
  | warning => lit "warning"
  | info => lit "info"

/-- The severity with a given name. -/
def ofName? (t : Text) : Option Severity := all.find? (·.name = t)

end Severity

namespace Code

/-- All kinds of findings. -/
def all : List Code :=
  [.markTerm, .imageTagTypo, .imagePathOutsideTag, .imageFolder, .imageDuplicateNumber,
   .imageNumberStart, .imageNumberGap]

/-- The name of a kind of finding in reports. -/
def name : Code → Text
  | markTerm => lit "mark-term"
  | imageTagTypo => lit "image-tag-typo"
  | imagePathOutsideTag => lit "image-path-outside-tag"
  | imageFolder => lit "image-folder"
  | imageDuplicateNumber => lit "image-duplicate-number"
  | imageNumberStart => lit "image-number-start"
  | imageNumberGap => lit "image-number-gap"

/-- The kind of finding with a given name. -/
def ofName? (t : Text) : Option Code := all.find? (·.name = t)

end Code

/-- A place in a document; lines and columns count from zero. -/
structure Position where
  line : Nat
  column : Nat
deriving DecidableEq, Repr

/-- The order of places: by line, then by column. -/
def Position.le (a b : Position) : Bool :=
  a.line < b.line || (a.line == b.line && a.column ≤ b.column)

/-- The text between two places. -/
structure TextRange where
  start : Position
  stop : Position
deriving DecidableEq, Repr

/-- Whether a place lies in a range or at one of its ends. -/
def TextRange.contains (r : TextRange) (p : Position) : Bool := r.start.le p && p.le r.stop

/-- A replacement for a span of the text that would resolve a finding. -/
structure Correction (α : Type := Char) where
  start : Nat
  stop : Nat
  replacement : Text α
  range : Option TextRange := none
deriving DecidableEq, Repr

/-- A finding of a rule. -/
structure Diagnostic (α : Type := Char) where
  severity : Severity
  code : Code
  message : Text α
  source : Text := About.source
  rule : Text
  start : Nat
  stop : Nat
  range : Option TextRange := none
  fix : Option (Correction α) := none
deriving DecidableEq, Repr

variable {α : Type}

/-- Whether an offset lies in the span of a finding or at one of its ends. -/
def Diagnostic.covers (d : Diagnostic α) (offset : Int) : Bool :=
  d.start ≤ offset && offset ≤ d.stop

variable [Alphabet α]

/-- A correction that puts characters in, in an alphabet. -/
def Correction.embed (c : Correction) : Correction α :=
  ⟨c.start, c.stop, Alphabet.embed c.replacement, c.range⟩

/-- A finding that is told in characters, in an alphabet. -/
def Diagnostic.embed (d : Diagnostic) : Diagnostic α where
  severity := d.severity
  code := d.code
  message := Alphabet.embed d.message
  source := d.source
  rule := d.rule
  start := d.start
  stop := d.stop
  range := d.range
  fix := d.fix.map Correction.embed

@[simp] theorem Correction.embed_char : (Correction.embed : Correction → Correction Char) = id := rfl

@[simp] theorem Diagnostic.embed_char : (Diagnostic.embed : Diagnostic → Diagnostic Char) = id := by
  funext d
  rw [Diagnostic.embed, Correction.embed_char, Option.map_id]
  rfl

end Worksheet

import Worksheet.Calendar
import Worksheet.Diagnostic
import Worksheet.Number.Binary64
import Worksheet.Number.Digits

/-!
# Reports

What comes out of checking one document.

* `Report.errorCount` and `Report.warningCount` count the findings;
* `Report.isReadable` tells which versions of the format can be read;
* `Diagnostic.line` is the line for a finding in a list of findings, and
  `Diagnostic.lines` is this list.
-/

namespace Worksheet

/-- How checking a document went. -/
inductive Status where
  /-- There are no findings. -/
  | clean
  /-- There are findings. -/
  | issues
  /-- A rule failed. -/
  | incomplete
deriving DecidableEq, Repr

namespace Status

/-- All of them. -/
def all : List Status := [.clean, .issues, .incomplete]

/-- The name in reports. -/
def name : Status → Text
  | clean => lit "clean"
  | issues => lit "issues"
  | incomplete => lit "partial"

/-- The one with a given name. -/
def ofName? (t : Text) : Option Status := all.find? (·.name = t)

end Status

/-- The version that reports carry unless another one is given. It is written down apart from
the one in which saved reports are expected. -/
def Report.formatVersion : Text := lit "0.1.0"

/-- What comes out of checking a document. -/
structure Report (α : Type := Char) where
  /-- The version of the format. -/
  version : Text := Report.formatVersion
  document : Text α
  /-- When the check started. -/
  moment : Moment
  status : Status
  diagnostics : List (Diagnostic α) := []
  /-- The names of the rules that failed. -/
  failedRules : List Text := []
  /-- How long the check took, in milliseconds. -/
  duration : Binary64 := .zero
deriving DecidableEq, Repr

variable {α : Type}

namespace Report

/-- The number of errors. -/
def errorCount (r : Report α) : Nat := r.diagnostics.countP (·.severity = .error)

/-- The number of warnings. -/
def warningCount (r : Report α) : Nat := r.diagnostics.countP (·.severity = .warning)

/-- Whether reports of a version can be read: its first two parts are those of
the version that is expected. -/
def isReadable (version : Text) : Bool :=
  match version.splitOn (· == '.'), About.formatVersion.splitOn (· == '.') with
  | a :: b :: _, c :: d :: _ => a = c && b = d
  | _, _ => false

end Report

namespace Diagnostic

/-- The place of a finding as it is written in a list of findings: line and
column, counted from one, or else the offset. -/
def place (d : Diagnostic α) : Text :=
  match d.range with
  | some r => decimal (r.start.line + 1) ++ [':'] ++ decimal (r.start.column + 1)
  | none => '@' :: decimal d.start

variable [Alphabet α]

/-- The line for a finding. -/
def line (document : Text α) (d : Diagnostic α) : Text α :=
  let front := [':'] ++ d.place ++ lit ": " ++ d.severity.name ++ lit " [" ++ d.code.name ++ lit "] "
  let back := if d.fix.isSome then lit " (fix available)" else []
  document ++ (Alphabet.embed front : Text α) ++ d.message ++ (Alphabet.embed back : Text α)

theorem line_eq (document : Text) (d : Diagnostic) :
    line document d = document ++ lit ":" ++ d.place ++ lit ": " ++ d.severity.name ++ lit " [" ++
      d.code.name ++ lit "] " ++ d.message ++ if d.fix.isSome then lit " (fix available)" else [] := by
  simp only [line, Alphabet.embed_char, List.append_assoc]
  rfl

/-- The list of findings, one in a line. -/
def lines (document : Text α) (ds : List (Diagnostic α)) : Text α :=
  Text.join [Alphabet.ofChar '\n'] (ds.map (line document))

end Diagnostic

end Worksheet

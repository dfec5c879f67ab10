import Worksheet.Document
import Worksheet.Host
import Worksheet.Journal

/-!
# Taking in documents

The files that a command is called with. Those that are no HTML documents are left
alone, and those that cannot be read as a text are complained about.

* `Intake.of` tells what becomes of a file, by what reading it gave;
* `Intake.all` reads the files of a command;
* `Intake.documents`, `Intake.complaints` and `Intake.calls` are the documents to
  work on, the lines about files that cannot be read, and the calls to the journal.
  `Intake.refusal?` is the fault that keeps a command from its work.
-/

namespace Worksheet

variable {α : Type} [Alphabet α]

/-- What becomes of a file that a command is called with. -/
inductive Intake (α : Type := Char) [Alphabet α] where
  /-- A document to work on. -/
  | document (d : Document α)
  /-- A file that is no HTML document. -/
  | skipped (name : Text α)
  /-- A file that cannot be read as a text. -/
  | unread (name : Text α) (f : Fault)
  /-- A name that no file can have, with which no command goes on. -/
  | refused (f : Fault)

namespace Intake

/-- What becomes of a file, by what reading it gave. -/
def of [DecidableEq α] (s : Settings) (name : Text α) : Except FileProblem (List UInt8) → Intake α
  | .error p => if p.refuses then refused (.ofFile p name) else unread name (.ofFile p name)
  | .ok bytes =>
    match Utf8.decode bytes with
    | .error f => unread name (.notEncoded f)
    | .ok text =>
      let d : Document α := { text, name }
      if d.isHtmlLike s then document d else skipped name

/-- What becomes of files. -/
def all {m : Type → Type} [Monad m] [DecidableEq α] (h : Host m α) (s : Settings)
    (names : List (Text α)) : m (List (Intake α)) :=
  names.mapM fun name => do return of s name (← h.read name)

/-- The fault of a name that is refused. -/
def refusal? : Intake α → Option Fault
  | refused f => some f
  | _ => none

/-- What comes before the first name that is refused. -/
def accepted (is : List (Intake α)) : List (Intake α) := is.takeWhile (·.refusal?.isNone)

/-- The documents to work on. -/
def documents (is : List (Intake α)) : List (Document α) :=
  is.filterMap fun
    | document d => some d
    | _ => none

/-- Whether a file cannot be read as a text. -/
def isUnread : Intake α → Bool
  | unread .. => true
  | _ => false

/-- The line that tells that a file cannot be used, and why. Complaints show
everything. -/
def complaint (use : Text) (name : Text α) (f : Fault) : Text :=
  About.program ++ lit ": cannot " ++ use ++ [' '] ++ Alphabet.shown name ++ lit ": " ++ f.message

/-- The lines about files that cannot be read. -/
def complaints (is : List (Intake α)) : List Text :=
  is.filterMap fun
    | unread name f => some (complaint (lit "read") name f)
    | _ => none

/-- The call that tells of a file that is left alone. -/
def skippedCall (name : Text α) : Call where
  logger := Logger.ofChannel .system
  urgency := .verbose
  event := lit "document_skipped"
  fields := [(lit "document", .ofText name), (lit "reason", .text (lit "not_html"))]

/-- The calls about files that are left alone. -/
def calls (is : List (Intake α)) : List Call :=
  is.filterMap fun
    | skipped name => some (skippedCall name)
    | _ => none

end Intake

end Worksheet

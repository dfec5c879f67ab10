import Worksheet.CommandLine.Ending
import Worksheet.Correction

/-!
# Fixing files

The command that applies the corrections of documents and writes them back. All
documents are read before the first one is written. A document is told of as soon as it
is done, so that a name that cannot be printed stops the command after its file has been
written; and a file is emptied before its new text is written, so that a text that cannot
be written leaves it empty.

* `Fix.run` carries the command out;
* `Fix.apply` works on one document. What comes of it is a `Repair`.
-/

namespace Worksheet

/-- What comes of applying the corrections of a document. -/
inductive Repair (α : Type := Char) where
  /-- The line about it is printed. -/
  | told (line : Text)
  /-- It could not be written. -/
  | unwritten (name : Text α) (problem : FileProblem)
  /-- The command stops, as there is something that cannot be written. -/
  | stopped (f : Utf8.Unwritable)

namespace Repair

variable {α : Type}

/-- The line that is printed about a document. -/
def line? : Repair α → Option Text
  | told line => some line
  | _ => none

/-- Whether a document could not be written. -/
def isUnwritten : Repair α → Bool
  | unwritten .. => true
  | _ => false

/-- Why the command stops. -/
def stop? : Repair α → Option Utf8.Unwritable
  | stopped f => some f
  | _ => none

end Repair

namespace Fix

variable {m : Type → Type} [Monad m] {α : Type} [Alphabet α]

/-- What is printed about a document with a number of corrections. -/
def line (dryRun : Bool) (name : Text α) (applied : Nat) : Text α :=
  let verb := if dryRun then "would apply " else "applied "
  let fixes := if applied = 1 then " fix" else " fixes"
  name ++ (Alphabet.embed (lit ": " ++ lit verb ++ decimal applied ++ lit fixes) : Text α)

/-- Prints the line about a document. -/
def tell (dryRun : Bool) (name : Text α) (applied : Nat) : Repair α :=
  match Alphabet.narrow (line dryRun name applied) with
  | .ok t => .told t
  | .error f => .stopped f

/-- What a file holds after a text has been written to it. -/
def contents (t : Text α) : List UInt8 :=
  match Alphabet.narrow t with
  | .ok u => Utf8.encode u
  | .error _ => []

/-- Writes a document with its corrections, if there are any, and tells of it. -/
def store (h : Host m α) (dryRun : Bool) (d : Document α) (text : Text α) (applied : Nat) :
    m (Repair α) := do
  if applied ≠ 0 && !dryRun then
    match ← h.write d.name (contents text) with
    | .error p => return .unwritten d.name p
    | .ok () =>
      match Alphabet.narrow text with
      | .error f => return .stopped f
      | .ok _ => return tell dryRun d.name applied
  else return tell dryRun d.name applied

/-- Applies the corrections of a document. -/
def apply (h : Host m α) (e : Engine α) (dryRun : Bool) (d : Document α) (j : Journal) :
    m (Repair α × Journal) := do
  let (r, j) ← e.examine h d j
  let (text, applied) := Correction.applyAll (Alphabet.embed d.text) r.diagnostics
  let repair ← store h dryRun d text applied
  return (repair, j.recordAll (Correction.calls r.diagnostics))

/-- Applies the corrections of documents, one after the other, until the command has to
stop. -/
def applyAll (h : Host m α) (e : Engine α) (dryRun : Bool) :
    List (Document α) → Journal → m (List (Repair α) × Journal)
  | [], j => return ([], j)
  | d :: ds, j => do
    let (r, j) ← apply h e dryRun d j
    if r.stop?.isSome then return ([r], j)
    else
      let (rs, j) ← applyAll h e dryRun ds j
      return (r :: rs, j)

/-- The lines about documents that could not be written. -/
def complaints (rs : List (Repair α)) : List Text :=
  rs.filterMap fun
    | .unwritten name p => some (Intake.complaint (lit "write") name (.ofFile p name))
    | _ => none

/-- The number with which the command ends, if it does not stop before. -/
def exitCode (is : List (Intake α)) (rs : List (Repair α)) : Nat :=
  if is.any (·.isUnread) || rs.any (·.isUnwritten) then Ending.trouble else Ending.fine

/-- How the command ends, given what became of the files and of the documents
among them. -/
def ending (is : List (Intake α)) (rs : List (Repair α)) (j : Journal) : Ending where
  exit := match rs.findSome? (·.stop?) with
    | none => .ok (exitCode is rs)
    | some f => .error (.notWritable f)
  out := rs.filterMap (·.line?)
  err := Intake.complaints is ++ complaints rs
  journal := j

/-- Carries the command out. -/
def run [DecidableEq α] (h : Host m α) (e : Engine α) (dryRun : Bool) (names : List (Text α))
    (j : Journal) : m Ending := do
  let is ← Intake.all h e.settings names
  match is.findSome? (·.refusal?) with
  | some f => return Ending.refused is j f
  | none =>
    let (rs, j) ← applyAll h e dryRun (Intake.documents is) (j.recordAll (Intake.calls is))
    return ending is rs j

end Fix

end Worksheet

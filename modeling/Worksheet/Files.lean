import Worksheet.FileName
import Worksheet.Files.Naming
import Worksheet.Files.Problem

/-!
# Files

A tree of files without links. A name is looked up part by part from the current
directory, or from the root if it starts with a slash; two dots lead back to the
directory above.

* `FileName.refusal?` tells which names no file can have;
* `Files.resolve` finds the place that a name stands for;
* `Files.read` and `Files.write` read and replace the contents of a file, and
  `Files.holds` tells whether there is anything under a name.
-/

namespace Worksheet

/-- What keeps every file from having a name. -/
def FileName.refusal? {α : Type} [DecidableEq α] [Alphabet α] (name : Text α) : Option FileProblem :=
  match Alphabet.flaw? name with
  | some f => some (.unencodable f)
  | none => if Alphabet.ofChar '\x00' ∈ name then some .badName else none

/-- What can stand at a place of a tree. -/
inductive FileEntry where
  | file (bytes : List UInt8)
  | directory
deriving DecidableEq, Repr

/-- A tree of files, each part of whose names is known by its key. A place is given by
the parts on the way to it from the root. -/
structure Files (κ : Type := Text) where
  entries : List (List κ × FileEntry) := []
  /-- The directory from which names are looked up. -/
  current : List κ := []
  /-- The places of the files that can only be read. -/
  readOnly : List (List κ) := []

namespace Files

/-- The largest number of bytes in a part of a name. -/
def partLimit : Nat := 255

/-- The largest number of bytes in a name. -/
def nameLimit : Nat := 4095

section

variable {κ : Type} [DecidableEq κ]

/-- The entry of a place. A place on the way to another one is a directory. -/
def entryAt (fs : Files κ) (place : List κ) : Option FileEntry :=
  match fs.entries.find? (·.1 = place) with
  | some e => some e.2
  | none =>
    if place = [] ∨ fs.entries.any (place.isPrefixOf ·.1) then some .directory else none

/-- Entries with an entry for a place, where the one before stood or at the
end. -/
def putEntry (place : List κ) (e : FileEntry) :
    List (List κ × FileEntry) → List (List κ × FileEntry)
  | [] => [(place, e)]
  | (p, old) :: rest => if p = place then (p, e) :: rest else (p, old) :: putEntry place e rest

end

variable {α κ : Type} [DecidableEq α] [DecidableEq κ] [Alphabet α] [Naming α κ]

/-- The place reached from a directory by the part of a name. -/
def step (place : List κ) (part : Text α) : List κ :=
  if part = [Alphabet.ofChar '.', Alphabet.ofChar '.'] then place.dropLast
  else place ++ [Naming.key part]

/-- The place reached from another one by the parts of a name. All places before
the last are directories. -/
def walk (fs : Files κ) : List κ → List (Text α) → Except FileProblem (List κ)
  | place, [] => .ok place
  | place, part :: parts =>
    match fs.entryAt place with
    | none => .error .missing
    | some (.file _) => .error .notDirectory
    | some .directory =>
      if partLimit < (Alphabet.bytes part).length then .error .nameTooLong
      else fs.walk (step place part) parts

/-- The place that a name stands for. -/
def resolve (fs : Files κ) (name : Text α) : Except FileProblem (List κ) :=
  match FileName.refusal? name with
  | some p => .error p
  | none =>
    if nameLimit < (Alphabet.bytes name).length then .error .nameTooLong
    else fs.walk (if name.head? = some FileName.slash then [] else fs.current) (FileName.parts name)

/-- The contents of a file. -/
def read (fs : Files κ) (name : Text α) : Except FileProblem (List UInt8) := do
  match fs.entryAt (← fs.resolve name) with
  | none => throw .missing
  | some .directory => throw .isDirectory
  | some (.file bytes) => return bytes

/-- The tree with new contents of a file. -/
def write (fs : Files κ) (name : Text α) (bytes : List UInt8) : Except FileProblem (Files κ) := do
  let place ← fs.resolve name
  if place ∈ fs.readOnly then throw .readOnly
  match fs.entryAt place with
  | some .directory => throw .isDirectory
  | _ => return { fs with entries := putEntry place (.file bytes) fs.entries }

/-- Whether there is anything under a name. -/
def holds (fs : Files κ) (name : Text α) : Except FileProblem Bool :=
  match fs.resolve name with
  | .ok place => .ok (fs.entryAt place).isSome
  | .error .nameTooLong => .error .nameTooLong
  | .error _ => .ok false

end Files

end Worksheet

import Worksheet.Calendar
import Worksheet.Files
import Worksheet.Number.Binary64

/-!
# Hosts

What the program needs of the system that it runs on: files that it can read and
write, and a clock. A command is written once, for any `Host`, and so does the same
whether it runs on a real system or on `Files`.

* `Files.host` is the host whose system is a tree of files. Its clock stands still.
-/

namespace Worksheet

/-- What the program needs of the system that it runs on. The names of its files are
texts in an alphabet. -/
structure Host (m : Type → Type) (α : Type := Char) where
  /-- Reads the file with a name. -/
  read : Text α → m (Except FileProblem (List UInt8))
  /-- Replaces the contents of the file with a name. -/
  write : Text α → List UInt8 → m (Except FileProblem Unit)
  /-- Does a piece of work, and tells when it was started and how many
  milliseconds it took. -/
  timed : {β : Type} → (Unit → β) → m (β × Moment × Binary64)

/-- The host whose system is a tree of files, at a given time. A file that cannot
be written stays as it is. -/
def Files.host {α κ : Type} [DecidableEq α] [DecidableEq κ] [Alphabet α] [Naming α κ]
    (moment : Moment) : Host (StateM (Files κ)) α where
  read name := fun fs => (fs.read name, fs)
  write name bytes := fun fs =>
    match fs.write name bytes with
    | .ok fs' => (.ok (), fs')
    | .error p => (.error p, fs)
  timed work := pure (work (), moment, .zero)

end Worksheet

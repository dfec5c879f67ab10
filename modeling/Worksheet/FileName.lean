import Worksheet.Alphabet

/-!
# File names

Names of files with `/` between their parts. A part that is empty or a single
dot says nothing and is left out.

* `FileName.normal` is a name without such parts;
* `FileName.last` is the last part of a name, and `FileName.stem` this part
  without its extension.
-/

namespace Worksheet.FileName

open Alphabet

variable {α : Type} [DecidableEq α] [Alphabet α]

/-- What stands between the parts of a name. -/
def slash : α := ofChar '/'

/-- The parts of a name that say something. -/
def parts (t : Text α) : List (Text α) :=
  (t.splitOn (· == slash)).filter fun p => !(p.isEmpty || p == [ofChar '.'])

/-- The slashes with which an absolute name starts: two of them are kept, but
more count as one. -/
def root (t : Text α) : Text α :=
  match (t.takeWhile (· == slash)).length with
  | 0 => []
  | 2 => [slash, slash]
  | _ => [slash]

/-- The name without the parts that say nothing; an empty name becomes a dot. -/
def normal (t : Text α) : Text α :=
  match root t ++ Text.join [slash] (parts t) with
  | [] => [ofChar '.']
  | name => name

/-- The last part of a name. -/
def last (t : Text α) : Text α := (parts t).getLastD []

/-- A part of a name without its extension, which starts at the last dot, unless
this is the first or the last character. -/
def withoutExtension (part : Text α) : Text α :=
  let extension := part.reverse.takeWhile (· != ofChar '.')
  let before := part.length - extension.length - 1
  if extension.length < part.length ∧ 0 < before ∧ extension ≠ [] then part.take before
  else part

/-- The last part of a name without its extension. -/
def stem (t : Text α) : Text α := withoutExtension (last t)

end Worksheet.FileName

import Worksheet.Text.Pieces
import Worksheet.Yaml.Characters

/-!
# Sources of YAML

The text of a file as far as it can be read. Portions are taken from the file one
after another as they are needed, the first two of them at once, and a portion with
a character that may not stand in a text is no good. So what is wrong with a later
part of a file does not show if reading fails before.

* `Source.ofBytes` gives the source with the bytes of a file.
-/

namespace Worksheet.Yaml

/-- The text of a file as far as it can be read. -/
structure Source where
  text : Text
  /-- Why there is no more of the text; otherwise it is at its end. -/
  cut : Option Failure := none

namespace Source

/-- A source of which nothing can be read. -/
def unreadable (f : Failure) : Source := { text := [], cut := some f }

/-- A source with a part of the text in front. -/
def after (t : Text) (s : Source) : Source :=
  if t.all isAllowed then { s with text := t ++ s.text } else unreadable .broken

/-- The source of the portions that are left. -/
def ofPieces : (fuel : Nat) → Pieces → Source
  | 0, _ => { text := [] }
  | fuel + 1, p =>
    match p.portion with
    | .error f => unreadable (.fault (.notEncoded f))
    | .ok ([], _) => { text := [] }
    | .ok (t, p) => after t (ofPieces fuel p)

/-- The source with the bytes of a file. -/
def ofBytes (bs : List UInt8) : Source :=
  let start : Pieces := { bytes := bs }
  let both := do
    let (t, p) ← start.portion
    let (u, p) ← p.portion
    return (t ++ u, p)
  match both with
  | .error f => unreadable (.fault (.notEncoded f))
  | .ok (t, p) => after t (ofPieces (bs.length + 1) p)

end Source

end Worksheet.Yaml

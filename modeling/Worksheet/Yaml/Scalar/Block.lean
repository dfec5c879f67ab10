import Worksheet.Yaml.Characters

/-!
# Block scalars

A block scalar is the lines below a mark that are indented deeper than what is
around it. Its header says whether the breaks at its end are kept, cut down to
one or dropped, and possibly how deep it is indented; otherwise this is seen from
its first line. In a folded scalar the break between two lines that do not start
with a blank counts as a blank.
-/

namespace Worksheet.Yaml.Block

/-- What becomes of the breaks at the end of a scalar. -/
inductive Ending where
  /-- All of them stay. -/
  | keep
  /-- The first of them stays. -/
  | one
  /-- None of them stays. -/
  | drop
deriving DecidableEq, Repr

/-- The header of a scalar. -/
structure Header where
  ending : Ending := .one
  /-- How much deeper it is indented than what is around it. -/
  depth : Option Nat := none

/-- The mark for what becomes of the breaks at the end. -/
def endingOf? : Char → Option Ending
  | '+' => some .keep
  | '-' => some .drop
  | _ => none

/-- The mark for the depth; zero is no depth. -/
def depthOf? (c : Char) : Option Nat :=
  if isAsciiDigit c then some (c.toNat - '0'.toNat) else none

/-- The marks of a header in either order, and the rest. -/
def marks (t : Text) : Header × Text :=
  match t with
  | [] => ({}, [])
  | c :: cs =>
    match endingOf? c, depthOf? c, cs with
    | some ending, _, d :: rest =>
      match depthOf? d with
      | some depth => ({ ending, depth := some depth }, rest)
      | none => ({ ending }, cs)
    | some ending, _, [] => ({ ending }, [])
    | none, some depth, d :: rest =>
      match endingOf? d with
      | some ending => ({ ending, depth := some depth }, rest)
      | none => ({ depth := some depth }, cs)
    | none, some depth, [] => ({ depth := some depth }, [])
    | none, none, _ => ({}, c :: cs)

/-- The text after a comment, if there is one. -/
def skipComment (t : Text) : Text :=
  match t.dropWhile (· == ' ') with
  | '#' :: rest => rest.dropWhile (!isBreak ·)
  | rest => rest

/-- The header of a scalar and the lines after it. -/
def header (t : Text) : Except Failure (Header × Text) :=
  let (h, rest) := marks t
  if h.depth = some 0 ∨ !endsTag rest then .error .broken
  else
    match skipComment rest with
    | [] => .ok (h, [])
    | c :: cs => if isBreak c then .ok (h, cs) else .error .broken

/-- Lines without text, up to the first character that is no blank or that stands
at the column `indent`: their breaks, the column and the rest. -/
def emptyLines (indent column : Nat) : Text → Text × Nat × Text
  | [] => ([], column, [])
  | c :: cs =>
    if c = ' ' ∧ column < indent then emptyLines indent (column + 1) cs
    else if isBreak c then
      let r := emptyLines indent 0 cs
      (breakValue c :: r.1, r.2)
    else ([], column, c :: cs)

/-- Lines of blanks only, up to the first other character: their breaks, the
largest column that blanks reach, the column of this character and the rest. -/
def leadingLines (deepest column : Nat) : Text → Text × Nat × Nat × Text
  | [] => ([], deepest, column, [])
  | c :: cs =>
    if c = ' ' then leadingLines (max deepest (column + 1)) (column + 1) cs
    else if isBreak c then
      let r := leadingLines deepest 0 cs
      (breakValue c :: r.1, r.2)
    else ([], deepest, column, c :: cs)

/-- Whether a line starts with a character that is no blank. -/
def startsDense : Text → Bool
  | c :: _ => !isGap c
  | [] => false

/-- What is read of a scalar: its text but for the breaks at its end, the first
of these and the others, and what comes after it. -/
structure Body where
  text : Text
  first : Text
  others : Text
  rest : Text

/-- The lines of a scalar from one that starts at the column `indent`, after the
breaks before it. -/
def lines (fold : Bool) (indent : Nat) : (fuel : Nat) → (breaks : Text) → Text → Body
  | 0, breaks, t => ⟨[], [], breaks, t⟩
  | fuel + 1, breaks, t =>
    let line := t.takeWhile (!isBreak ·)
    match t.dropWhile (!isBreak ·) with
    | [] => ⟨breaks ++ line, [], [], []⟩
    | c :: cs =>
      let (next, column, rest) := emptyLines indent 0 cs
      if column = indent ∧ rest ≠ [] then
        let joint :=
          if fold && breakValue c == '\n' && startsDense t && startsDense rest then
            (if next = [] then [' '] else [])
          else [breakValue c]
        let body := lines fold indent fuel next rest
        { body with text := breaks ++ line ++ joint ++ body.text }
      else ⟨breaks ++ line, [breakValue c], next, rest⟩

/-- The scalar after its mark, and the rest; what is around it is indented to the
column `parent`, or not at all. -/
def read (fold : Bool) (parent : Int) (t : Text) : Except Failure (Text × Text) := do
  let (h, t) ← header t
  let least := (max 1 (parent + 1)).toNat
  let (breaks, indent, column, rest) := match h.depth with
    | none =>
      let r := leadingLines 0 0 t
      (r.1, max least r.2.1, r.2.2)
    | some depth =>
      let indent := least + depth - 1
      let r := emptyLines indent 0 t
      (r.1, indent, r.2)
  let body :=
    if column = indent ∧ rest ≠ [] then lines fold indent (rest.length + 1) breaks rest
    else ⟨[], [], breaks, rest⟩
  let ending := match h.ending with
    | .keep => body.first ++ body.others
    | .one => body.first
    | .drop => []
  return (body.text ++ ending, body.rest)

end Worksheet.Yaml.Block

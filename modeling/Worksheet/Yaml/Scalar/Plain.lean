import Worksheet.Yaml.Characters

/-!
# Plain scalars

A scalar without quotes goes on until a colon or a comment, and in brackets until
a comma or a bracket. It may go on in further lines, as long as they are indented
deeply enough; the break between two lines counts as a blank, and of several
breaks the first does not count.
-/

namespace Worksheet.Yaml.Plain

/-- A character that ends a plain scalar within brackets. -/
def isFlowMark (c : Char) : Bool := (lit ",?[]\x7b\x7d").contains c

/-- Whether a colon is followed by something that makes it the end of a key. -/
def endsKey (inFlow : Bool) (rest : Text) : Bool :=
  endsWord rest ||
    match rest with
    | c :: _ => inFlow && (lit ",[]\x7b\x7d").contains c
    | [] => true

/-- Whether a scalar ends before a character. -/
def stops (inFlow : Bool) (c : Char) (rest : Text) : Bool :=
  isGap c || isBreak c || (c == ':' && endsKey inFlow rest) || (inFlow && isFlowMark c)

/-- The characters up to the end of the scalar or the next blank, and the rest. -/
def word (inFlow : Bool) : Text → Text × Text
  | [] => ([], [])
  | c :: cs =>
    if stops inFlow c cs then ([], c :: cs)
    else
      let r := word inFlow cs
      (c :: r.1, r.2)

/-- What stands between two words. -/
structure Space where
  /-- What it counts as; it is empty if the scalar cannot go on. -/
  text : Text
  rest : Text
  /-- Whether it reaches into another line. -/
  broken : Bool
  /-- The column at which it ends in this line. -/
  column : Nat := 0

/-- The breaks of empty lines and the blanks before the first character after
them: the breaks, whether a line that separates documents made an end, the column
and the rest. -/
def emptyLines (column : Nat) : Text → Text × Bool × Nat × Text
  | [] => ([], false, column, [])
  | c :: cs =>
    if c = ' ' then emptyLines (column + 1) cs
    else if isBreak c then
      if separatesDocuments cs then ([], true, 0, cs)
      else
        let r := emptyLines 0 cs
        (breakValue c :: r.1, r.2)
    else ([], false, column, c :: cs)

/-- What a break and the breaks of empty lines after it count as. -/
def folded (first : Char) (more : Text) : Text :=
  if breakValue first ≠ '\n' then breakValue first :: more
  else if more = [] then [' '] else more

/-- The space at the start of a text. -/
def space (t : Text) : Space :=
  let blanks := t.takeWhile (· == ' ')
  match t.dropWhile (· == ' ') with
  | [] => ⟨blanks, [], false, 0⟩
  | c :: cs =>
    if !isBreak c then ⟨blanks, c :: cs, false, 0⟩
    else if separatesDocuments cs then ⟨[], cs, true, 0⟩
    else
      let (breaks, separated, column, rest) := emptyLines 0 cs
      ⟨if separated then [] else folded c breaks, rest, true, column⟩

/-- Whether a text goes on with a comment. -/
def atComment (t : Text) : Bool := t.head? == some '#'

/-- A scalar, the rest, and whether the rest starts in another line than the last
word of the scalar. Further lines are indented to the column `indent` at
least. -/
def read (inFlow : Bool) (indent : Int) : (fuel : Nat) → (broken : Bool) → Text →
    Text × Text × Bool
  | 0, broken, t => ([], t, broken)
  | fuel + 1, broken, t =>
    match word inFlow t with
    | ([], _) => ([], t, broken)
    | (w, after) =>
      let s := space after
      if s.text = [] || atComment s.rest || (!inFlow && s.broken && s.column < indent) then
        (w, s.rest, s.broken)
      else
        match read inFlow indent fuel s.broken s.rest with
        | ([], r) => (w, r)
        | (more, r) => (w ++ s.text ++ more, r)

end Worksheet.Yaml.Plain

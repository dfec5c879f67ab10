import Worksheet.Yaml.Scalar.Plain

/-!
# Quoted scalars

A scalar in single quotes holds a quote by writing it twice; in double quotes
there are escapes, which can also stand for codes that no character has. Both may
go on in further lines, whatever their indentation; breaks and the blanks around
them are folded as in plain scalars, and a break after a backslash is left out.
-/

namespace Worksheet.Yaml.Quoted

/-- The breaks of empty lines and the blanks up to the first character after
them, and the rest; `start` tells whether a line starts here. -/
def emptyLines (start : Bool) : Text → Except Failure (Text × Text)
  | [] => .ok ([], [])
  | c :: cs =>
    if start && separatesDocuments (c :: cs) then .error .broken
    else if isGap c then emptyLines false cs
    else if isBreak c then do
      let r ← emptyLines true cs
      return (breakValue c :: r.1, r.2)
    else .ok ([], c :: cs)

/-- The characters that are written by a backslash and one character. -/
def escape? : Char → Option Char
  | '0' => some '\x00'
  | 'a' => some '\x07'
  | 'b' => some '\x08'
  | 't' => some '\t'
  | '\t' => some '\t'
  | 'n' => some '\n'
  | 'v' => some '\x0b'
  | 'f' => some '\x0c'
  | 'r' => some '\r'
  | 'e' => some '\x1b'
  | ' ' => some ' '
  | '"' => some '"'
  | '\\' => some '\\'
  | '/' => some '/'
  | 'N' => some '\x85'
  | '_' => some '\xA0'
  | 'L' => some '\u2028'
  | 'P' => some '\u2029'
  | _ => none

/-- The number of hexadecimal digits after a backslash and a character. -/
def codeWidth? : Char → Option Nat
  | 'x' => some 2
  | 'u' => some 4
  | 'U' => some 8
  | _ => none

/-- The code that is given by hexadecimal digits. -/
def codeOf (digits : Text) : Except Failure Nat :=
  let n := baseValue 16 digits
  if 0x110000 ≤ n then .error (.fault (.noCharacter n)) else .ok n

/-- The codes of a text. -/
def codesOf (t : Text) : List Nat := t.map Char.toNat

/-- What a backslash and the text after it stand for, and the rest. -/
def escaped (t : Text) : Except Failure (List Nat × Text) :=
  match t with
  | [] => .error .unfinished
  | c :: cs =>
    match escape? c, codeWidth? c with
    | some e, _ => .ok ([e.toNat], cs)
    | none, some width =>
      let digits := (cs.take width).takeWhile fun d => (hexValue? d).isSome
      if digits.length = width then do return ([← codeOf digits], cs.drop width)
      else .error (.before (cs.drop digits.length))
    | none, none =>
      if isBreak c then do
        let (breaks, rest) ← emptyLines true cs
        return (codesOf breaks, rest)
      else .error .broken

/-- What blanks and breaks at the start of a text stand for, and the rest. -/
def space (t : Text) : Except Failure (Text × Text) :=
  match t.dropWhile isGap with
  | [] => .error .unfinished
  | c :: cs =>
    if isBreak c then do
      let r ← emptyLines true cs
      return (Plain.folded c r.1, r.2)
    else .ok (t.takeWhile isGap, c :: cs)

/-- The codes of a scalar up to the quote that ends it, and the rest. -/
def read (double : Bool) : (fuel : Nat) → Text → Except Failure (List Nat × Text)
  | 0, _ => .error .broken
  | _ + 1, [] => .error .unfinished
  | fuel + 1, c :: cs => do
    if c = '\'' ∧ !double then
      match cs with
      | '\'' :: rest =>
        let r ← read double fuel rest
        return ('\''.toNat :: r.1, r.2)
      | _ => return ([], cs)
    else if c = '"' ∧ double then return ([], cs)
    else
      let (part, rest) ←
        if c = '\\' ∧ double then escaped cs
        else if isGap c || isBreak c then do
          let (gap, rest) ← space (c :: cs)
          pure (codesOf gap, rest)
        else pure ([c.toNat], cs)
      let r ← read double fuel rest
      return (part ++ r.1, r.2)

end Worksheet.Yaml.Quoted

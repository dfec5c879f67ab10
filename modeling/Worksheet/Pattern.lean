import Worksheet.Text
import Worksheet.Text.Case

/-!
# Patterns

A pattern describes texts, and the order in which the ways to read one at a
given place are tried: `Pattern.ends` lists the places where a reading can end,
the preferred one first. On top of it stand

* `Pattern.matchAt`, the preferred reading at one place;
* `Pattern.find?`, the first place that has a reading;
* `Pattern.scan`, all readings from left to right that do not overlap.

A reading is a `Match`: it carries the offset where it starts, the text that was
read and the texts of the groups of the pattern.
-/

namespace Worksheet

/-- What a piece of text may look like. -/
inductive Pattern where
  /-- The empty text. -/
  | empty
  /-- One character of a class. -/
  | char (p : Char → Bool)
  /-- One text and then another. -/
  | seq (a b : Pattern)
  /-- One of two texts; the first is preferred. -/
  | either (a b : Pattern)
  /-- Characters of a class, any number of them; as many as possible are
  preferred. -/
  | most (p : Char → Bool)
  /-- Characters of a class, any number of them; as few as possible are
  preferred. -/
  | fewest (p : Char → Bool)
  /-- A text that is remembered. -/
  | group (a : Pattern)

/-- A place in a text: the offset, what is still to be read, and the spans of
the groups that have been read so far. -/
structure Cursor where
  offset : Nat
  rest : Text
  groups : List (Nat × Nat) := []

namespace Cursor

/-- The places reached by reading zero, one, two, … characters of a class. -/
def run (p : Char → Bool) (groups : List (Nat × Nat)) : Nat → Text → List Cursor
  | n, [] => [⟨n, [], groups⟩]
  | n, c :: cs => ⟨n, c :: cs, groups⟩ :: if p c then run p groups (n + 1) cs else []

/-- The place after one character of a class. -/
def next? (k : Cursor) (p : Char → Bool) : List Cursor :=
  match k.rest with
  | [] => []
  | c :: cs => if p c then [⟨k.offset + 1, cs, k.groups⟩] else []

end Cursor

namespace Pattern

/-! ## Building patterns -/

/-- At least one character of a class; as many as possible are preferred. -/
def oneOrMore (p : Char → Bool) : Pattern := seq (char p) (most p)

/-- A given text. -/
def exactly (t : Text) : Pattern := t.foldr (fun x r => seq (char (· == x)) r) empty

/-- A given text, written with small letters, in any case. -/
def anyCase (t : Text) : Pattern := t.foldr (fun x r => seq (char (isLetter x)) r) empty

/-- Several patterns, one after another. -/
def all (ps : List Pattern) : Pattern := ps.foldr seq empty

/-! ## Reading -/

/-- The places where a reading that starts at `k` can end, the preferred one
first. -/
def ends : Pattern → Cursor → List Cursor
  | empty, k => [k]
  | char p, k => k.next? p
  | seq a b, k => (a.ends k).flatMap b.ends
  | either a b, k => a.ends k ++ b.ends k
  | most p, k => (Cursor.run p k.groups k.offset k.rest).reverse
  | fewest p, k => Cursor.run p k.groups k.offset k.rest
  | group a, k => (a.ends k).map fun e => { e with groups := e.groups ++ [(k.offset, e.offset)] }

end Pattern

/-- A reading of a pattern in a text. -/
structure Match where
  start : Nat
  text : Text
  groups : List Text
deriving DecidableEq, Repr

namespace Match

/-- The offset just past the text that was read. -/
def stop (m : Match) : Nat := m.start + m.text.length

/-- The text of the group with the given number, counted from zero. -/
def group (m : Match) (i : Nat) : Text := m.groups.getD i []

end Match

namespace Pattern

/-- The preferred reading at offset `n`, where the text goes on with `rest`. -/
def matchAt (p : Pattern) (n : Nat) (rest : Text) : Option Match :=
  (p.ends ⟨n, rest, []⟩).head?.map fun e =>
    { start := n
      text := rest.take (e.offset - n)
      groups := e.groups.map fun g => Text.slice rest (g.1 - n) (g.2 - n) }

/-- The first reading in a text that goes on with `rest` at offset `n`. -/
def findFrom (p : Pattern) : Nat → Text → Option Match
  | n, [] => p.matchAt n []
  | n, c :: cs =>
    match p.matchAt n (c :: cs) with
    | some m => some m
    | none => findFrom p (n + 1) cs

/-- The first reading in a text. -/
def find? (p : Pattern) (t : Text) : Option Match := p.findFrom 0 t

/-- The readings in a text that goes on with `rest` at offset `n`, when the next
`skip` characters belong to a reading that was found before. A reading of the
empty text does not count. -/
def scanFrom (p : Pattern) : (skip n : Nat) → Text → List Match
  | _, _, [] => []
  | skip + 1, n, _ :: cs => scanFrom p skip (n + 1) cs
  | 0, n, c :: cs =>
    match p.matchAt n (c :: cs) with
    | none => scanFrom p 0 (n + 1) cs
    | some m =>
      if m.text = [] then scanFrom p 0 (n + 1) cs
      else m :: scanFrom p (m.text.length - 1) (n + 1) cs

/-- The readings in a text from left to right; the search for the next one goes
on where the last one ended. -/
def scan (p : Pattern) (t : Text) : List Match := p.scanFrom 0 0 t

end Pattern

end Worksheet

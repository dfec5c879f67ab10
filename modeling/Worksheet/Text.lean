/-!
# Texts

A text is the list of its characters, so that every offset, column and length
counts characters. This module holds the operations on texts that the rest of
the library is written with:

* `slice` and `cut` take a part of a text, by offsets that count from the
  front, or also from the back;
* `window` and `padded` widen a span on both sides;
* `offsetOf?`, `includes` and `replaceFirst` look for one text in another;
* `splitOn`, `afterLast` and `join` take texts apart and put them together.
-/

namespace Worksheet

/-- A text is the list of its characters. Names of files can hold more than
characters, and are texts in a larger alphabet. -/
abbrev Text (α : Type := Char) := List α

/-- The text of a string literal. -/
abbrev lit (s : String) : Text := s.toList

namespace Text

/-! ## Parts of a text -/

/-- The characters from offset `a` up to offset `b`, which is not included. -/
def slice (t : Text) (a b : Nat) : Text := (t.take b).drop a

/-- The offset that `i` stands for: a negative one counts from the end. -/
def resolve (t : Text) (i : Int) : Nat :=
  if i < 0 then (t.length + i).toNat else i.toNat

/-- The characters between two offsets that may count from the end. -/
def cut (t : Text) (a b : Int) : Text := t.slice (t.resolve a) (t.resolve b)

/-- The span `[a, b)` widened by `padding` on each side, but not beyond the
two ends of the text. -/
def padded (t : Text) (a b padding : Int) : Int × Int :=
  (max 0 (a - padding), min t.length (b + padding))

/-- The characters within `radius` of the span `[a, b)`, with the offset at
which they start. -/
def window (t : Text) (a b radius : Int) : Int × Text :=
  let w := t.padded a b radius
  (w.1, t.cut w.1 w.2)

section

variable {α : Type}

/-! ## Looking for a text -/

/-- The offset of the first occurrence of `needle` in a text. -/
def offsetOf? [DecidableEq α] (needle : Text α) : Text α → Option Nat
  | [] => if needle = [] then some 0 else none
  | c :: cs =>
    if needle.isPrefixOf (c :: cs) then some 0 else (offsetOf? needle cs).map (· + 1)

/-- Whether `needle` occurs in the text. -/
def includes [DecidableEq α] (t needle : Text α) : Bool := (offsetOf? needle t).isSome

/-- The text with the first occurrence of `old` replaced. -/
def replaceFirst [DecidableEq α] (t old new : Text α) : Text α :=
  match offsetOf? old t with
  | none => t
  | some i => t.take i ++ new ++ t.drop (i + old.length)

/-! ## Taking apart and putting together -/

/-- The parts between the characters that satisfy `p`; there is always at least
one part. -/
def splitOn (p : α → Bool) : Text α → List (Text α)
  | [] => [[]]
  | c :: cs =>
    if p c then [] :: splitOn p cs
    else match splitOn p cs with
      | [] => [[c]]
      | part :: parts => (c :: part) :: parts

/-- The part after the last character that satisfies `p`, or all of the text. -/
def afterLast (p : α → Bool) (t : Text α) : Text α := (splitOn p t).getLastD []

/-- The texts one after another, with `separator` between them. -/
def join (separator : Text α) (parts : List (Text α)) : Text α := separator.intercalate parts

end

/-- The text without the characters at both ends that satisfy `p`. -/
def trim (p : Char → Bool) (t : Text) : Text :=
  ((t.dropWhile p).reverse.dropWhile p).reverse

/-- Whether one text comes before another in the order of their code points. -/
def before : Text → Text → Bool
  | _, [] => false
  | [], _ :: _ => true
  | a :: s, b :: t => if a = b then before s t else a < b

end Text

end Worksheet

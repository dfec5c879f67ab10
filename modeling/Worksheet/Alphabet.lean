import Worksheet.Text.Case
import Worksheet.Text.Quoted
import Worksheet.Text.Utf8

/-!
# Alphabets

The name of a file is a string of bytes, and these need not be a text. A name is
therefore a text in an alphabet that has all characters and possibly more, and so is
everything in which a name can occur: findings, corrected texts and lines of output.
Characters alone are such an alphabet, which is meant where no other one is named.

* `Alphabet.embed` takes a text of characters for one in an alphabet, and
  `Alphabet.narrow` gives the characters back, if there is nothing else in a text;
* `Alphabet.flaw?` tells what keeps files from having a name, and `Alphabet.bytes`
  which bytes a name stands for;
* `Alphabet.shown` and `Alphabet.quoted` write everything that is no character as an
  escape.
-/

namespace Worksheet

/-- What names of files are made of: all characters, and possibly more. -/
class Alphabet (α : Type) where
  /-- A character as an element of the alphabet. -/
  ofChar : Char → α
  /-- A text of characters. -/
  embed : Text → Text α
  /-- The codes of what a text is made of. -/
  codes : Text α → List Nat
  /-- The characters of a text, or else what in it cannot be written. -/
  narrow : Text α → Except Utf8.Unwritable Text
  /-- The text in small letters. -/
  lower : Text α → Text α
  /-- The part of a name that stands for no bytes. No file can have such a name. -/
  flaw? : Text α → Option Utf8.Unwritable
  /-- The bytes that a name stands for. -/
  bytes : Text α → List UInt8
  embed_eq_map (t : Text) : embed t = t.map ofChar
  narrow_eq_ok_iff {t : Text α} {u : Text} : narrow t = .ok u ↔ t = embed u
  lower_embed (t : Text) : lower (embed t) = embed t.lower
  flaw?_embed (t : Text) : flaw? (embed t) = none
  bytes_embed (t : Text) : bytes (embed t) = Utf8.encode t

/-- Characters alone. -/
@[default_instance]
instance : Alphabet Char where
  ofChar c := c
  embed t := t
  codes t := t.map Char.toNat
  narrow t := .ok t
  lower := Text.lower
  flaw? _ := none
  bytes := Utf8.encode
  embed_eq_map t := (List.map_id t).symm
  narrow_eq_ok_iff := ⟨Except.ok.inj, congrArg Except.ok⟩
  lower_embed _ := rfl
  flaw?_embed _ := rfl
  bytes_embed _ := rfl

namespace Alphabet

@[simp] theorem ofChar_char (c : Char) : (ofChar c : Char) = c := rfl

@[simp] theorem embed_char (t : Text) : (embed t : Text Char) = t := rfl

variable {α : Type} [Alphabet α]

/-- A code as it is shown: a character as itself, and other codes as escapes. -/
def shownCode (n : Nat) : Text :=
  match charOf? n with
  | some c => [c]
  | none => '\\' :: 'u' :: hexDigits 4 n

/-- A text with escapes for everything that is no character. -/
def shown (t : Text α) : Text :=
  match narrow t with
  | .ok u => u
  | .error _ => (codes t).flatMap shownCode

/-- A text between quotes. -/
def quoted (t : Text α) : Text :=
  match narrow t with
  | .ok u => u.quoted
  | .error _ => quotedCodes (codes t)

end Alphabet

end Worksheet

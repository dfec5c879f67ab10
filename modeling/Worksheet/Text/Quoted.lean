import Worksheet.Text
import Worksheet.Text.Digit
import Worksheet.Text.Printable

/-!
# Quoted texts

The form in which a text is shown inside a message, so that its ends and its
invisible characters can be seen: between single quotes, or between double
quotes if it holds single quotes only. A quote that ends the text, a backslash
and every character that is not printable are written as escapes.
-/

namespace Worksheet

/-- The quote that goes around a text. -/
def quoteFor (t : Text) : Char :=
  if '\'' ∈ t ∧ '"' ∉ t then '"' else '\''

/-- A character inside quotes. -/
def quotedChar (quote c : Char) : Text :=
  if c = quote || c = '\\' then ['\\', c]
  else if c = '\n' then ['\\', 'n']
  else if c = '\r' then ['\\', 'r']
  else if c = '\t' then ['\\', 't']
  else if isPrintable c then [c]
  else if c.toNat < 0x100 then '\\' :: 'x' :: hexDigits 2 c.toNat
  else if c.toNat < 0x10000 then '\\' :: 'u' :: hexDigits 4 c.toNat
  else '\\' :: 'U' :: hexDigits 8 c.toNat

/-- The character with a code, if there is one. -/
def charOf? (n : Nat) : Option Char := if n.isValidChar then some (Char.ofNat n) else none

/-- A text between quotes. -/
def Text.quoted (t : Text) : Text :=
  let quote := quoteFor t
  quote :: (t.flatMap (quotedChar quote) ++ [quote])

/-- A code inside quotes. -/
def quotedCode (quote : Char) (n : Nat) : Text :=
  match charOf? n with
  | some c => quotedChar quote c
  | none => '\\' :: 'u' :: hexDigits 4 n

/-- A text between quotes that is given by the codes of its characters. -/
def quotedCodes (cs : List Nat) : Text :=
  let quote := quoteFor (cs.filterMap charOf?)
  quote :: (cs.flatMap (quotedCode quote) ++ [quote])

/-- What stands for a code that belongs to no character. -/
def replacement : Char := '\uFFFD'

/-- Whether a code is the first or the second half of a pair that stands for one
character beyond the first 65536. -/
def isHighHalf (n : Nat) : Bool := 0xD800 ≤ n && n < 0xDC00
def isLowHalf (n : Nat) : Bool := 0xDC00 ≤ n && n < 0xE000

/-- The text with given codes of its characters. Two halves of a pair become one
character, and a half alone is replaced. -/
def Text.ofCodes : List Nat → Text
  | [] => []
  | [n] => [(charOf? n).getD replacement]
  | high :: low :: cs =>
    if isHighHalf high && isLowHalf low then
      Char.ofNat (0x10000 + (high - 0xD800) * 0x400 + (low - 0xDC00)) :: ofCodes cs
    else (charOf? high).getD replacement :: ofCodes (low :: cs)

/-- A byte inside quotes. -/
def quotedByte (quote : Char) (b : UInt8) : Text :=
  if 0x20 ≤ b && b < 0x7F then quotedChar quote (Char.ofNat b.toNat)
  else if b = 9 then ['\\', 't']
  else if b = 10 then ['\\', 'n']
  else if b = 13 then ['\\', 'r']
  else '\\' :: 'x' :: hexDigits 2 b.toNat

/-- A string of bytes between quotes, marked by a `b`. -/
def quotedBytes (bs : List UInt8) : Text :=
  let quote := quoteFor (bs.map fun b => Char.ofNat b.toNat)
  'b' :: quote :: (bs.flatMap (quotedByte quote) ++ [quote])

end Worksheet

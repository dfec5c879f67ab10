import Worksheet.Json
import Worksheet.Number.Shortest

/-!
# Writing JSON

`JsonStyle.write` writes a value on one line, or with every element and every
member on a line of its own; empty lists and objects stay on one line. A style
also says whether characters beyond ASCII are written as escapes, and how
floating-point numbers look.
-/

namespace Worksheet

/-- How JSON texts are written. -/
structure JsonStyle where
  /-- The number of blanks by which a level is indented; without it, all is
  written on one line. -/
  indent : Option Nat := none
  /-- Whether there is a blank after a comma on a line. -/
  spaced : Bool := false
  /-- Whether only printable ASCII characters are written as themselves. -/
  asciiOnly : Bool := false
  floats : FloatFormat

namespace JsonStyle

/-- An escape of four hexadecimal digits. -/
def unicodeEscape (n : Nat) : Text := '\\' :: 'u' :: hexDigits 4 n

/-- A character within a text. -/
def escaped (s : JsonStyle) (c : Char) : Text :=
  match c with
  | '"' => ['\\', '"']
  | '\\' => ['\\', '\\']
  | '\n' => ['\\', 'n']
  | '\r' => ['\\', 'r']
  | '\t' => ['\\', 't']
  | '\x08' => ['\\', 'b']
  | '\x0c' => ['\\', 'f']
  | _ =>
    if c.toNat < 0x20 then unicodeEscape c.toNat
    else if !s.asciiOnly || c.toNat < 0x7F then [c]
    else if c.toNat < 0x10000 then unicodeEscape c.toNat
    else
      let n := c.toNat - 0x10000
      unicodeEscape (0xD800 + n / 0x400) ++ unicodeEscape (0xDC00 + n % 0x400)

/-- A text between quotes. -/
def quoted (s : JsonStyle) (t : Text) : Text := '"' :: (t.flatMap s.escaped ++ ['"'])

/-- A code within a text. -/
def escapedCode (s : JsonStyle) (n : Nat) : Text :=
  match charOf? n with
  | some c => s.escaped c
  | none => unicodeEscape n

/-- A text between quotes that is given by the codes of its characters. -/
def quotedCodes (s : JsonStyle) (cs : List Nat) : Text := '"' :: (cs.flatMap s.escapedCode ++ ['"'])

/-- A new line at a level, if there are to be lines. -/
def newline (s : JsonStyle) (level : Nat) : Text :=
  match s.indent with
  | none => []
  | some n => '\n' :: List.replicate (n * level) ' '

/-- What stands between two elements. -/
def comma (s : JsonStyle) (level : Nat) : Text :=
  ',' :: (if s.spaced then [' '] else []) ++ s.newline level

/-- What stands between a name and its value. -/
def colon (s : JsonStyle) : Text :=
  if s.indent.isSome || s.spaced then [':', ' '] else [':']

mutual

/-- A value at a level. -/
def writeAt (s : JsonStyle) (level : Nat) : Json → Text
  | .null => lit "null"
  | .bool b => if b then lit "true" else lit "false"
  | .int i => signedDecimal i
  | .real x => s.floats.write x
  | .text t => s.quoted t
  | .codes cs => s.quotedCodes cs
  | .list [] => ['[', ']']
  | .list (v :: vs) =>
    '[' :: (s.newline (level + 1) ++ s.writeAt (level + 1) v ++ s.writeElements (level + 1) vs ++
      s.newline level ++ [']'])
  | .object [] => ['\x7b', '\x7d']
  | .object ((n, v) :: ms) =>
    '\x7b' :: (s.newline (level + 1) ++ s.quoted n ++ s.colon ++ s.writeAt (level + 1) v ++
      s.writeMembers (level + 1) ms ++ s.newline level ++ ['\x7d'])

/-- The elements of a list after the first. -/
def writeElements (s : JsonStyle) (level : Nat) : List Json → Text
  | [] => []
  | v :: vs => s.comma level ++ s.writeAt level v ++ s.writeElements level vs

/-- The members of an object after the first. -/
def writeMembers (s : JsonStyle) (level : Nat) : List (Text × Json) → Text
  | [] => []
  | (n, v) :: ms =>
    s.comma level ++ s.quoted n ++ s.colon ++ s.writeAt level v ++ s.writeMembers level ms

end

/-- A value as a text. -/
def write (s : JsonStyle) (v : Json) : Text := s.writeAt 0 v

end JsonStyle

end Worksheet

import Worksheet.Fault
import Worksheet.Text.Blank

/-!
# Reading and writing decimal numbers

Numbers are read and written only up to `digitLimit` decimal digits.

* `readDigits` reads a run of digits;
* `writeInteger` writes an integer;
* `zeroPad` writes an integer in at least the given width, the way image files
  are numbered;
* `readInteger` reads a whole number as a person may write it: with blanks
  around it, a sign, and single low lines between its digits.
-/

namespace Worksheet

/-- The number that a run of decimal digits stands for, if it is not too long;
leading zeros count. -/
def readDigits (ds : Text) : Except Fault Nat :=
  if ds.length ≤ digitLimit then .ok (digitsValue ds) else .error (.tooManyDigits ds.length)

/-- The smallest number that is too long to be written. -/
def writeLimit : Nat := Nat.pow 10 digitLimit

/-- An integer in decimal digits, if it is not too long. -/
def writeInteger (i : Int) : Except Fault Text :=
  if i.natAbs < writeLimit then .ok (signedDecimal i) else .error .numberTooLong

/-- The widths that fit into a machine word lie below this number. -/
def wordLimit : Int := Nat.pow 2 63

/-- An integer in decimal digits, widened with zeros to a given width. -/
def zeroPad (i width : Int) : Except Fault Text := do
  let ds ← writeInteger i
  if -wordLimit ≤ width ∧ width < wordLimit then .ok (zeroFill width.toNat ds)
  else .error .widthTooLarge

/-- White space that may stand around a number: the usual ASCII blanks, and the
white space of other scripts. -/
def isOuterBlank (c : Char) : Bool :=
  c == ' ' || (9 ≤ c.toNat && c.toNat ≤ 13) || (128 ≤ c.toNat && isBlank c)

/-- Whether a run of digits and low lines has low lines only between digits. -/
def wellSpaced : Text → Bool
  | [] => false
  | ['_'] => false
  | '_' :: _ => false
  | [_] => true
  | _ :: '_' :: rest => wellSpaced rest
  | _ :: rest => wellSpaced rest

/-- The whole number that a text stands for. A run of digits that is too long is
noticed before anything that follows it. -/
def readInteger (t : Text) : Except Fault Int := do
  let malformed := Fault.malformedInteger 10 t.quoted
  let body := t.dropWhile isOuterBlank
  let (negative, body) := match body with
    | '-' :: rest => (true, rest)
    | '+' :: rest => (false, rest)
    | rest => (false, rest)
  let inRun (c : Char) : Bool := c == '_' || isDecimal c
  let run := body.takeWhile inRun
  if !wellSpaced run then throw malformed
  let n ← readDigits (run.filter (· != '_'))
  if !(body.dropWhile inRun).all isOuterBlank then throw malformed
  return if negative then -n else n

end Worksheet

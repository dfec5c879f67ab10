import Worksheet.Number.Binary64
import Worksheet.Number.Decimal

/-!
# Reading floating-point numbers

* `Binary64.ofText?` reads a number in decimal digits, with or without a point
  and an exponent, or one of the words for infinity and for what is no number;
* `readReal` reads a number with blanks around it and with digits of any script.
-/

namespace Worksheet

namespace Binary64

/-- Digits around an optional point: all of them as one number, and how many of
them follow the point. There is at least one digit. -/
def mantissaOf? (t : Text) : Option (Nat × Nat) :=
  let whole := t.takeWhile isAsciiDigit
  let fraction? := match t.dropWhile isAsciiDigit with
    | [] => some []
    | '.' :: rest => if rest.all isAsciiDigit then some rest else none
    | _ => none
  fraction?.bind fun fraction =>
    match whole ++ fraction with
    | [] => none
    | ds => some (digitsValue ds, fraction.length)

/-- An exponent: digits after an optional sign. -/
def exponentOf? (t : Text) : Option Int :=
  let (negative, ds) := match t with
    | '-' :: ds => (true, ds)
    | '+' :: ds => (false, ds)
    | ds => (false, ds)
  if ds ≠ [] ∧ ds.all isAsciiDigit then
    let n : Int := digitsValue ds
    some (if negative then -n else n)
  else none

/-- A character that marks an exponent. -/
def isExponentMark (c : Char) : Bool := c == 'e' || c == 'E'

/-- The number that a text without a sign stands for. -/
def magnitudeOf? (negative : Bool) (t : Text) : Option Binary64 :=
  let small := t.map Char.toLower
  if small = lit "inf" ∨ small = lit "infinity" then some (infinite negative)
  else if small = lit "nan" then some nan
  else do
    let (digits, places) ← mantissaOf? (t.takeWhile (!isExponentMark ·))
    let exponent ← match t.dropWhile (!isExponentMark ·) with
      | [] => some 0
      | _ :: rest => exponentOf? rest
    return ofDecimal negative digits (exponent - places)

/-- The number that a text stands for. -/
def ofText? (t : Text) : Option Binary64 :=
  match t with
  | '-' :: rest => magnitudeOf? true rest
  | '+' :: rest => magnitudeOf? false rest
  | rest => magnitudeOf? false rest

end Binary64

/-- A decimal digit of any script as one of the ten digits `0` to `9`; another
character is itself. -/
def asciiDigit (c : Char) : Char :=
  match digitValue? c with
  | some n => digitChar n
  | none => c

/-- The number that a text stands for. -/
def readReal (t : Text) : Except Fault Binary64 :=
  match Binary64.ofText? ((t.trim isOuterBlank).map asciiDigit) with
  | some x => .ok x
  | none => .error (.malformedReal t.quoted)

end Worksheet

import Worksheet.Json
import Worksheet.Number.Digits

/-!
# Reading JSON

`Json.read?` reads a text that holds one JSON value and blanks around it. Beyond
the standard the words `NaN` and `Infinity` are numbers. Lists and objects that
are not empty may be nested `depthLimit` levels deep, a number may have
`wholeDigits` digits before its point, and of members with the same name the last
one counts.
-/

namespace Worksheet.Json

/-- The number of levels to which lists and objects that are not empty may be
nested. -/
def depthLimit : Nat := 200

/-- The largest number of digits before the point of a number. -/
def wholeDigits : Nat := 4300

/-- A blank between the parts of a value. -/
def isGap (c : Char) : Bool := c == ' ' || c == '\t' || c == '\n' || c == '\r'

/-- The text after the blanks at its start. -/
def skip (t : Text) : Text := t.dropWhile isGap

/-- The rest of a text that starts with a given word. -/
def after? (word t : Text) : Option Text :=
  if word.isPrefixOf t then some (t.drop word.length) else none

/-! ## Texts -/

/-- The number of four hexadecimal digits, and the rest. -/
def hexFour? : Text → Option (Nat × Text)
  | a :: b :: c :: d :: rest => do
    let a ← hexValue? a
    let b ← hexValue? b
    let c ← hexValue? c
    let d ← hexValue? d
    return (((a * 16 + b) * 16 + c) * 16 + d, rest)
  | _ => none

/-- The character of an escape after its `\u`; two escapes together give a
character beyond the first 65536. -/
def unicodeEscape? (t : Text) : Option (Char × Text) := do
  let (high, rest) ← hexFour? t
  if high < 0xD800 || 0xDFFF < high then return (Char.ofNat high, rest)
  else if 0xDBFF < high then none
  else match rest with
    | '\\' :: 'u' :: rest =>
      let (low, rest) ← hexFour? rest
      if low < 0xDC00 || 0xDFFF < low then none
      else return (Char.ofNat (0x10000 + (high - 0xD800) * 0x400 + (low - 0xDC00)), rest)
    | _ => none

/-- The character of an escape of one letter. -/
def shortEscape? : Char → Option Char
  | '"' => some '"'
  | '\\' => some '\\'
  | '/' => some '/'
  | 'b' => some '\x08'
  | 'f' => some '\x0c'
  | 'n' => some '\n'
  | 'r' => some '\r'
  | 't' => some '\t'
  | _ => none

/-- The characters up to the quote that ends a text, and the rest. -/
def readText : (fuel : Nat) → Text → Option (Text × Text)
  | 0, _ => none
  | _ + 1, [] => none
  | _ + 1, '"' :: rest => some ([], rest)
  | fuel + 1, '\\' :: 'u' :: rest => do
    let (c, rest) ← unicodeEscape? rest
    let (t, rest) ← readText fuel rest
    return (c :: t, rest)
  | fuel + 1, '\\' :: e :: rest => do
    let c ← shortEscape? e
    let (t, rest) ← readText fuel rest
    return (c :: t, rest)
  | fuel + 1, c :: rest =>
    if c.toNat < 0x20 || c = '\\' then none
    else do
      let (t, rest) ← readText fuel rest
      return (c :: t, rest)

/-! ## Numbers -/

/-- A run of digits that is not empty, and the rest. -/
def readDigitRun? (t : Text) : Option (Text × Text) :=
  match t.takeWhile isAsciiDigit with
  | [] => none
  | ds => some (ds, t.dropWhile isAsciiDigit)

/-- The exponent of a number, if there is one, and the rest. -/
def readExponent? (t : Text) : Option (Option Int × Text) :=
  match t with
  | e :: rest =>
    if e = 'e' || e = 'E' then
      let (negative, rest) := match rest with
        | '-' :: rest => (true, rest)
        | '+' :: rest => (false, rest)
        | _ => (false, rest)
      (readDigitRun? rest).map fun (ds, rest) =>
        let n : Int := digitsValue ds
        (some (if negative then -n else n), rest)
    else some (none, t)
  | [] => some (none, t)

/-- The digits after the point of a number, if there are any, and the rest. -/
def readFraction? (t : Text) : Option (Option Text × Text) :=
  match t with
  | '.' :: rest => (readDigitRun? rest).map fun (ds, rest) => (some ds, rest)
  | _ => some (none, t)

/-- A number after its sign, and the rest. -/
def readNumber? (negative : Bool) (t : Text) : Option (Json × Text) := do
  let (whole, rest) ← readDigitRun? t
  if whole.head? = some '0' && whole.length ≠ 1 then none
  if wholeDigits < whole.length then none
  let (fraction, rest) ← readFraction? rest
  let (exponent, rest) ← readExponent? rest
  match fraction, exponent with
  | none, none =>
    let n : Int := digitsValue whole
    return (.int (if negative then -n else n), rest)
  | _, _ =>
    let fraction := fraction.getD []
    let e := exponent.getD 0 - fraction.length
    return (.real (Binary64.ofDecimal negative (digitsValue (whole ++ fraction)) e), rest)

/-- A number or a word, and the rest. -/
def readScalar? (t : Text) : Option (Json × Text) :=
  match t with
  | 'n' :: _ => (after? (lit "null") t).map fun r => (.null, r)
  | 't' :: _ => (after? (lit "true") t).map fun r => (.bool true, r)
  | 'f' :: _ => (after? (lit "false") t).map fun r => (.bool false, r)
  | 'N' :: _ => (after? (lit "NaN") t).map fun r => (.real .nan, r)
  | 'I' :: _ => (after? (lit "Infinity") t).map fun r => (.real (.infinite false), r)
  | '-' :: 'I' :: _ => (after? (lit "-Infinity") t).map fun r => (.real (.infinite true), r)
  | '-' :: rest => readNumber? true rest
  | _ => readNumber? false t

/-! ## Values -/

mutual

/-- A value at the start of a text, and the rest. -/
def readValue : (fuel depth : Nat) → Text → Option (Json × Text)
  | 0, _, _ => none
  | fuel + 1, depth, t =>
    match t with
    | '"' :: rest => (readText (rest.length + 1) rest).map fun (s, r) => (.text s, r)
    | '[' :: rest =>
      match skip rest, depth with
      | ']' :: r, _ => some (.list [], r)
      | _, 0 => none
      | r, depth + 1 => (readElements fuel depth r).map fun (vs, r) => (.list vs, r)
    | '\x7b' :: rest =>
      match skip rest, depth with
      | '\x7d' :: r, _ => some (.object [], r)
      | _, 0 => none
      | r, depth + 1 => (readMembers fuel depth [] r).map fun (ms, r) => (.object ms, r)
    | _ => readScalar? t

/-- The elements of a list up to its bracket, and the rest. -/
def readElements : (fuel depth : Nat) → Text → Option (List Json × Text)
  | 0, _, _ => none
  | fuel + 1, depth, t => do
    let (v, r) ← readValue fuel depth t
    match skip r with
    | ',' :: r =>
      let (vs, r) ← readElements fuel depth (skip r)
      return (v :: vs, r)
    | ']' :: r => return ([v], r)
    | _ => none

/-- The members of an object up to its bracket, added to those that were read
before, and the rest. -/
def readMembers : (fuel depth : Nat) → Members → Text → Option (Members × Text)
  | 0, _, _, _ => none
  | fuel + 1, depth, ms, '"' :: rest => do
    let (name, r) ← readText (rest.length + 1) rest
    match skip r with
    | ':' :: r =>
      let (v, r) ← readValue fuel depth (skip r)
      let ms := ms.put name v
      match skip r with
      | ',' :: r => readMembers fuel depth ms (skip r)
      | '\x7d' :: r => return (ms, r)
      | _ => none
    | _ => none
  | _ + 1, _, _, _ => none

end

/-- The value that a text holds. -/
def read? (t : Text) : Option Json := do
  let (v, r) ← readValue (2 * t.length + 2) depthLimit (skip t)
  if (skip r).isEmpty then return v else none

end Worksheet.Json

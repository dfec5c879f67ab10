import Worksheet.Calendar
import Worksheet.Number.Binary64

/-!
# Reading dates and times

* `Moment.ofText?` reads a time such as `2024-01-02T03:04:05.5+05:30`; the
  seconds, their fraction and the distance from universal time may be missing, or
  the whole time of the day;
* `Moment.ofInteger?` and `Moment.ofReal?` give the time at a number of seconds
  after the start of the year 1970. Numbers too large for that count
  milliseconds;
* `Moment.ofNumeral?` does so for a number that is written as a text.
-/

namespace Worksheet

/-- The number that two digits at the start of a text stand for, if it is small
enough, and the rest. -/
def twoDigits? (limit : Nat) (t : Text) : Option (Nat × Text) :=
  match t with
  | a :: b :: rest =>
    if isAsciiDigit a && isAsciiDigit b && digitsValue [a, b] ≤ limit then
      some (digitsValue [a, b], rest)
    else none
  | _ => none

/-- The rest of a text after a character that has to be there. -/
def afterChar? (c : Char) (t : Text) : Option Text :=
  match t with
  | d :: rest => if c = d then some rest else none
  | [] => none

/-- The day at the start of a text, and the rest. -/
def Date.read? (t : Text) : Option (Date × Text) := do
  let (century, rest) ← twoDigits? 99 t
  let (year, rest) ← twoDigits? 99 rest
  let (month, rest) ← twoDigits? 12 (← afterChar? '-' rest)
  let (day, rest) ← twoDigits? 31 (← afterChar? '-' rest)
  let d : Date := ⟨century * 100 + year, month, day⟩
  if d.valid then some (d, rest) else none

namespace Moment

/-- The microseconds of a fraction of a second: six digits of it. -/
def fractionValue (ds : Text) : Nat := digitsValue ((ds ++ List.replicate 6 '0').take 6)

/-- A fraction of a second after its point or its comma, if there is one, and the
rest. -/
def readFraction? (t : Text) : Option (Nat × Text) :=
  match t with
  | '.' :: rest | ',' :: rest =>
    match rest.takeWhile isAsciiDigit with
    | [] => none
    | ds => some (fractionValue ds, rest.dropWhile isAsciiDigit)
  | _ => some (0, t)

/-- Seconds and their fraction after a colon, if there are any, and the rest. -/
def readSeconds? (t : Text) : Option (Nat × Nat × Text) :=
  match t with
  | ':' :: rest => do
    let (second, rest) ← twoDigits? 59 rest
    let (microsecond, rest) ← readFraction? rest
    return (second, microsecond, rest)
  | _ => some (0, 0, t)

/-- The distance from universal time at the end of a text, if there is one. -/
def readOffset? (t : Text) : Option (Option Int) :=
  match t with
  | [] => some none
  | ['Z'] | ['z'] => some (some 0)
  | sign :: rest => do
    let negative ←
      if sign = '+' then some false else if sign = '-' || sign = '−' then some true else none
    let (hours, rest) ← twoDigits? 23 rest
    let (minutes, rest) ← twoDigits? 59 ((afterChar? ':' rest).getD rest)
    if rest ≠ [] then none
    else
      let n : Int := hours * 3600 + minutes * 60
      return some (if negative then -n else n)

/-- A character that separates the day from the time of the day. -/
def isSeparator (c : Char) : Bool := c == 'T' || c == 't' || c == ' ' || c == '_'

/-- The time that a text stands for. -/
def ofText? (t : Text) : Option Moment := do
  let (date, rest) ← Date.read? t
  match rest with
  | [] => return { date }
  | c :: rest =>
    if !isSeparator c then none
    else
      let (hour, rest) ← twoDigits? 23 rest
      let (minute, rest) ← twoDigits? 59 (← afterChar? ':' rest)
      let (second, microsecond, rest) ← readSeconds? rest
      let offset ← readOffset? rest
      return { date, hour, minute, second, microsecond, offset }

/-! ## Times as numbers -/

/-- The largest number that counts seconds; numbers beyond it count
milliseconds. -/
def secondsLimit : Nat := 20000000000

/-- The number of microseconds in the unit that a number counts. -/
def unitOf (seconds : Bool) : Nat := if seconds then 1000000 else 1000

/-- The numbers of the first second of the year 1 and of the last second of the
year 9999. -/
def firstSecond : Int := -62135596800
def lastSecond : Int := 253402300799

/-- The number of the first day of the year 1970. -/
def epochDay : Int := (⟨1970, 1, 1⟩ : Date).dayNumber

/-- The time at a number of microseconds after the start of the year 1970. -/
def ofMicroseconds? (n : Int) : Option Moment :=
  let s := n / 1000000
  if s < firstSecond || lastSecond < s then none
  else
    let time := (s % 86400).toNat
    some {
      date := Date.ofDayNumber (epochDay + s / 86400).toNat
      hour := time / 3600
      minute := time / 60 % 60
      second := time % 60
      microsecond := (n % 1000000).toNat
      offset := some 0 }

/-- The time at a whole number of seconds or milliseconds. -/
def ofInteger? (n : Int) : Option Moment :=
  ofMicroseconds? (n * unitOf (n.natAbs ≤ secondsLimit))

/-- The time at a number of seconds or milliseconds. The part of the number behind
the point is rounded to microseconds. -/
def ofReal? (x : Binary64) : Option Moment := do
  let scaled ← x.scaled?
  let whole ← x.floor?
  let unit := unitOf (scaled.natAbs ≤ secondsLimit * Binary64.units)
  ofMicroseconds? (whole * unit + (x.fraction.mul (Binary64.ofInt unit)).rounded)

/-- Digits behind a point added to a number, of which the first stands for as many
parts of `scale`. Every digit is added with a rounding of its own. -/
def addDigits (x scale : Binary64) : Text → Binary64
  | [] => x
  | d :: ds =>
    let digit := Binary64.ofInt (digitsValue [d])
    addDigits (x.add (digit.div scale)) (scale.mul (Binary64.ofInt 10)) ds

/-- The integers from which on a number of digits is too large to be a time. -/
def wholeLimit : Nat := Nat.pow 2 63

/-- The time that a numeral without a sign stands for. -/
def ofUnsigned? (negative : Bool) (t : Text) : Option Moment :=
  let whole := t.takeWhile isAsciiDigit
  let n : Int := digitsValue whole
  if whole = [] ∨ wholeLimit ≤ n then none
  else
    match t.dropWhile isAsciiDigit with
    | [] => ofInteger? (if negative then -n else n)
    | '.' :: ds =>
      if ds.all isAsciiDigit then
        let x := addDigits (Binary64.ofInt n) (Binary64.ofInt 10) ds
        ofReal? (if negative then x.neg else x)
      else none
    | _ => none

/-- The time that a numeral stands for: digits with a sign and a point, but
without an exponent. -/
def ofNumeral? (t : Text) : Option Moment :=
  match t with
  | '-' :: rest => ofUnsigned? true rest
  | '+' :: rest => ofUnsigned? false rest
  | _ => ofUnsigned? false t

end Moment

end Worksheet

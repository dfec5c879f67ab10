import Worksheet.Number.Digits

/-!
# Dates and times

Dates of the calendar that is in use today, carried back to the year 1, and
times of the day, with or without their distance from universal time.

* `Date.valid` and `Moment.valid` tell which values exist;
* `Date.dayNumber` and `Date.ofDayNumber` count days;
* `Date.iso` and `Moment.iso` write them as texts.
-/

namespace Worksheet

/-- A day. -/
structure Date where
  year : Nat
  month : Nat
  day : Nat
deriving DecidableEq, Repr

/-- A point in time: a day, a time of that day, and the number of seconds by
which the clock is ahead of universal time, if this is known. -/
structure Moment where
  date : Date
  hour : Nat := 0
  minute : Nat := 0
  second : Nat := 0
  microsecond : Nat := 0
  offset : Option Int := none
deriving DecidableEq, Repr

/-- A year with 366 days. -/
def isLeapYear (y : Nat) : Bool := y % 4 == 0 && (y % 100 != 0 || y % 400 == 0)

/-- The number of days of a month. -/
def daysInMonth (y m : Nat) : Nat :=
  if m = 2 then (if isLeapYear y then 29 else 28)
  else if m = 4 || m = 6 || m = 9 || m = 11 then 30 else 31

namespace Date

/-- Whether there is such a day. -/
def valid (d : Date) : Bool :=
  1 ≤ d.year && d.year ≤ 9999 && 1 ≤ d.month && d.month ≤ 12 &&
    1 ≤ d.day && d.day ≤ daysInMonth d.year d.month

/-- The number of days before a month in its year. -/
def daysBeforeMonth (y : Nat) : (month : Nat) → Nat
  | 0 | 1 => 0
  | m + 2 => daysBeforeMonth y (m + 1) + daysInMonth y (m + 1)

/-- The number of days before a year, counted from the first day of year 1. -/
def daysBeforeYear (y : Nat) : Nat :=
  let n := y - 1
  n * 365 + n / 4 - n / 100 + n / 400

/-- The number of a day; the first day of year 1 has the number 1. -/
def dayNumber (d : Date) : Nat := daysBeforeYear d.year + daysBeforeMonth d.year d.month + d.day

/-- The month and day at a distance from the first of January. -/
def inYear (y : Nat) : (fuel month rest : Nat) → Date
  | 0, month, rest => ⟨y, month, rest + 1⟩
  | fuel + 1, month, rest =>
    if rest < daysInMonth y month then ⟨y, month, rest + 1⟩
    else inYear y fuel (month + 1) (rest - daysInMonth y month)

/-- The day with a given number. -/
def ofDayNumber (n : Nat) : Date :=
  let guess := (n - 1) * 400 / 146097 + 1
  let y :=
    if n ≤ daysBeforeYear guess then guess - 1
    else if daysBeforeYear (guess + 1) < n then guess + 1 else guess
  inYear y 12 1 (n - 1 - daysBeforeYear y)

/-- The day as year, month and day. -/
def iso (d : Date) : Text :=
  fixedDecimal 4 d.year ++ ['-'] ++ fixedDecimal 2 d.month ++ ['-'] ++ fixedDecimal 2 d.day

end Date

namespace Moment

/-- Whether there is such a time. -/
def valid (t : Moment) : Bool :=
  t.date.valid && t.hour < 24 && t.minute < 60 && t.second < 60 && t.microsecond < 1000000

/-- Hours and minutes, and seconds if there are any, with a sign. -/
def offsetText (seconds : Int) : Text :=
  let n := seconds.natAbs
  (if seconds < 0 then '-' else '+') ::
    (fixedDecimal 2 (n / 3600) ++ [':'] ++ fixedDecimal 2 (n / 60 % 60) ++
      if n % 60 = 0 then [] else ':' :: fixedDecimal 2 (n % 60))

/-- The time of the day; a fraction of a second has six digits. -/
def clock (t : Moment) : Text :=
  fixedDecimal 2 t.hour ++ [':'] ++ fixedDecimal 2 t.minute ++ [':'] ++ fixedDecimal 2 t.second ++
    if t.microsecond = 0 then [] else '.' :: fixedDecimal 6 t.microsecond

/-- The day, a separator, the time and the distance from universal time; `utc`
is the text for a distance of zero. -/
def written (separator : Char) (utc : Text) (t : Moment) : Text :=
  t.date.iso ++ [separator] ++ t.clock ++
    match t.offset with
    | none => []
    | some 0 => utc
    | some s => offsetText s

/-- The microseconds from the start of year 1, in universal time if the distance
from it is known. -/
def microseconds (t : Moment) : Int :=
  let seconds : Int :=
    (t.date.dayNumber : Int) * 86400 + t.hour * 3600 + t.minute * 60 + t.second - t.offset.getD 0
  seconds * 1000000 + t.microsecond

end Moment

end Worksheet

import Worksheet.Number.Real
import Worksheet.Text.Case
import Worksheet.Value.Shown
import Worksheet.Yaml.Tag

/-!
# The values of scalars

What a scalar stands for, given its tag. Besides decimal numbers there are those
of the bases two, eight and sixteen, and those in units of sixty; low lines
between digits do not count.

* `Scalar.integer`, `Scalar.real`, `Scalar.truth`, `Scalar.moment` and
  `Scalar.bytes?` read scalars of one kind.
-/

namespace Worksheet.Yaml.Scalar

/-! ## Numbers -/

/-- The text without low lines. -/
def withoutLowLines (t : Text) : Text := t.filter (· != '_')

/-- A text without its sign, and whether this was a minus sign. -/
def signOf (t : Text) : Except Fault (Bool × Text) :=
  match t with
  | [] => .error .emptyNumber
  | '-' :: rest => .ok (true, rest)
  | '+' :: rest => .ok (false, rest)
  | rest => .ok (false, rest)

/-- The mark with which digits of a base may start. -/
def baseMark (base : Nat) : List Text :=
  match base with
  | 2 => [lit "0b", lit "0B"]
  | 8 => [lit "0o", lit "0O"]
  | 16 => [lit "0x", lit "0X"]
  | _ => []

/-- The integer that a text stands for in a base. -/
def inBase (base : Nat) (t : Text) : Except Fault Int :=
  let body := t.trim isOuterBlank
  let negative := body.head? = some '-'
  let digits := (unsigned body).map asciiDigit
  let digits := if (baseMark base).contains (digits.take 2) then digits.drop 2 else digits
  if digits ≠ [] ∧ digits.all fun d => (hexValue? d).any (· < base) then
    let n : Int := baseValue base digits
    .ok (if negative then -n else n)
  else .error (.malformedInteger base t.quoted)

/-- Numbers in units that increase by a factor of sixty, the smallest one last, as
one number. -/
def sexagesimal (ns : List Int) : Int := ns.foldl (fun n d => n * 60 + d) 0

/-- The integer that a scalar without its sign stands for. -/
def magnitude (t : Text) : Except Fault Int :=
  if t = ['0'] then .ok 0
  else
    match t with
    | [] => .error .emptyNumber
    | '0' :: 'b' :: digits => inBase 2 digits
    | '0' :: 'x' :: digits => inBase 16 digits
    | '0' :: _ => inBase 8 t
    | _ =>
      if ':' ∈ t then do
        return sexagesimal (← (t.splitOn (· == ':')).mapM readInteger)
      else readInteger t

/-- The integer that a scalar stands for. -/
def integer (t : Text) : Except Fault Int := do
  let (negative, body) ← signOf (withoutLowLines t)
  let n ← magnitude body
  return if negative then -n else n

/-- The powers of sixty from this one on are too large for floating-point
numbers. -/
def sixtyLimit : Nat := 174

/-- Floating-point numbers in units that increase by a factor of sixty, the
smallest one first, added up from the unit `60 ^ i` on. Units, products and sums
are rounded one by one. -/
def addSixtieths (sum : Binary64) : Nat → List Binary64 → Except Fault Binary64
  | _, [] => .ok sum
  | i, x :: xs =>
    if sixtyLimit ≤ i then .error .realTooLarge
    else addSixtieths (sum.add (x.mul (Binary64.ofInt (Nat.pow 60 i)))) (i + 1) xs

/-- The floating-point number that a scalar stands for. -/
def real (t : Text) : Except Fault Binary64 := do
  let (negative, body) ← signOf (Text.lower (withoutLowLines t))
  let x ←
    if body = lit ".inf" then pure (.infinite false)
    else if body = lit ".nan" then pure .nan
    else if ':' ∈ body then do
      let parts ← (body.splitOn (· == ':')).mapM readReal
      addSixtieths .zero 0 parts.reverse
    else readReal body
  return if negative then x.neg else x

/-! ## Truth values -/

/-- The words for truth values in small letters. -/
def truthValue? (t : Text) : Option Bool :=
  if [lit "yes", lit "true", lit "on"].contains t then some true
  else if [lit "no", lit "false", lit "off"].contains t then some false
  else none

/-- The truth value that a scalar stands for. -/
def truth (t : Text) : Except Fault Bool :=
  match truthValue? t.lower with
  | some b => .ok b
  | none => .error (.missingKey t.lower)

/-! ## Times -/

/-- Why there is no such day. -/
def dateFlaw? (d : Date) : Option Text :=
  if d.year = 0 then some (lit "year 0 is out of range")
  else if d.month = 0 ∨ 12 < d.month then some (lit "month must be in 1..12")
  else if d.day = 0 ∨ daysInMonth d.year d.month < d.day then
    some (lit "day is out of range for month")
  else none

/-- Why there is no such time of the day. -/
def clockFlaw? (c : Clock) : Option Text :=
  if 23 < c.hour then some (lit "hour must be in 0..23")
  else if 59 < c.minute then some (lit "minute must be in 0..59")
  else if 59 < c.second then some (lit "second must be in 0..59")
  else none

/-- The seconds by which the clock of a zone is ahead of universal time, which is
less than a day. -/
def zoneOffset (z : Zone) : Except Fault Int :=
  match z with
  | .universal => .ok 0
  | .offset ahead hours minutes =>
    let n : Int := hours * 3600 + minutes * 60
    let seconds := if ahead then n else -n
    if n < 86400 then .ok seconds
    else .error (.noMoment
      (lit "offset must be a timedelta strictly between -timedelta(hours=24) and " ++
        lit "timedelta(hours=24), not " ++ shownDuration seconds ++ ['.']))

/-- The microseconds of a fraction of a second: six digits of it. -/
def microseconds (fraction : Text) : Nat :=
  digitsValue ((fraction ++ List.replicate 6 '0').take 6)

/-- The day or the time that a scalar stands for. -/
def moment (t : Text) : Except Fault Value :=
  match Stamp.read? (Tag.unterminated t) with
  | none => .error (.withoutFields (lit "NoneType") (lit "groupdict"))
  | some s =>
    match s.clock with
    | none =>
      match dateFlaw? s.date with
      | some reason => .error (.noMoment reason)
      | none => .ok (.date s.date)
    | some c => do
      let offset ← c.zone.mapM zoneOffset
      match (dateFlaw? s.date).or (clockFlaw? c) with
      | some reason => throw (.noMoment reason)
      | none =>
        return .moment {
          date := s.date, hour := c.hour, minute := c.minute, second := c.second
          microsecond := microseconds c.fraction, offset }

/-! ## Bytes -/

/-- The six bits that a character stands for. -/
def sixBits? (c : Char) : Option Nat :=
  if 'A' ≤ c ∧ c ≤ 'Z' then some (c.toNat - 'A'.toNat)
  else if 'a' ≤ c ∧ c ≤ 'z' then some (c.toNat - 'a'.toNat + 26)
  else if '0' ≤ c ∧ c ≤ '9' then some (c.toNat - '0'.toNat + 52)
  else if c = '+' then some 62
  else if c = '/' then some 63
  else none

/-- The bytes of groups of four characters. `place` characters of the current
group have been read, and `bits` are the bits of them that belong to no byte yet;
`pads` equals signs have just been seen. Other characters do not count. -/
def groups (place bits pads : Nat) : Text → Option (List UInt8)
  | [] => if place = 0 then some [] else none
  | c :: cs =>
    if c = '=' then
      if 2 ≤ place ∧ 4 ≤ place + pads + 1 then some [] else
        groups place bits (if 2 ≤ place then pads + 1 else pads) cs
    else
      match sixBits? c with
      | none => groups place bits pads cs
      | some n =>
        match place with
        | 0 => groups 1 n 0 cs
        | 1 => (groups 2 (n % 16) 0 cs).map (UInt8.ofNat (bits * 4 + n / 16) :: ·)
        | 2 => (groups 3 (n % 4) 0 cs).map (UInt8.ofNat (bits * 16 + n / 4) :: ·)
        | _ => (groups 0 0 0 cs).map (UInt8.ofNat (bits * 64 + n) :: ·)

/-- The bytes that a scalar stands for. -/
def bytes? (t : Text) : Option (List UInt8) :=
  if t.all fun c => c.toNat < 128 then groups 0 0 0 t else none

/-! ## All scalars -/

/-- A value, or the fault of a scalar that has none. -/
def orFault {α : Type} (write : α → Value) (r : Except Fault α) : Except Failure Value :=
  match r with
  | .ok a => .ok (write a)
  | .error f => .error (.fault f)

/-- The value of a scalar with a tag. -/
def ofText (tag : Tag) (t : Text) : Except Failure Value :=
  match tag with
  | .null => .ok .null
  | .bool => orFault .bool (truth t)
  | .int => orFault .int (integer t)
  | .real => orFault .real (real t)
  | .text => .ok (.text t)
  | .moment => orFault id (moment t)
  | .bytes =>
    match bytes? t with
    | some bs => .ok (.bytes bs)
    | none => .error .broken
  | _ => .error .broken

/-- The codes of a number that is no number, as it is shown: without low lines and
without a sign. -/
def shownMagnitude (cs : List Nat) : Text :=
  match cs.filter (· != '_'.toNat) with
  | [] => quotedCodes []
  | c :: cs => quotedCodes (if [c] = ['+'.toNat] ∨ [c] = ['-'.toNat] then cs else c :: cs)

/-- The value of a scalar with a tag, some of whose codes no character has. Nothing
but a text can hold them. -/
def ofCodes (tag : Tag) (cs : List Nat) : Except Failure Value :=
  match tag with
  | .null => .ok .null
  | .text => .ok (.codes cs)
  | .bool => .error (.fault (.other (lit "KeyError") (quotedCodes cs)))
  | .int => .error (.fault (.malformedInteger 10 (shownMagnitude cs)))
  | .real => .error (.fault (.malformedReal (shownMagnitude cs)))
  | .moment => .error (.fault (.withoutFields (lit "NoneType") (lit "groupdict")))
  | _ => .error .broken

/-- The value of a scalar with a tag. -/
def value (tag : Tag) (c : Content) : Except Failure Value :=
  match c with
  | .text t => ofText tag t
  | .codes cs => ofCodes tag cs

/-- Whether a scalar is the one word for what is no number. -/
def isNanWord (c : Content) : Bool :=
  match c with
  | .text t => unsigned (Text.lower (withoutLowLines t)) == lit ".nan"
  | .codes _ => false

end Worksheet.Yaml.Scalar

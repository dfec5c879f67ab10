/-!
# Binary floating-point numbers

A number of the binary64 format in exact integer arithmetic: a finite number is
`± mantissa · 2 ^ (exponent - 1074)`. In the numbers that are built here the
mantissa has at most 53 bits, and exactly 53 unless the exponent is zero, so
that every number has one form (`Binary64.Canonical`).

`Binary64.ofRatio` rounds a fraction to the nearest number, ties to the even
mantissa; all other conversions into the format go through it.
-/

namespace Worksheet

/-- A binary floating-point number of 64 bits. -/
inductive Binary64 where
  /-- The number `± mantissa · 2 ^ (exponent - 1074)`. -/
  | finite (negative : Bool) (mantissa exponent : Nat)
  | infinite (negative : Bool)
  /-- Not a number. -/
  | nan
deriving DecidableEq, Repr

/-- The quotient rounded to the nearest integer, a half to the even one. -/
def roundDiv (num den : Nat) : Nat :=
  let q := num / den
  let twice := 2 * (num % den)
  if twice < den || (twice == den && q % 2 == 0) then q else q + 1

namespace Binary64

/-- Every finite number is a whole number of parts, of which this many make one. -/
def units : Nat := Nat.pow 2 1074

/-- The form in which numbers are kept: the mantissa fits, and it is only small
where the exponent is the smallest one. -/
def Canonical : Binary64 → Prop
  | finite _ m e => m < Nat.pow 2 53 ∧ (e = 0 ∨ Nat.pow 2 52 ≤ m) ∧ e ≤ 2045
  | _ => True

/-- Zero. -/
def zero : Binary64 := finite false 0 0

/-- A mantissa that may just have reached 54 bits, in canonical form. -/
def carry (negative : Bool) (m e : Nat) : Binary64 :=
  let r := if m = Nat.pow 2 53 then (Nat.pow 2 52, e + 1) else (m, e)
  if r.2 ≤ 2045 then finite negative r.1 r.2 else infinite negative

/-- The number nearest to `± num / den`. -/
def ofRatio (negative : Bool) (num den : Nat) : Binary64 :=
  let scaled := num * units
  let e := (scaled / den).log2 - 52
  carry negative (roundDiv scaled (den * Nat.pow 2 e)) e

/-- The number nearest to `± digits · 10 ^ exponent`. An exponent far outside of
the range of the format is not raised to a power. -/
def ofDecimal (negative : Bool) (digits : Nat) (exponent : Int) : Binary64 :=
  if digits = 0 then finite negative 0 0
  else
    let size : Int := exponent + digits.log2 / 4
    if size > 400 then infinite negative
    else if exponent + digits.log2 < -400 then finite negative 0 0
    else if exponent < 0 then ofRatio negative digits (Nat.pow 10 exponent.natAbs)
    else ofRatio negative (digits * Nat.pow 10 exponent.natAbs) 1

/-- The number nearest to an integer. -/
def ofInt (i : Int) : Binary64 := ofRatio (decide (i < 0)) i.natAbs 1

/-- The exact value of a finite number, as a numerator over `units`. -/
def scaled? : Binary64 → Option Int
  | finite negative m e =>
    let n : Int := (m * Nat.pow 2 e : Nat)
    some (if negative then -n else n)
  | _ => none

/-- Whether a number is neither zero nor minus zero. -/
def nonzero : Binary64 → Bool
  | finite _ m _ => m != 0
  | _ => true

/-- The integer part of a finite number. -/
def truncate? (x : Binary64) : Option Int :=
  x.scaled?.map fun n =>
    let a : Int := n.natAbs / units
    if n < 0 then -a else a

/-- The integer that a finite number is equal to. -/
def integer? (x : Binary64) : Option Int :=
  match x.scaled? with
  | some n => if n.natAbs % units = 0 then x.truncate? else none
  | none => none

/-- The number with the other sign. -/
def neg : Binary64 → Binary64
  | finite s m e => finite (!s) m e
  | infinite s => infinite (!s)
  | nan => nan

/-- Whether a number has a minus sign. -/
def signed : Binary64 → Bool
  | finite s _ _ => s
  | infinite s => s
  | nan => false

/-- The number nearest to the sum of two numbers. Zeros of different signs have
the sum zero, and there is no sum of infinities of different signs. -/
def add (x y : Binary64) : Binary64 :=
  match x, y with
  | nan, _ | _, nan => nan
  | infinite s, infinite t => if s = t then infinite s else nan
  | infinite s, _ | _, infinite s => infinite s
  | finite s _ _, finite t _ _ =>
    let sum := x.scaled?.getD 0 + y.scaled?.getD 0
    if sum = 0 then finite (s && t) 0 0 else ofRatio (decide (sum < 0)) sum.natAbs units

/-- The number nearest to the product of two numbers. There is no product of zero
and infinity. -/
def mul (x y : Binary64) : Binary64 :=
  let s := x.signed != y.signed
  match x, y with
  | nan, _ | _, nan => nan
  | finite _ m e, finite _ n f => ofRatio s (m * Nat.pow 2 e * (n * Nat.pow 2 f)) (units * units)
  | _, _ => if x.nonzero && y.nonzero then infinite s else nan

/-- The number nearest to the quotient of two finite numbers, of which the second
is not zero. -/
def div (x y : Binary64) : Binary64 :=
  match x, y with
  | finite s m e, finite t n f => ofRatio (s != t) (m * Nat.pow 2 e) (n * Nat.pow 2 f)
  | _, _ => nan

/-- The largest integer not above a finite number. -/
def floor? (x : Binary64) : Option Int := x.scaled?.map (· / units)

/-- A finite number less the largest integer not above it. -/
def fraction (x : Binary64) : Binary64 :=
  match x.scaled? with
  | some n => ofRatio false (n % units).natAbs units
  | none => nan

/-- The integer nearest to a number that is not negative, a half to the larger
one. -/
def rounded (x : Binary64) : Nat :=
  match x.scaled? with
  | some n => (2 * n.natAbs + units) / (2 * units)
  | none => 0

end Binary64

end Worksheet

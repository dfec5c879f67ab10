import Worksheet.Number.Binary64
import Worksheet.Number.Digits

/-!
# The shortest text of a floating-point number

A finite number is written with the fewest decimal digits that read back as the
same number, and of the texts with that many digits with the nearest one.

* `Binary64.shortest` finds these digits;
* `FloatFormat` says how a format sets them: between which exponents it writes
  them without an exponent, and what an exponent looks like;
* `FloatFormat.write` is the text.
-/

namespace Worksheet

/-- Decimal digits and the power of ten by which the number that they form is to
be multiplied. -/
structure Decimal where
  digits : Nat
  exponent : Int
deriving DecidableEq, Repr

namespace Decimal

/-- The same value without zeros at the end of the digits. -/
def trimmed (fuel : Nat) (d : Decimal) : Decimal :=
  match fuel with
  | 0 => d
  | fuel + 1 =>
    if d.digits % 10 = 0 && d.digits != 0 then
      trimmed fuel ⟨d.digits / 10, d.exponent + 1⟩
    else d

end Decimal

namespace Binary64

/-- A fraction that is compared with the multiples of powers of ten. -/
structure Ratio where
  num : Nat
  den : Nat

/-- The fraction multiplied by a power of ten. -/
def Ratio.shift (r : Ratio) (k : Int) : Ratio :=
  if k < 0 then ⟨r.num, r.den * Nat.pow 10 k.natAbs⟩ else ⟨r.num * Nat.pow 10 k.natAbs, r.den⟩

/-- The fractions between which a text reads back as `mantissa · 2 ^ (exponent -
1074)`: half-way to the numbers next to it. The lower neighbour of a power of
two is nearer. -/
def bounds (m e : Nat) : Ratio × Ratio :=
  let unit := Nat.pow 2 e
  let den := 4 * units
  let low := if m = Nat.pow 2 52 ∧ 0 < e then 4 * m - 1 else 4 * m - 2
  (⟨low * unit, den⟩, ⟨(4 * m + 2) * unit, den⟩)

/-- Whether `n` lies between two fractions, or on one of them if both belong to
the interval. -/
def between (closed : Bool) (low high : Ratio) (n : Nat) : Bool :=
  if closed then low.num ≤ n * low.den && n * high.den ≤ high.num
  else low.num < n * low.den && n * high.den < high.num

/-- The number of digits before the decimal point of a positive fraction, which
is zero or negative for a fraction below one tenth. -/
def magnitude (r : Ratio) : Int :=
  let guess : Int := ((r.num.log2 : Int) - r.den.log2) * 30103 / 100000
  let reaches (k : Int) : Bool :=
    let s := r.shift (-k)
    s.den ≤ s.num
  if reaches (guess + 1) then guess + 2
  else if reaches guess then guess + 1
  else if reaches (guess - 1) then guess
  else guess - 1

/-- The nearest of the texts with `count` digits or more, but as few as
possible, that lie within the bounds. -/
def search (closed : Bool) (value low high : Ratio) (point : Int) : (fuel count : Nat) → Decimal
  | 0, _ => ⟨0, 0⟩
  | fuel + 1, count =>
    let k := (count : Int) - point
    let v := value.shift k
    let l := low.shift k
    let h := high.shift k
    let below := v.num / v.den
    let lowFits := between closed l h below
    let highFits := between closed l h (below + 1)
    if lowFits || highFits then
      let nearest := roundDiv v.num v.den
      let chosen := if lowFits && highFits then nearest else if lowFits then below else below + 1
      ⟨chosen, -k⟩
    else search closed value low high point fuel (count + 1)

/-- The fewest digits that read back as `mantissa · 2 ^ (exponent - 1074)`. -/
def shortest (m e : Nat) : Decimal :=
  if m = 0 then ⟨0, 0⟩
  else
    let value : Ratio := ⟨m * Nat.pow 2 e, units⟩
    let b := bounds m e
    (search (m % 2 == 0) value b.1 b.2 (magnitude value) 17 1).trimmed 20

end Binary64

/-- How a format writes floating-point numbers. -/
structure FloatFormat where
  /-- The fewest and the most digits before the decimal point with which a
  number is written without an exponent. -/
  fewestBefore : Int
  mostBefore : Int
  /-- Whether a positive exponent has a sign. -/
  plusSign : Bool
  /-- The least number of digits of an exponent. -/
  exponentWidth : Nat
  positiveInfinity : Text
  negativeInfinity : Text
  notANumber : Text

namespace FloatFormat

/-- Digits with a decimal point after the first `before` of them, and at least
one digit on both sides of it. -/
def positional (digits : Text) (before : Int) : Text :=
  if before ≤ 0 then
    lit "0." ++ List.replicate before.natAbs '0' ++ digits
  else
    let n := before.toNat
    if digits.length ≤ n then
      digits ++ List.replicate (n - digits.length) '0' ++ lit ".0"
    else digits.take n ++ ['.'] ++ digits.drop n

/-- An exponent after its mark. -/
def exponentText (f : FloatFormat) (e : Int) : Text :=
  let digits := decimal e.natAbs
  let sign := if e < 0 then ['-'] else if f.plusSign then ['+'] else []
  'e' :: (sign ++ List.replicate (f.exponentWidth - digits.length) '0' ++ digits)

/-- Digits with an exponent, so that one digit stands before the point. -/
def scientific (f : FloatFormat) (digits : Text) (before : Int) : Text :=
  let mantissa := match digits with
    | [] => []
    | [d] => [d]
    | d :: ds => d :: '.' :: ds
  mantissa ++ f.exponentText (before - 1)

/-- The text of a floating-point number. -/
def write (f : FloatFormat) : Binary64 → Text
  | .nan => f.notANumber
  | .infinite negative => if negative then f.negativeInfinity else f.positiveInfinity
  | .finite negative m e =>
    let d := Binary64.shortest m e
    let digits := decimal d.digits
    let before : Int := if m = 0 then 1 else digits.length + d.exponent
    let body :=
      if f.fewestBefore ≤ before ∧ before ≤ f.mostBefore then positional digits before
      else f.scientific digits before
    if negative then '-' :: body else body

end FloatFormat

end Worksheet

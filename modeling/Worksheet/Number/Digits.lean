import Worksheet.Text
import Worksheet.Text.Digit

/-!
# Numbers as runs of digits

* `digitsValue` reads a run of decimal digits of any script;
* `decimal` and `signedDecimal` write a number with the digits `0` to `9`;
* `zeroFill` widens a written number with zeros after its sign.
-/

namespace Worksheet

/-- The number that a run of decimal digits stands for. -/
def digitsValue (ds : Text) : Nat := ds.foldl (fun n d => n * 10 + (digitValue? d).getD 0) 0

/-- The number that a run of digits stands for in a base up to sixteen. -/
def baseValue (base : Nat) (ds : Text) : Nat :=
  ds.foldl (fun n d => n * base + (hexValue? d).getD 0) 0

/-- A number in decimal digits, without leading zeros. -/
def decimal (n : Nat) : Text :=
  if n < 10 then [digitChar n] else decimal (n / 10) ++ [digitChar (n % 10)]

/-- An integer in decimal digits, with a sign if it is negative. -/
def signedDecimal (i : Int) : Text :=
  if i < 0 then '-' :: decimal i.natAbs else decimal i.natAbs

/-- A number in exactly `width` decimal digits: zeros are put in front, and
higher digits are dropped. -/
def fixedDecimal : Nat → Nat → Text
  | 0, _ => []
  | width + 1, n => fixedDecimal width (n / 10) ++ [digitChar (n % 10)]

/-- A written number, widened to `width` characters by zeros after its sign. -/
def zeroFill (width : Nat) (t : Text) : Text :=
  let zeros := List.replicate (width - t.length) '0'
  match t with
  | '-' :: ds => '-' :: (zeros ++ ds)
  | ds => zeros ++ ds

end Worksheet

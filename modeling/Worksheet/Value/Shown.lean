import Worksheet.Number.Decimal
import Worksheet.Number.Shortest
import Worksheet.Value

/-!
# Values as texts

* `Value.shown` is the form of a value in which its kind can be seen: texts stand
  between quotes, lists between brackets.
* `Value.written` is the form in which a value stands for a text: a text is
  itself, a day or a time is written as such, everything else is shown.
* `Value.typeName` names the kind of a value; `Value.fullTypeName` names it with
  the place where the kind is defined, for those kinds that have one.
-/

namespace Worksheet

/-- Floating-point numbers are written without an exponent from four digits after
the point up to sixteen digits before it. -/
def Value.floatFormat : FloatFormat where
  fewestBefore := -3
  mostBefore := 16
  plusSign := true
  exponentWidth := 2
  positiveInfinity := lit "inf"
  negativeInfinity := lit "-inf"
  notANumber := lit "nan"

/-- A length of time as days and seconds, of which those that are zero are left
out. -/
def shownDuration (seconds : Int) : Text :=
  let days := seconds / 86400
  let rest := seconds % 86400
  let parts :=
    (if days = 0 then [] else [lit "days=" ++ signedDecimal days]) ++
      (if rest = 0 then [] else [lit "seconds=" ++ signedDecimal rest])
  lit "datetime.timedelta(" ++
    (if parts.isEmpty then ['0'] else Text.join (lit ", ") parts) ++ [')']

/-- A day as a call with its parts. -/
def Date.shown (d : Date) : Text :=
  lit "datetime.date(" ++
    Text.join (lit ", ") [decimal d.year, decimal d.month, decimal d.day] ++ [')']

/-- A time as a call with its parts; the seconds and their fraction are left out
if they are zero. -/
def Moment.shown (t : Moment) : Text :=
  let parts := [t.date.year, t.date.month, t.date.day, t.hour, t.minute] ++
    (if t.microsecond ≠ 0 then [t.second, t.microsecond]
     else if t.second ≠ 0 then [t.second] else [])
  let zone := match t.offset with
    | none => []
    | some 0 => [lit "tzinfo=datetime.timezone.utc"]
    | some s => [lit "tzinfo=datetime.timezone(" ++ shownDuration s ++ [')']]
  lit "datetime.datetime(" ++ Text.join (lit ", ") (parts.map decimal ++ zone) ++ [')']

namespace Value

/-- The name of the kind of a value. -/
def typeName : Value → Text
  | null => lit "NoneType"
  | bool _ => lit "bool"
  | int _ => lit "int"
  | real _ => lit "float"
  | .text _ | codes _ => lit "str"
  | bytes _ => lit "bytes"
  | date _ => lit "date"
  | moment _ => lit "datetime"
  | list _ => lit "list"
  | pair _ _ => lit "tuple"
  | set _ => lit "set"
  | map _ => lit "dict"
  | again _ v => v.typeName

/-- The name of the kind of a value, with the place of its definition. -/
def fullTypeName (v : Value) : Text :=
  match v with
  | date _ => lit "datetime.date"
  | moment _ => lit "datetime.datetime"
  | _ => v.typeName

/-- What stands for a list or a mapping within itself. -/
def dots : Value → Text
  | map _ => lit "\x7b...\x7d"
  | _ => lit "[...]"

mutual

/-- The form of a value in which its kind can be seen, where it lies `depth` levels
deep in what is shown. -/
def shownAt (depth : Nat) : Value → Except Fault Text
  | null => .ok (lit "None")
  | bool b => .ok (if b then lit "True" else lit "False")
  | int i => writeInteger i
  | real x => .ok (floatFormat.write x)
  | .text t => .ok t.quoted
  | codes cs => .ok (quotedCodes cs)
  | bytes bs => .ok (quotedBytes bs)
  | date d => .ok d.shown
  | moment t => .ok t.shown
  | list vs => do return '[' :: (Text.join (lit ", ") (← shownEach (depth + 1) vs) ++ [']'])
  | pair a b => do
    let first ← shownAt (depth + 1) a
    return '(' :: (Text.join (lit ", ") [first, ← shownAt (depth + 1) b] ++ [')'])
  | set [] => .ok (lit "set()")
  | set (v :: vs) => do
    let first ← shownAt (depth + 1) v
    return '\x7b' :: (Text.join (lit ", ") (first :: (← shownEach (depth + 1) vs)) ++ ['\x7d'])
  | map es => do
    return '\x7b' :: (Text.join (lit ", ") (← shownEntries (depth + 1) es) ++ ['\x7d'])
  | again levels v => if levels ≤ depth then .ok (dots v) else shownAt depth v

/-- The shown forms of several values. -/
def shownEach (depth : Nat) : List Value → Except Fault (List Text)
  | [] => .ok []
  | v :: vs => do return (← shownAt depth v) :: (← shownEach depth vs)

/-- The shown forms of the entries of a mapping. -/
def shownEntries (depth : Nat) : List (Value × Value) → Except Fault (List Text)
  | [] => .ok []
  | (k, v) :: es => do
    let key ← shownAt depth k
    let value ← shownAt depth v
    return (key ++ lit ": " ++ value) :: (← shownEntries depth es)

end

/-- The form of a value in which its kind can be seen. -/
def shown (v : Value) : Except Fault Text := v.shownAt 0

/-- The form in which a value stands for a text. -/
def written : Value → Except Fault Text
  | .text t => .ok t
  | codes cs => .ok (Text.ofCodes cs)
  | date d => .ok d.iso
  | moment t => .ok (t.written ' ' (lit "+00:00"))
  | v => v.shown

end Value

end Worksheet

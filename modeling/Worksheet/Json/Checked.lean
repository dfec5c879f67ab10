import Worksheet.Calendar.Reader
import Worksheet.Fault
import Worksheet.Json
import Worksheet.Number.Real

/-!
# Reading records from JSON

What is read from a JSON value is `Checked`: either the thing that was to be
read, or everything that is wrong with the value. Parts are read one after
another, and what is wrong with one of them does not hide what is wrong with the
next.

* `Json.natural`, `Json.number`, `Json.string`, `Json.choice` and `Json.moment`
  read single values; numbers and times are also read from texts;
* `Json.elements` and `Json.optional` read lists and values that may be missing;
* `Json.record`, `Members.required` and `Members.given` read objects.
-/

namespace Worksheet

/-- Something that was read, or everything that is wrong. -/
inductive Checked (α : Type) where
  | ok (a : α)
  | wrong (violations : List Violation)

namespace Checked

variable {α β : Type}

/-- Something read with the help of something else. -/
def map (f : α → β) : Checked α → Checked β
  | ok a => ok (f a)
  | wrong vs => wrong vs

/-- Two things read one after another. -/
def both (f : Checked (α → β)) (a : Checked α) : Checked β :=
  match f, a with
  | ok f, ok a => ok (f a)
  | ok _, wrong vs => wrong vs
  | wrong us, ok _ => wrong us
  | wrong us, wrong vs => wrong (us ++ vs)

instance : Applicative Checked where
  pure := ok
  map := map
  seq f a := both f (a ())

/-- A value that breaks a rule as a whole. -/
def breaks (rule : Text) : Checked α := wrong [⟨[], rule⟩]

/-- What is read of a part of a value. -/
def under (s : Step) : Checked α → Checked α
  | ok a => ok a
  | wrong vs => wrong (vs.map fun v => { v with place := s :: v.place })

/-- What is read, or the fault of a value that breaks rules. -/
def toExcept : Checked α → Except Fault α
  | ok a => .ok a
  | wrong vs => .error (.invalid vs)

end Checked

/-! ## Numbers within texts -/

/-- White space that may stand around a number within a text. -/
def isMargin (c : Char) : Bool := isBlank c && !(0x1C ≤ c.toNat && c.toNat ≤ 0x1F)

/-- The text without its low lines, if it has any, and they stand alone between
other characters. -/
def withoutLowLines? (t : Text) : Option Text :=
  let parts := t.splitOn (· == '_')
  if parts.length = 1 ∨ parts.any (·.isEmpty) then none else some parts.flatten

/-- What an integer is taken for that is written as in JSON. -/
inductive Numeral where
  | value (i : Int)
  /-- It has more than `digitLimit` digits. -/
  | tooLong
  /-- It is no integer. -/
  | malformed

/-- The integer that a text stands for in JSON. That there are too many digits
shows before the end of the text. -/
def Numeral.read (t : Text) : Numeral :=
  let (negative, ds) := match t with
    | '-' :: ds => (true, ds)
    | ds => (false, ds)
  let run := ds.takeWhile isAsciiDigit
  if run = ['0'] ∧ ds.length = 1 then .value 0
  else if run = [] ∨ run.head? = some '0' then .malformed
  else if digitLimit < run.length then .tooLong
  else if run.length < ds.length then .malformed
  else
    let n : Int := digitsValue ds
    .value (if negative then -n else n)

/-- The digits of a number after zeros, of which the last one before a point or
the end stays. A sign may stand behind the zeros. -/
def afterZeros? (previous : Char) : Text → Option Text
  | [] => some [previous]
  | '0' :: rest => afterZeros? '0' rest
  | '_' :: rest => if previous = '_' then none else afterZeros? '_' rest
  | '.' :: rest => some (previous :: '.' :: rest)
  | c :: rest => if isAsciiDigit c || c == '-' then some (c :: rest) else none

/-- The digits of a number without zeros in front. -/
def withoutZeros? : Text → Option Text
  | '0' :: rest => afterZeros? '0' rest
  | c :: rest => if isAsciiDigit c then some (c :: rest) else none
  | [] => none

/-- A number without the zeros after its point, if there are any. -/
def withoutPoint (t : Text) : Text :=
  let whole := t.takeWhile (· != '.')
  let fraction := t.drop (whole.length + 1)
  if fraction ≠ [] ∧ fraction.all (· == '0') then whole else t

/-- A number as it would stand in JSON: without a plus sign, zeros in front, low
lines and a fraction of zeros. -/
def plainNumber? (t : Text) : Option Text := do
  let (sign, unsigned) := match t with
    | '+' :: rest => ([], rest)
    | '-' :: rest => (['-'], rest)
    | _ => ([], t)
  let number := withoutPoint (← withoutZeros? unsigned)
  return sign ++ (withoutLowLines? number).getD number

/-- The integer that a text stands for. -/
def integerOfText (t : Text) : Checked Int :=
  let t := t.trim isMargin
  match Numeral.read t with
  | .value i => .ok i
  | .tooLong => .breaks (lit "int_parsing_size")
  | .malformed =>
    match (plainNumber? t).map Numeral.read with
    | some (.value i) => .ok i
    | some .tooLong => .breaks (lit "int_parsing_size")
    | _ => .breaks (lit "int_parsing")

/-- The floating-point number that a text stands for. -/
def numberOfText (t : Text) : Checked Binary64 :=
  match Binary64.ofText? (t.trim isMargin) with
  | some x => .ok x
  | none =>
    match (withoutLowLines? t).bind Binary64.ofText? with
    | some x => .ok x
    | none => .breaks (lit "float_parsing")

namespace Json

/-! ## Single values -/

/-- The integers from which on a floating-point number is too large to be read
as one. -/
def integerBound : Int := Nat.pow 2 63

/-- An integer. -/
def integer (v : Json) : Checked Int :=
  match v with
  | int i => .ok i
  | bool b => .ok (if b then 1 else 0)
  | text t => integerOfText t
  | real x =>
    match x with
    | .nan | .infinite _ => .breaks (lit "finite_number")
    | .finite .. =>
      match x.integer? with
      | none => .breaks (lit "int_from_float")
      | some i =>
        if -integerBound < i && i < integerBound then .ok i
        else .breaks (lit "int_parsing_size")
  | _ => .breaks (lit "int_type")

/-- An integer that is not negative. -/
def natural (v : Json) : Checked Nat :=
  match v.integer with
  | .ok i => if 0 ≤ i then .ok i.toNat else .breaks (lit "greater_than_equal")
  | .wrong vs => .wrong vs

/-- A floating-point number. -/
def number (v : Json) : Checked Binary64 :=
  match v with
  | real x => .ok x
  | int i => .ok (Binary64.ofInt i)
  | bool b => .ok (Binary64.ofInt (if b then 1 else 0))
  | text t => numberOfText t
  | _ => .breaks (lit "float_type")

/-- A text. -/
def string (v : Json) : Checked Text :=
  match v with
  | text t => .ok t
  | _ => .breaks (lit "string_type")

/-- A value of an enumeration, given by its name. -/
def choice {α : Type} (ofName? : Text → Option α) (v : Json) : Checked α :=
  match v with
  | text t =>
    match ofName? t with
    | some a => .ok a
    | none => .breaks (lit "enum")
  | _ => .breaks (lit "enum")

/-- The integers from which on a number is not taken for a time. -/
def timeBound : Nat := Nat.pow 10 17

/-- A time that is given by a number, if there is such a time. -/
def timeOfNumber (t : Option Moment) : Checked Moment :=
  match t with
  | some t => .ok t
  | none => .breaks (lit "datetime_parsing")

/-- A time: a text with a day and a time, or a number of seconds. -/
def moment (v : Json) : Checked Moment :=
  match v with
  | text t =>
    match (Moment.ofText? t).or (Moment.ofNumeral? t) with
    | some m => .ok m
    | none => .breaks (lit "datetime_from_date_parsing")
  | int i =>
    if i.natAbs < timeBound then timeOfNumber (Moment.ofInteger? i)
    else .breaks (lit "datetime_type")
  | real x => timeOfNumber (Moment.ofReal? x)
  | _ => .breaks (lit "datetime_type")

/-! ## Lists and objects -/

variable {α : Type}

/-- Values of which the first has the index `i`. -/
def elementsFrom (read : Json → Checked α) : Nat → List Json → Checked (List α)
  | _, [] => pure []
  | i, v :: vs => (· :: ·) <$> (read v).under (.index i) <*> elementsFrom read (i + 1) vs

/-- A list. -/
def elements (read : Json → Checked α) (v : Json) : Checked (List α) :=
  match v with
  | list vs => elementsFrom read 0 vs
  | _ => .breaks (lit "list_type")

/-- A value in place of which there may be none. -/
def optional (read : Json → Checked α) (v : Json) : Checked (Option α) :=
  match v with
  | null => .ok none
  | _ => some <$> read v

/-- An object. -/
def record (read : Members → Checked α) (v : Json) : Checked α :=
  match v with
  | object ms => read ms
  | _ => .breaks (lit "model_type")

end Json

namespace Members

variable {α : Type}

/-- A member that has to be there. -/
def required (ms : Members) (name : String) (read : Json → Checked α) : Checked α :=
  match ms.get? (lit name) with
  | some v => (read v).under (.field (lit name))
  | none => .wrong [⟨[.field (lit name)], lit "missing"⟩]

/-- A member for which there is a default. -/
def given (ms : Members) (name : String) (default : α) (read : Json → Checked α) : Checked α :=
  match ms.get? (lit name) with
  | some v => (read v).under (.field (lit name))
  | none => .ok default

end Members

end Worksheet

import Worksheet.Calendar
import Worksheet.Yaml.Characters

/-!
# Tags

The tag of a node says what kind of value it stands for.

* `Tag.ofName` reads a tag that is written out;
* `Tag.implied` is the tag of a plain scalar without one, which follows from what
  the scalar looks like.
-/

namespace Worksheet.Yaml

/-- The kind of value that a node stands for. -/
inductive Tag where
  | null
  | bool
  | int
  | real
  | text
  | bytes
  | moment
  | list
  | map
  | set
  | orderedMap
  | pairs
  /-- The key under which other mappings are merged into one. -/
  | merge
  /-- The key for the default value of a mapping. -/
  | default
  /-- A tag without a meaning. -/
  | unknown
deriving DecidableEq, Repr

/-! ## What scalars look like -/

/-- What is left of a text after an optional sign. -/
def unsigned : Text → Text
  | '+' :: rest => rest
  | '-' :: rest => rest
  | t => t

/-- A digit of a base up to sixteen, or a low line. -/
def isSpacedDigit (base : Nat) (c : Char) : Bool :=
  c == '_' || (hexValue? c).any (· < base)

/-- Digits and low lines, at least one of them. -/
def isDigitRun (base : Nat) (t : Text) : Bool := t ≠ [] && t.all (isSpacedDigit base)

/-- A digit, then digits and low lines. -/
def isDecimalRun : Text → Bool
  | c :: cs => isAsciiDigit c && cs.all (isSpacedDigit 10)
  | [] => false

/-- A number below sixty in one or two digits. -/
def isSixtieth : Text → Bool
  | [a] => isAsciiDigit a
  | [a, b] => '0' ≤ a && a ≤ '5' && isAsciiDigit b
  | _ => false

/-- Whether a text looks like an integer. -/
def looksInteger (t : Text) : Bool :=
  let body := unsigned t
  let startsNonzero : Bool := body.head? != some '0' && isDecimalRun body
  body == ['0'] || startsNonzero ||
    (match body with
      | '0' :: 'b' :: ds => isDigitRun 2 ds
      | '0' :: 'x' :: ds => isDigitRun 16 ds
      | '0' :: ds => isDigitRun 8 ds
      | _ => false) ||
    match Text.splitOn (· == ':') body with
    | first :: more :: rest =>
      first.head? != some '0' && isDecimalRun first && (more :: rest).all isSixtieth
    | _ => false

/-- Whether a text is an exponent with a sign, or empty. -/
def isExponent : Text → Bool
  | [] => true
  | e :: sign :: ds =>
    (e == 'e' || e == 'E') && (sign == '+' || sign == '-') && ds ≠ [] && ds.all isAsciiDigit
  | _ => false

/-- Whether a text looks like digits, a point and digits, possibly with an
exponent. -/
def looksDecimal (t : Text) : Bool :=
  let whole := t.takeWhile (· != '.')
  match t.dropWhile (· != '.') with
  | [] => false
  | _ :: rest =>
    let fraction := rest.takeWhile (isSpacedDigit 10)
    isExponent (rest.dropWhile (isSpacedDigit 10)) &&
      if whole = [] then isDecimalRun fraction else isDecimalRun (unsigned whole)

/-- Whether a text looks like a number in units of sixty with a fraction. -/
def looksSexagesimal (t : Text) : Bool :=
  let whole := (unsigned t).takeWhile (· != '.')
  match (unsigned t).dropWhile (· != '.') with
  | [] => false
  | _ :: fraction =>
    fraction.all (isSpacedDigit 10) &&
      match Text.splitOn (· == ':') whole with
      | first :: more :: rest => isDecimalRun first && (more :: rest).all isSixtieth
      | _ => false

/-- Whether a text looks like a floating-point number. -/
def looksReal (t : Text) : Bool :=
  looksDecimal t || looksSexagesimal t ||
    [lit ".inf", lit ".Inf", lit ".INF"].contains (unsigned t) ||
    [lit ".nan", lit ".NaN", lit ".NAN"].contains t

/-! ## Times -/

/-- The distance from universal time that is written behind a time. -/
inductive Zone where
  | universal
  /-- Hours and minutes ahead or behind. -/
  | offset (ahead : Bool) (hours minutes : Nat)
deriving DecidableEq, Repr

/-- A time of the day as it is written. -/
structure Clock where
  hour : Nat
  minute : Nat
  second : Nat
  fraction : Text
  zone : Option Zone

/-- A day, with or without a time, as it is written. -/
structure Stamp where
  date : Date
  /-- Whether month and day have two digits. -/
  full : Bool
  clock : Option Clock

namespace Stamp

/-- One or two digits at the start of a text, and the rest. -/
def shortNumber? : Text → Option (Text × Text)
  | a :: b :: rest =>
    if !isAsciiDigit a then none
    else if isAsciiDigit b then some ([a, b], rest) else some ([a], b :: rest)
  | [a] => if isAsciiDigit a then some ([a], []) else none
  | [] => none

/-- Two digits at the start of a text, and the rest. -/
def pair? (t : Text) : Option (Text × Text) :=
  match shortNumber? t with
  | some ([a, b], rest) => some ([a, b], rest)
  | _ => none

/-- The rest of a text after a character. -/
def after? (c : Char) : Text → Option Text
  | d :: rest => if c = d then some rest else none
  | [] => none

/-- The distance from universal time, if there is one, up to the end of a text. -/
def zone? (t : Text) : Option (Option Zone) :=
  match t, t.dropWhile isGap with
  | [], _ => some none
  | _, ['Z'] => some (some .universal)
  | _, sign :: rest => do
    if sign ≠ '+' ∧ sign ≠ '-' then none
    let (hours, rest) ← shortNumber? rest
    let ahead := sign == '+'
    match rest with
    | [] => return some (.offset ahead (digitsValue hours) 0)
    | _ =>
      let (minutes, rest) ← pair? (← after? ':' rest)
      if rest = [] then return some (.offset ahead (digitsValue hours) (digitsValue minutes))
      else none
  | _, [] => none

/-- The time of the day up to the end of a text. -/
def clock? (t : Text) : Option Clock := do
  let (hour, rest) ← shortNumber? t
  let (minute, rest) ← pair? (← after? ':' rest)
  let (second, rest) ← pair? (← after? ':' rest)
  let (fraction, rest) := match rest with
    | '.' :: rest => (rest.takeWhile isAsciiDigit, rest.dropWhile isAsciiDigit)
    | _ => ([], rest)
  let zone ← zone? rest
  return { hour := digitsValue hour, minute := digitsValue minute, second := digitsValue second,
           fraction, zone }

/-- The rest of a text after what separates a day from the time of the day. -/
def afterDay? : Text → Option Text
  | c :: rest =>
    if c = 'T' ∨ c = 't' then some rest
    else if isGap c then some (rest.dropWhile isGap) else none
  | [] => none

/-- The day, and the time if there is one, that a text looks like. -/
def read? (t : Text) : Option Stamp := do
  let (century, rest) ← pair? t
  let (year, rest) ← pair? rest
  let (month, rest) ← shortNumber? (← after? '-' rest)
  let (day, rest) ← shortNumber? (← after? '-' rest)
  let date : Date := ⟨digitsValue (century ++ year), digitsValue month, digitsValue day⟩
  let full := month.length == 2 && day.length == 2
  match rest with
  | [] => return { date, full, clock := none }
  | _ => return { date, full, clock := some (← clock? (← afterDay? rest)) }

end Stamp

/-- Whether a text looks like a day or a time. A day alone is written in full. -/
def looksMoment (t : Text) : Bool :=
  match Stamp.read? t with
  | none => false
  | some s => s.full || s.clock.isSome

/-! ## Tags of scalars -/

/-- The words for truth values. -/
def truthWords : List Text :=
  ["yes", "Yes", "YES", "no", "No", "NO", "true", "True", "TRUE", "false", "False", "FALSE",
   "on", "On", "ON", "off", "Off", "OFF"].map lit

/-- The words for nothing. -/
def nullWords : List Text := ["~", "null", "Null", "NULL"].map lit

namespace Tag

/-- What all tags with a meaning start with. -/
def stem : Text := lit "tag:yaml.org,2002:"

/-- The tag of a name behind the common stem. -/
def ofSuffix (name : Text) : Tag :=
  match String.ofList name with
  | "null" => null
  | "bool" => bool
  | "int" => int
  | "float" => real
  | "str" => text
  | "binary" => bytes
  | "timestamp" => moment
  | "seq" => list
  | "map" => map
  | "set" => set
  | "omap" => orderedMap
  | "pairs" => pairs
  | "merge" => merge
  | "value" => default
  | _ => unknown

/-- The tag with a name. -/
def ofName (name : Text) : Tag :=
  if stem.isPrefixOf name then ofSuffix (name.drop stem.length) else unknown

/-- A text without a line break at its end, unless this is all of it. -/
def unterminated (t : Text) : Text :=
  if t.getLast? = some '\n' ∧ 1 < t.length then t.dropLast else t

/-- The tag of a scalar that looks like a text. -/
def implied (t : Text) : Tag :=
  let u := unterminated t
  if truthWords.contains u then bool
  else if looksReal u then real
  else if looksInteger u then int
  else if u = lit "<<" then merge
  else if u = [] ∨ nullWords.contains u then null
  else if looksMoment u then moment
  else if u = ['='] then default
  else if [['!'], ['&'], ['*']].contains u then unknown
  else text

end Tag

end Worksheet.Yaml

import Worksheet.Number.Binary64
import Worksheet.Value

/-!
# JSON values

A JSON value; numbers without point and exponent are kept as integers, and the
members of an object stand in the order in which their names came first.
-/

namespace Worksheet

/-- A JSON value. -/
inductive Json where
  | null
  | bool (b : Bool)
  | int (i : Int)
  | real (x : Binary64)
  | text (t : Text)
  /-- A text by the codes of its characters, some of which no character has. -/
  | codes (cs : List Nat)
  | list (vs : List Json)
  | object (members : List (Text × Json))

/-- The members of an object. -/
abbrev Members := List (Text × Json)

namespace Members

/-- The value of a name. -/
def get? (ms : Members) (name : Text) : Option Json := (ms.find? (·.1 = name)).map (·.2)

/-- The members with a value for a name: it takes the place of the value that
the name had, or comes last. -/
def put (name : Text) (value : Json) : Members → Members
  | [] => [(name, value)]
  | (n, v) :: rest => if n = name then (n, value) :: rest else (n, v) :: put name value rest

end Members

namespace Json

/-- A text in an alphabet as JSON. -/
def ofText {α : Type} [Alphabet α] (t : Text α) : Json :=
  match Alphabet.narrow t with
  | .ok u => .text u
  | .error _ => .codes (Alphabet.codes t)

mutual

/-- A JSON value as a value of the settings. -/
def toValue : Json → Value
  | null => .null
  | bool b => .bool b
  | int i => .int i
  | real x => .real x
  | text t => .text t
  | codes cs => .codes cs
  | list vs => .list (toValues vs)
  | object ms => .map (toEntries ms)

/-- Several JSON values as values of the settings. -/
def toValues : List Json → List Value
  | [] => []
  | v :: vs => toValue v :: toValues vs

/-- The members of an object as entries of a mapping. -/
def toEntries : List (Text × Json) → List (Value × Value)
  | [] => []
  | (n, v) :: ms => (.text n, toValue v) :: toEntries ms

end

end Json

end Worksheet
